import NativeCatalogue.Binary.Basic
import NativeCatalogue.Binary.Decimal
import NativeCatalogue.Text.Word

set_option autoImplicit false

namespace NativeCatalogue

open Arithmetic

structure Version where
  major : UInt32 := 0
  minor : UInt32 := 0
  build : UInt32 := 0
  revision : UInt32 := 0
  deriving DecidableEq, Repr, Inhabited

namespace Version

def toList (v : Version) : List UInt32 :=
  [v.major, v.minor, v.build, v.revision]

def textChars (v : Version) : List Char :=
  [',', ' '].intercalate (v.toList.map fun n => Nat.toDigits 10 n.toNat)

def text (v : Version) : String :=
  .ofList v.textChars

/-- The number that a run of digits denotes; only ASCII digits denote numbers. -/
def numberOf? (digits : List Char) : Option Nat :=
  if digits.all Char.isDigit then some (Binary.naturalOf digits) else none

def wordOf (digits : List Char) : UInt32 :=
  match numberOf? digits with
  | some n => if n < 2 ^ (32 : Nat) then .ofNat n else 0
  | none => 0

def ofLine (line : List Char) : Version :=
  let words := (Text.digitRuns line).map wordOf
  ⟨words.getD 0 0, words.getD 1 0, words.getD 2 0, words.getD 3 0⟩

end Version

inductive VersionError where
  | wrongCount (text : String)
  | outOfRange (text : String)
  deriving DecidableEq, Repr

def VersionError.message : VersionError → String
  | .wrongCount text => s!"Invalid version '{text}', must be either 2 or 4 integers"
  | .outOfRange text => s!"Version '{text}' contains at least 1 number that isn't < 65535"

inductive VersionRequest where
  /-- The first two numbers; the others follow from the date and the file before. -/
  | dated (major minor : UInt32)
  | pinned (version : Version)
  deriving DecidableEq, Repr

namespace VersionRequest

def limit : Nat := 65535

def inRange? (digits : List Char) : Option UInt32 :=
  match Version.numberOf? digits with
  | some n => if n < limit then some (.ofNat n) else none
  | none => none

def parse (text : String) : Except VersionError VersionRequest :=
  let runs := Text.digitRuns text.toList
  if runs.length ≠ 2 && runs.length ≠ 4 then .error (.wrongCount text)
  else
    match runs.mapM inRange? with
    | some [major, minor] => .ok (.dated major minor)
    | some [a, b, c, d] => .ok (.pinned ⟨a, b, c, d⟩)
    | _ => .error (.outOfRange text)

/-- The version to write after a previous one, so many days after the first. The revision goes up
    while the build stays the same. -/
def next (request : VersionRequest) (previous : Version) (days : Int) : Version :=
  match request with
  | .pinned v => v
  | .dated major minor =>
    let build : UInt32 := .ofNat (min days.toNat (limit - 1))
    let revision : UInt32 :=
      if build = previous.build then .ofNat (min (previous.revision.toNat + 1) (limit - 1)) else 0
    ⟨major, minor, build, revision⟩

end VersionRequest

end NativeCatalogue
