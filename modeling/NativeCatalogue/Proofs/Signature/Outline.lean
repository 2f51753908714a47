import NativeCatalogue.Proofs.Signature.Table
import NativeCatalogue.Signature.File

/-!
What the lines of a signature file say, each seen among the others: which group a line stands in, what
is wrong with it, and what a file of such lines holds. It speaks of the last line of a kind and of the
lines behind it, and knows nothing of reading one line after the other.
-/

set_option autoImplicit false

namespace NativeCatalogue

open Arithmetic

namespace SignatureLine

def isBoundary : SignatureLine → Bool
  | .opening => true
  | .closing => true
  | _ => false

end SignatureLine

namespace SignatureFile

def IsLast (p : List Char → Bool) (lines : List (List Char)) (line : List Char)
    (behind : List (List Char)) : Prop :=
  ∃ before, lines = before ++ line :: behind ∧ p line = true ∧ ∀ l ∈ behind, p l = false

def isBoundary (line : List Char) : Bool :=
  (SignatureLine.ofChars line).isBoundary

def isSignature (line : List Char) : Bool :=
  SignatureLine.ofChars line = .signature

def isVersion (line : List Char) : Bool :=
  SignatureLine.ofChars line = .version

/-- Whether lines end inside a group: of the lines that open or close one, the last one opens it. -/
def InGroup (lines : List (List Char)) : Prop :=
  ∃ line behind, IsLast isBoundary lines line behind ∧ SignatureLine.ofChars line = .opening

/-- Whether a line has a type in it: a text between quotes that a comma or an opening brace introduces. -/
def HasType (line : List Char) : Prop :=
  ∃ before mark gap text after, line = before ++ mark :: (gap ++ '"' :: (text ++ '"' :: after)) ∧
    (mark = ',' ∨ mark = '\x7b') ∧ (∀ c ∈ gap, Text.isBlank c = true) ∧ '"' ∉ text

def startsHex : List Char → Bool
  | '0' :: x :: rest => (x = 'x' || x = 'X') && rest.head?.any Hash.isDigit
  | _ => false

/-- Whether a hash is the first hexadecimal number of a line, which must be below 2^64. -/
def HasHash (line : List Char) (hash : UInt64) : Prop :=
  ∃ before x rest n, line = before ++ '0' :: x :: rest ∧ startsHex ('0' :: x :: rest) = true ∧
    (∀ earlier more, before = earlier ++ more → more ≠ [] →
      startsHex (more ++ '0' :: x :: rest) = false) ∧
    Hash.value? (rest.takeWhile Hash.isDigit) = some n ∧ n < 2 ^ (64 : Nat) ∧ hash = .ofNat n

inductive Fault (before : List (List Char)) (line : List Char) : SignatureFileError → Prop
  | orphan (kind : SignatureLine.ofChars line = .signature) (outside : ¬ InGroup before) :
      Fault before line (.orphanSignature (before.length + 1) (.ofList line))
  | untyped (kind : SignatureLine.ofChars line = .signature) (inside : InGroup before)
      (types : ¬ HasType line) :
      Fault before line (.badSignature (before.length + 1) (.ofList line))
  | unhashed (kind : SignatureLine.ofChars line = .opening) (hash : ∀ hash, ¬ HasHash line hash) :
      Fault before line (.badHash (before.length + 1) (.ofList line))

def Faultless (lines : List (List Char)) : Prop :=
  ∀ before line after, lines = before ++ line :: after → ∀ e, ¬ Fault before line e

def FirstFault (lines : List (List Char)) (e : SignatureFileError) : Prop :=
  ∃ before line after, lines = before ++ line :: after ∧ Faultless before ∧ Fault before line e

def openedHash? (line : List Char) : Option UInt64 :=
  match SignatureLine.ofChars line with
  | .opening => (hexDigitsIn? line).bind Hash.word?
  | _ => none

def opens (hash : UInt64) (line : List Char) : Bool :=
  openedHash? line = some hash

/-- The different signatures of a group, by the lines behind its opening: those of the lines with
    signatures up to the next line that opens or closes a group. -/
def signaturesBehind (lines : List (List Char)) : List Signature :=
  (((lines.takeWhile (!isBoundary ·)).filter isSignature).map
    fun line => ⟨typesIn .outside line⟩).eraseDups

/-- What a file holds whose lines are given. -/
structure Describes (lines : List (List Char)) (file : SignatureFile) : Prop where
  hashes : file.table.toList.map Prod.fst = (lines.filterMap openedHash?).eraseDups
  listed : ∀ hash, file.table.get? hash = SignatureGroups.get? file.table.toList hash
  /-- A hash has the signatures behind its last opening. -/
  groups : ∀ hash line behind, IsLast (opens hash) lines line behind →
    file.table.get? hash = some (signaturesBehind behind)
  signatures : file.signatures = lines.countP isSignature
  version : ∀ line behind, IsLast isVersion lines line behind → file.version = Version.ofLine line
  noVersion : (∀ line ∈ lines, isVersion line = false) → file.version = {}

end SignatureFile

end NativeCatalogue
