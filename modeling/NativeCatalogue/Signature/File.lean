import NativeCatalogue.Hash.Basic
import NativeCatalogue.Signature.Table
import NativeCatalogue.Text.Basic
import NativeCatalogue.Version.Basic

set_option autoImplicit false

namespace NativeCatalogue

inductive SignatureLine where
  | opening
  | signature
  | closing
  | version
  | other
  deriving DecidableEq, Repr

def SignatureLine.ofChars (line : List Char) : SignatureLine :=
  match line.dropWhile Text.isBlank with
  | '[' :: _ => .opening
  | '\x7b' :: _ => .signature
  | '\x7d' :: _ => .closing
  | start => if start.takeWhile Text.isWordChar = "version".toList then .version else .other

inductive TypeSearch where
  | outside
  | expecting
  | inside (text : List Char)

def typesIn : TypeSearch → List Char → List String
  | _, [] => []
  | .inside text, c :: rest =>
    if c = '"' then .ofList text.reverse :: typesIn .outside rest
    else typesIn (.inside (c :: text)) rest
  | search, c :: rest =>
    if c = ',' || c = '\x7b' then typesIn .expecting rest
    else
      match search with
      | .expecting =>
        if c = '"' then typesIn (.inside []) rest
        else if Text.isBlank c then typesIn .expecting rest
        else typesIn .outside rest
      | _ => typesIn .outside rest

def hexDigitsIn? : List Char → Option (List Char)
  | [] => none
  | c :: rest =>
    match c, rest with
    | '0', x :: digits =>
      if (x = 'x' || x = 'X') && digits.head?.any Hash.isDigit then
        some (digits.takeWhile Hash.isDigit)
      else hexDigitsIn? rest
    | _, _ => hexDigitsIn? rest

/-- Why a text is no signature file. Lines count from one. -/
inductive SignatureFileError where
  | badSignature (line : Nat) (text : String)
  | orphanSignature (line : Nat) (text : String)
  | badHash (line : Nat) (text : String)
  deriving DecidableEq, Repr

def SignatureFileError.message : SignatureFileError → String
  | .badSignature line text =>
    s!"Unexpected Lua format, expecting a Lua array with strings, on line {line}, got `{text}`"
  | .orphanSignature line text =>
    "Unexpected Lua format, found a new signature but we aren't in any method group, " ++
      s!"on line {line}, got `{text}`"
  | .badHash line text =>
    s!"Unexpected Lua format, expecting a hex value on line {line}, got `{text}`"

structure SignatureFile where
  table : SignatureTable := ∅
  version : Version := {}
  signatures : Nat := 0
  deriving Inhabited

namespace SignatureFile

structure Reading where
  file : SignatureFile := {}
  current : Option UInt64 := none

def readLine (r : Reading) (number : Nat) (line : List Char) : Except SignatureFileError Reading :=
  let text := String.ofList line
  match SignatureLine.ofChars line with
  | .signature =>
    match r.current, typesIn .outside line with
    | none, _ => .error (.orphanSignature number text)
    | some _, [] => .error (.badSignature number text)
    | some hash, types =>
      .ok { r with file := { r.file with
        table := (r.file.table.insert hash ⟨types⟩).1
        signatures := r.file.signatures + 1 } }
  | .opening =>
    match (hexDigitsIn? line).bind Hash.word? with
    | some hash =>
      .ok { file := { r.file with table := r.file.table.reset hash }, current := some hash }
    | none => .error (.badHash number text)
  | .closing => .ok { r with current := none }
  | .version => .ok { r with file := { r.file with version := Version.ofLine line } }
  | .other => .ok r

def readLines (r : Reading) (number : Nat) : List (List Char) → Except SignatureFileError Reading
  | [] => .ok r
  | line :: rest =>
    match readLine r number line with
    | .ok next => readLines next (number + 1) rest
    | .error e => .error e

def parse (text : String) : Except SignatureFileError SignatureFile :=
  (readLines {} 1 (Text.linesOf text.toList)).map Reading.file

def header : List String :=
  ["-- Auto-generated file --",
    "-- Follow the below syntax explicitly if manually editing, " ++
      "as we use a simplified Lua parser that expects this syntax.",
    ""]

def groupLines (hash : UInt64) (signatures : List Signature) : List (List Char) :=
  ("[0x".toList ++ Hash.lowerHex hash.toNat ++ "] = \x7b".toList) ::
    signatures.map (fun s => '\t' :: s.textChars ++ [',']) ++ ["\x7d,".toList]

def linesOf (table : SignatureTable) (version : Version) : List (List Char) :=
  header.map String.toList ++
    ["version = \x7b ".toList ++ version.textChars ++ " \x7d".toList,
      "compatibility = \x7b".toList] ++
    (table.toList.flatMap fun (hash, signatures) => groupLines hash signatures) ++ ["\x7d".toList]

def render (table : SignatureTable) (version : Version) : String :=
  .ofList ((linesOf table version).flatMap (· ++ ['\n']))

end SignatureFile

end NativeCatalogue
