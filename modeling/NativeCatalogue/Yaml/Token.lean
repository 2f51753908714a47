import NativeCatalogue.Hash.Basic

/-!
Tokens of YAML texts, and the classes of characters they are made of. Line breaks of every kind are
brought to one before anything is read: a carriage return, alone or before a newline, and the next-line
character count as a newline; the two Unicode separators stay what they are.
-/

set_option autoImplicit false

namespace NativeCatalogue.Yaml

/-- The text of a tag. Its escapes may spell bytes that are no characters. -/
abbrev TagText := List UInt8

inductive Token where
  | versionDirective (major minor : Nat)
  | tagDirective (handle : String) (lead : TagText)
  | documentStart
  | documentEnd
  | blockSequenceStart
  | blockMappingStart
  | blockEnd
  | flowSequenceStart
  | flowSequenceEnd
  | flowMappingStart
  | flowMappingEnd
  | blockEntry
  | flowEntry
  | key
  | value
  | alias (name : String)
  | anchor (name : String)
  | tag (handle : String) (suffix : TagText)
  | scalar (text : String) (plain : Bool)
  | possibleKey (id : Nat)
  deriving DecidableEq, Repr

def isAllowed (c : Char) : Bool :=
  let n := c.toNat
  n == 0x09 || n == 0x0A || n == 0x0D || (0x20 ≤ n && n ≤ 0x7E) || n == 0x85 ||
    (0xA0 ≤ n && n ≤ 0xD7FF) || (0xE000 ≤ n && n ≤ 0xFFFD) || 0x10000 ≤ n

def normalizeBreaks : List Char → List Char
  | [] => []
  | '\r' :: '\n' :: rest => '\n' :: normalizeBreaks rest
  | c :: rest => (if c = '\r' || c.toNat = 0x85 then '\n' else c) :: normalizeBreaks rest

def isBlank (c : Char) : Bool :=
  c = ' ' || c = '\t'

def isBreak (c : Char) : Bool :=
  c = '\n' || c.toNat = 0x2028 || c.toNat = 0x2029

def atGap : List Char → Bool
  | [] => true
  | c :: _ => isBlank c || isBreak c

def isNameChar (c : Char) : Bool :=
  c.isAlphanum || c = '_' || c = '-'

def atDocumentStart : List Char → Bool
  | '-' :: '-' :: '-' :: rest => atGap rest
  | _ => false

def atDocumentEnd : List Char → Bool
  | '.' :: '.' :: '.' :: rest => atGap rest
  | _ => false

structure Place where
  line : Nat
  column : Nat
  /-- How many bytes the line holds before the place. -/
  offset : Nat
  deriving DecidableEq, Repr

def Place.start : Place :=
  ⟨0, 0, 0⟩

def Place.after (p : Place) (c : Char) : Place :=
  if isBreak c then ⟨p.line + 1, 0, 0⟩ else ⟨p.line, p.column + 1, p.offset + c.utf8Size⟩

structure Cursor where
  place : Place
  rest : List Char

def Cursor.skip (c : Cursor) (n : Nat) : Cursor :=
  ⟨(c.rest.take n).foldl Place.after c.place, c.rest.drop n⟩

def Cursor.span (c : Cursor) (p : Char → Bool) : List Char × Cursor :=
  let taken := c.rest.takeWhile p
  (taken, c.skip taken.length)

end NativeCatalogue.Yaml
