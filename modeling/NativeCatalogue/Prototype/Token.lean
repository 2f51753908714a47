import NativeCatalogue.Binary.Basic
import NativeCatalogue.Prototype.Basic

/-!
Tokens of declarations. A token keeps the gap before it, which is blanks and comments, so that the
tokens of a text and what follows the last of them are the text again.
-/

set_option autoImplicit false

namespace NativeCatalogue

open Arithmetic

inductive TokenKind where
  | ident (name : String)
  | number (text : String)
  | star
  | openParen
  | closeParen
  | comma
  | semicolon
  | punct (char : Char)
  deriving DecidableEq, Repr

def TokenKind.text : TokenKind → List Char
  | .ident name => name.toList
  | .number text => text.toList
  | .star => ['*']
  | .openParen => ['(']
  | .closeParen => [')']
  | .comma => [',']
  | .semicolon => [';']
  | .punct char => [char]

/-- A token, the gap before it, and the byte offset of its first character. -/
structure Token where
  gap : List Char
  kind : TokenKind
  start : Nat
  deriving DecidableEq, Repr

def byteLength (cs : List Char) : Nat :=
  (cs.map Char.utf8Size).sum

namespace Token

def stop (t : Token) : Nat :=
  t.start + byteLength t.kind.text

def ident? (t : Token) : Option String :=
  match t.kind with
  | .ident name => some name
  | _ => none

end Token

def isIdentStart (c : Char) : Bool :=
  c.isAlpha || c = '_'

def isIdentRest (c : Char) : Bool :=
  c.isAlphanum || c = '_'

def isNumberRest (c : Char) : Bool :=
  c.isAlphanum || c = '.'

def isPunctuation (c : Char) : Bool :=
  let n := c.toNat
  (0x21 ≤ n && n ≤ 0x2F) || (0x3A ≤ n && n ≤ 0x40) || (0x5B ≤ n && n ≤ 0x60) ||
    (0x7B ≤ n && n ≤ 0x7E)

end NativeCatalogue
