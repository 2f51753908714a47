import NativeCatalogue.Binary.Basic
import NativeCatalogue.Text.LowerCase

set_option autoImplicit false

namespace NativeCatalogue.Hash

open Arithmetic

def mix (hash : UInt32) (byte : UInt8) : UInt32 :=
  let h := hash + byte.toUInt32
  let h := h + (h <<< 10)
  h ^^^ (h >>> 6)

def finish (hash : UInt32) : UInt32 :=
  let h := hash + (hash <<< 3)
  let h := h ^^^ (h >>> 11)
  h + (h <<< 15)

def joaat (bytes : List UInt8) : UInt32 :=
  finish (bytes.foldl mix 0)

def ofName (name : String) : UInt32 :=
  joaat (String.ofList (Text.lowerCase name.toList)).toUTF8.toList

def lowerHex (n : Nat) : List Char :=
  Nat.toDigits 16 n

def upperHex (n : Nat) : List Char :=
  (Nat.toDigits 16 n).map Char.toUpper

def text (hash : UInt64) : String :=
  "0x" ++ .ofList (upperHex hash.toNat)

def digit? (c : Char) : Option Nat :=
  if c.isDigit then some (c.toNat - '0'.toNat)
  else if 'a' ≤ c && c ≤ 'f' then some (c.toNat - 'a'.toNat + 10)
  else if 'A' ≤ c && c ≤ 'F' then some (c.toNat - 'A'.toNat + 10)
  else none

def isDigit (c : Char) : Bool :=
  (digit? c).isSome

def value? (digits : List Char) : Option Nat :=
  digits.foldlM (fun n c => (digit? c).map (n * 16 + ·)) 0

structure BadHash where
  text : String
  deriving DecidableEq, Repr

def BadHash.message (e : BadHash) : String :=
  s!"Native hash '{e.text}' is not a hexadecimal value"

def dropMark : List Char → List Char
  | '0' :: 'x' :: rest => rest
  | '0' :: 'X' :: rest => rest
  | cs => cs

def dropPlus : List Char → List Char
  | '+' :: rest => rest
  | cs => cs

def word? (digits : List Char) : Option UInt64 :=
  match digits with
  | [] => none
  | ds => (value? ds).bind fun n => if n < 2 ^ (64 : Nat) then some (.ofNat n) else none

/-- Reads a hash text. The mark may be missing, and a plus sign may follow it. -/
def parse (s : String) : Except BadHash UInt64 :=
  match word? (dropPlus (dropMark s.toList)) with
  | some hash => .ok hash
  | none => .error ⟨s⟩

end NativeCatalogue.Hash
