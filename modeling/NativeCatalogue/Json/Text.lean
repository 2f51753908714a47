import NativeCatalogue.Binary.Basic
import NativeCatalogue.Binary.Decimal
import NativeCatalogue.Binary.Shortest
import NativeCatalogue.Json.Basic

/-!
JSON texts as they are written: numbers keep their digits, and a string that holds half of a surrogate
pair or a byte of no character is kept without a value, so that it matters only where it is used. `JsonText.ofJson`
and `JsonText.value?` go between written texts and values, `JsonText.print` lays a text out.
-/

set_option autoImplicit false

namespace NativeCatalogue

open Arithmetic

structure Numeral where
  negative : Bool
  whole : List Char
  /-- The digits after the point; no digits, no point. -/
  fraction : List Char
  exponent : Option (Bool × List Char)
  deriving DecidableEq

inductive JsonText where
  | null
  | bool (b : Bool)
  | number (n : Numeral)
  /-- A number that is given by the bit pattern of a double, and whose digits are up to the printer. -/
  | double (bits : Nat)
  | string (s : Option String)
  | array (items : List JsonText)
  | object (members : List (Option String × JsonText))
  deriving Inhabited

namespace Numeral

def wordMax : Nat := 2 ^ (64 : Nat) - 1

/-- Gathers digits before the point while they fit a word of 64 bits; each digit that is left out
    counts as a place. -/
def gatherWhole : List Char → Nat → Nat × Nat
  | [], n => (n, 0)
  | c :: rest, n =>
    let next := n * 10 + Binary.digitValue c
    if wordMax < next then (n, rest.length + 1) else gatherWhole rest next

def gatherFraction : List Char → Nat → Int → Nat × Int
  | [], n, k => (n, k)
  | c :: rest, n, k =>
    let next := n * 10 + Binary.digitValue c
    if wordMax < next then (n, k) else gatherFraction rest next (k - 1)

def clampExponent (k : Int) : Int :=
  max (-(2 ^ (31 : Nat) : Nat)) (min k (2 ^ (31 : Nat) - 1 : Nat))

def float? (n : Numeral) : Option Nat :=
  let (gathered, places) := gatherWhole n.whole 0
  let (mantissa, k) := gatherFraction n.fraction gathered places
  let magnitude :=
    match n.exponent with
    | none => Binary.scaled mantissa k
    | some (negative, digits) =>
      let e := Binary.naturalOf digits
      if 2 ^ (31 : Nat) - 1 < e then
        if mantissa == 0 || negative then some 0 else none
      else
        Binary.scaled mantissa (clampExponent (if negative then k - e else k + e))
  magnitude.map (Binary.double.withSign n.negative)

/-- The integer a numeral denotes: digits alone, in the range of signed or unsigned 64-bit words.
    Minus zero is no integer. -/
def integer? (n : Numeral) : Option Int :=
  if n.fraction ≠ [] || n.exponent.isSome then none
  else
    let magnitude := Binary.naturalOf n.whole
    if n.negative then
      if magnitude = 0 || 2 ^ (63 : Nat) < magnitude then none else some (-magnitude)
    else if magnitude ≤ wordMax then some magnitude
    else none

def value? (n : Numeral) : Option Json :=
  match n.integer? with
  | some i => some (.int i)
  | none => n.float?.map .float

def ofInt (i : Int) : Numeral :=
  ⟨decide (i < 0), Nat.toDigits 10 i.natAbs, [], none⟩

def ofWritten (negative : Bool) (w : Binary.Written) : Numeral :=
  ⟨negative, w.whole, w.fraction, w.exponent.map fun e => (decide (e < 0), Nat.toDigits 10 e.natAbs)⟩

def print (n : Numeral) : List Char :=
  (if n.negative then ['-'] else []) ++ n.whole ++
    (if n.fraction = [] then [] else '.' :: n.fraction) ++
    match n.exponent with
    | none => []
    | some (negative, digits) => 'e' :: (if negative then '-' else '+') :: digits

end Numeral

namespace JsonText

def hexDigit (n : Nat) : Char :=
  Nat.digitChar (n % 16)

def quoteChar (c : Char) : List Char :=
  if c = '"' then ['\\', '"']
  else if c = '\\' then ['\\', '\\']
  else if c = '\x08' then ['\\', 'b']
  else if c = '\x0c' then ['\\', 'f']
  else if c = '\n' then ['\\', 'n']
  else if c = '\r' then ['\\', 'r']
  else if c = '\t' then ['\\', 't']
  else if c.toNat < 0x20 then ['\\', 'u', '0', '0', hexDigit (c.toNat / 16), hexDigit c.toNat]
  else [c]

def quote (s : String) : List Char :=
  '"' :: s.toList.flatMap quoteChar ++ ['"']

mutual

def ofJson : Json → JsonText
  | .null => .null
  | .bool b => .bool b
  | .int i => .number (.ofInt i)
  | .float bits => .double bits
  | .string s => .string (some s)
  | .array items => .array (ofItems items)
  | .object members => .object (ofMembers members)

def ofItems : List Json → List JsonText
  | [] => []
  | item :: rest => ofJson item :: ofItems rest

def ofMembers : List (String × Json) → List (Option String × JsonText)
  | [] => []
  | (key, value) :: rest => (some key, ofJson value) :: ofMembers rest

end

mutual

/-- The value of a written text whose arrays and objects are nested at most `limit` deep. Every
    string must have a value and every number must be in range. -/
def value? : JsonText → Nat → Option Json
  | .null, _ => some .null
  | .bool b, _ => some (.bool b)
  | .number n, _ => n.value?
  | .double bits, _ => some (.float bits)
  | .string s, _ => s.map .string
  | .array _, 0 => none
  | .array items, limit + 1 => (values? items limit).map .array
  | .object _, 0 => none
  | .object members, limit + 1 =>
    (memberValues? members limit).map fun ms => .object (Json.ofMembers ms)

def values? : List JsonText → Nat → Option (List Json)
  | [], _ => some []
  | item :: rest, limit => do
    let value ← value? item limit
    let others ← values? rest limit
    return value :: others

def memberValues? : List (Option String × JsonText) → Nat → Option (List (String × Json))
  | [], _ => some []
  | (key, value) :: rest, limit => do
    let k ← key
    let v ← value? value limit
    let others ← memberValues? rest limit
    return (k, v) :: others

end

inductive Layout where
  | compact
  | pretty
  deriving DecidableEq, Repr

def Layout.newline : Layout → Nat → List Char
  | .compact, _ => []
  | .pretty, depth => '\n' :: List.replicate (2 * depth) ' '

def Layout.colon : Layout → List Char
  | .compact => [':']
  | .pretty => [':', ' ']

def quoteOptional : Option String → List Char
  | some s => quote s
  | none => ['"', '"']

def printDouble (style : Binary.NumberStyle) (bits : Nat) : List Char :=
  match style.ofBits bits with
  | some (negative, w) => (Numeral.ofWritten negative w).print
  | none => "null".toList

structure Printing where
  style : Binary.NumberStyle
  layout : Layout

mutual

/-- The characters of a text. Empty brackets stay closed. -/
def print (how : Printing) (depth : Nat) : JsonText → List Char
  | .null => "null".toList
  | .bool true => "true".toList
  | .bool false => "false".toList
  | .number n => n.print
  | .double bits => printDouble how.style bits
  | .string s => quoteOptional s
  | .array [] => ['[', ']']
  | .array (item :: rest) =>
    '[' :: how.layout.newline (depth + 1) ++ print how (depth + 1) item ++
      printItems how (depth + 1) rest ++ how.layout.newline depth ++ [']']
  | .object [] => ['\x7b', '\x7d']
  | .object ((key, value) :: rest) =>
    '\x7b' :: how.layout.newline (depth + 1) ++ quoteOptional key ++ how.layout.colon ++
      print how (depth + 1) value ++ printMembers how (depth + 1) rest ++
      how.layout.newline depth ++ ['\x7d']

def printItems (how : Printing) (depth : Nat) : List JsonText → List Char
  | [] => []
  | item :: rest =>
    ',' :: how.layout.newline depth ++ print how depth item ++ printItems how depth rest

def printMembers (how : Printing) (depth : Nat) : List (Option String × JsonText) → List Char
  | [] => []
  | (key, value) :: rest =>
    ',' :: how.layout.newline depth ++ quoteOptional key ++ how.layout.colon ++
      print how depth value ++ printMembers how depth rest

end

end JsonText

def Json.write (layout : JsonText.Layout) (value : Json) : String :=
  .ofList (JsonText.print ⟨Binary.doubleStyle, layout⟩ 0 (.ofJson value))

end NativeCatalogue
