import NativeCatalogue.Binary.Basic

/-!
The shortest decimal digits that read back as a given binary number, and the ways to write them.
The reals that round to a number form an interval, which holds its ends if the mantissa is even;
the answer lies on the coarsest decimal grid that has a point in it.
-/

set_option autoImplicit false

namespace NativeCatalogue.Binary

open Arithmetic

/-- Decimal digits: `0.d₁d₂… · 10^point`. -/
structure Decimal where
  digits : List Char
  point : Int
  deriving DecidableEq, Repr

/-- The reals that round to a number, as numerators over one denominator. -/
structure Interval where
  low : Nat
  value : Nat
  high : Nat
  den : Nat
  closed : Bool

/-- The interval of a positive finite number. Below a power of two the neighbour is half as far. -/
def Format.interval (f : Format) (m : Nat) (e : Int) : Interval :=
  let gap := if m == 2 ^ f.mantissaBits && f.minExponent < e then 1 else 2
  let (low, den) := ratioOf (4 * m - gap) (e - 2)
  let (value, _) := ratioOf (4 * m) (e - 2)
  let (high, _) := ratioOf (4 * m + 2) (e - 2)
  ⟨low, value, high, den, m % 2 == 0⟩

def Interval.contains (i : Interval) (d : Nat) (k : Int) : Bool :=
  let x := if 0 ≤ k then d * 10 ^ k.toNat * i.den else d * i.den
  let scale := if 0 ≤ k then 1 else 10 ^ (-k).toNat
  if i.closed then i.low * scale ≤ x && x ≤ i.high * scale
  else i.low * scale < x && x < i.high * scale

/-- The point of the grid of step `10^k` that stands for the interval, if one does: the nearer of
    the value's two neighbours on the grid, a tie going to the even one. -/
def Interval.gridPoint (i : Interval) (k : Int) : Option Nat :=
  let num := if 0 ≤ k then i.value else i.value * 10 ^ (-k).toNat
  let den := if 0 ≤ k then i.den * 10 ^ k.toNat else i.den
  let below := num / den
  let above := below + 1
  match i.contains below k, i.contains above k with
  | true, true => some (divideToEven num den)
  | true, false => some below
  | false, true => some above
  | false, false => none

/-- The decimal exponent of a positive ratio: `10^k ≤ num / den < 10^(k+1)`. -/
def decimalExponent (num den : Nat) : Int :=
  let guess : Int := ((Nat.toDigits 10 num).length : Int) - (Nat.toDigits 10 den).length
  let reaches :=
    if 0 ≤ guess then den * 10 ^ guess.toNat ≤ num else den ≤ num * 10 ^ (-guess).toNat
  if reaches then guess else guess - 1

def Interval.search (i : Interval) (top : Int) : Nat → Nat → Option (Nat × Int)
  | 0, _ => none
  | tries + 1, n =>
    let k := top - n
    match i.gridPoint k with
    | some d => some (d, k)
    | none => i.search top tries (n + 1)

/-- The shortest digits of a positive finite number, without trailing zeros. Seventeen digits
    always suffice for the formats here. -/
def Format.shortest (f : Format) (m : Nat) (e : Int) : Decimal :=
  let i := f.interval m e
  match i.search (decimalExponent i.value i.den) 18 0 with
  | none => ⟨['0'], 1⟩
  | some (d, k) =>
    let ds := Nat.toDigits 10 d
    ⟨(ds.reverse.dropWhile (· == '0')).reverse, k + ds.length⟩

/-- How a number is written: which decimal exponents, of the form `d.ddd · 10^E`, are written out
    in full. -/
structure NumberStyle where
  format : Format
  least : Int
  most : Int

/-- Doubles are written out from `0.00001` up to sixteen places before the point. -/
def doubleStyle : NumberStyle := ⟨double, -5, 15⟩

/-- Singles are written out from `0.000001` up to thirteen places before the point. -/
def singleStyle : NumberStyle := ⟨single, -6, 12⟩

structure Written where
  whole : List Char
  fraction : List Char
  exponent : Option Int
  deriving DecidableEq, Repr

/-- Writes digits in full or in scientific form. Full form always has a point. -/
def NumberStyle.write (style : NumberStyle) (d : Decimal) : Written :=
  let e := d.point - 1
  let n := d.digits.length
  if e < style.least || style.most < e then
    ⟨d.digits.take 1, d.digits.drop 1, some e⟩
  else if e < 0 then
    ⟨['0'], List.replicate (-e - 1).toNat '0' ++ d.digits, none⟩
  else if n ≤ e.toNat + 1 then
    ⟨d.digits ++ List.replicate (e.toNat + 1 - n) '0', ['0'], none⟩
  else
    ⟨d.digits.take (e.toNat + 1), d.digits.drop (e.toNat + 1), none⟩

def NumberStyle.ofBits (style : NumberStyle) (bits : Nat) : Option (Bool × Written) :=
  match style.format.decode bits with
  | .finite negative 0 _ => some (negative, ⟨['0'], ['0'], none⟩)
  | .finite negative m e => some (negative, style.write (style.format.shortest m e))
  | .infinite _ => none
  | .notANumber => none

end NativeCatalogue.Binary
