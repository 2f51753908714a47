import NativeCatalogue.Binary.Basic

/-!
Binary numbers from decimal digits, in two ways: `Format.ofDecimal` gives the nearest number;
`scaled` goes through the double nearest to the digits and scales it by doubles that stand for
powers of ten, with a rounding at each step.
-/

set_option autoImplicit false

namespace NativeCatalogue.Binary

open Arithmetic

def digitValue (c : Char) : Nat :=
  c.toNat - '0'.toNat

def naturalOf (digits : List Char) : Nat :=
  digits.foldl (fun n c => n * 10 + digitValue c) 0

/-- The pattern nearest to `mantissa · 10^exponent`. Exponents far outside the format's range are
    settled without the power of ten. -/
def Format.ofDecimal (f : Format) (mantissa : Nat) (exponent : Int) : Nat :=
  let places := exponent + (Nat.toDigits 10 mantissa).length
  let bound : Int := (2 ^ f.exponentBits : Nat)
  if mantissa == 0 || places < -bound then 0
  else if bound < places then f.infinity
  else if 0 ≤ exponent then f.roundRatio (mantissa * 10 ^ exponent.toNat) 1
  else f.roundRatio mantissa (10 ^ (-exponent).toNat)

def scaleByTen (bits : Nat) (k : Int) : Nat :=
  match double.decode bits, double.decode (double.ofDecimal 1 k.natAbs) with
  | .finite _ m e, .finite _ p q =>
    let (a, b) := ratioOf m e
    let (c, d) := ratioOf p q
    if 0 ≤ k then double.roundRatio (a * c) (b * d) else double.roundRatio (a * d) (b * c)
  | _, _ => double.infinity

def scaleSteps (bits : Nat) (k : Int) : Option Nat :=
  if k.natAbs ≤ 308 then
    let scaled := scaleByTen bits k
    if scaled == double.infinity then none else some scaled
  else if bits == 0 then some 0
  else if 0 ≤ k then none
  else scaleSteps (scaleByTen bits (-308)) (k + 308)
termination_by k.natAbs

def scaled (mantissa : Nat) (k : Int) : Option Nat :=
  scaleSteps (double.roundRatio mantissa 1) k

end NativeCatalogue.Binary
