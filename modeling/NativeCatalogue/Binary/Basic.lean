set_option autoImplicit false

-- Powers and sums of naturals as the core language has them. The definitions that open this namespace mean
-- the same wherever a library brings instances of its own for powers and for zero; an exponent that is a
-- numeral is written with its type, since the type would be left to a library's default.
namespace NativeCatalogue.Arithmetic

scoped instance (priority := high) naturalPower : Pow Nat Nat := instPowNat

scoped instance (priority := high) naturalZero : Zero Nat := Zero.ofOfNat0

end NativeCatalogue.Arithmetic

namespace NativeCatalogue.Binary

open Arithmetic

structure Format where
  mantissaBits : Nat
  exponentBits : Nat

def double : Format := ⟨52, 11⟩

def single : Format := ⟨23, 8⟩

def Format.minExponent (f : Format) : Int :=
  2 - (2 ^ (f.exponentBits - 1) : Nat) - (f.mantissaBits : Nat)

def Format.infinity (f : Format) : Nat :=
  (2 ^ f.exponentBits - 1) * 2 ^ f.mantissaBits

def Format.signBit (f : Format) : Nat :=
  2 ^ (f.mantissaBits + f.exponentBits)

inductive Value where
  | finite (negative : Bool) (mantissa : Nat) (exponent : Int)
  | infinite (negative : Bool)
  | notANumber
  deriving DecidableEq, Repr

def Format.decode (f : Format) (bits : Nat) : Value :=
  let negative := bits / f.signBit % 2 == 1
  let field := bits / 2 ^ f.mantissaBits % 2 ^ f.exponentBits
  let fraction := bits % 2 ^ f.mantissaBits
  if field == 2 ^ f.exponentBits - 1 then
    if fraction == 0 then .infinite negative else .notANumber
  else if field == 0 then .finite negative fraction f.minExponent
  else .finite negative (fraction + 2 ^ f.mantissaBits) (f.minExponent + (field - 1 : Nat))

def divideToEven (num den : Nat) : Nat :=
  let q := num / den
  let r := num % den
  if 2 * r < den then q
  else if den < 2 * r then q + 1
  else if q % 2 == 0 then q else q + 1

/-- `num / den` in units of `2^e`, as a ratio of naturals. -/
def scaledRatio (num den : Nat) (e : Int) : Nat × Nat :=
  if 0 ≤ e then (num, den * 2 ^ e.toNat) else (num * 2 ^ (-e).toNat, den)

def leadingExponent (num den : Nat) : Int :=
  let k : Int := (num.log2 : Int) - (den.log2 : Int)
  let (n, d) := scaledRatio num den k
  if d ≤ n then k else k - 1

/-- The pattern, without a sign, of the number nearest to `num / den`; a ratio too large for the
    format gives infinity. Neighbouring numbers have neighbouring patterns, so a mantissa that
    rounds up to the next power of two needs no case of its own. -/
def Format.roundRatio (f : Format) (num den : Nat) : Nat :=
  if num == 0 then 0
  else
    let unit := max (leadingExponent num den - (f.mantissaBits : Nat)) f.minExponent
    let (n, d) := scaledRatio num den unit
    let bits := (unit - f.minExponent).toNat * 2 ^ f.mantissaBits + divideToEven n d
    min bits f.infinity

def ratioOf (mantissa : Nat) (exponent : Int) : Nat × Nat :=
  if 0 ≤ exponent then (mantissa * 2 ^ exponent.toNat, 1) else (mantissa, 2 ^ (-exponent).toNat)

def Format.withSign (f : Format) (negative : Bool) (bits : Nat) : Nat :=
  if negative then f.signBit + bits else bits

def convert (source target : Format) (bits : Nat) : Nat :=
  match source.decode bits with
  | .finite negative m e =>
    let (num, den) := ratioOf m e
    target.withSign negative (target.roundRatio num den)
  | .infinite negative => target.withSign negative target.infinity
  | .notANumber => target.infinity + 2 ^ (target.mantissaBits - 1)

/-- Equality of numbers: not a number differs from all, and the two zeros are equal. -/
def Format.sameNumber (f : Format) (a b : Nat) : Bool :=
  match f.decode a, f.decode b with
  | .notANumber, _ => false
  | _, .notANumber => false
  | .finite _ 0 _, .finite _ 0 _ => true
  | x, y => x == y

end NativeCatalogue.Binary
