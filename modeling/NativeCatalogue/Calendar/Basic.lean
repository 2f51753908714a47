import NativeCatalogue.Binary.Decimal
import NativeCatalogue.Text.Basic

set_option autoImplicit false

namespace NativeCatalogue.Calendar

structure Date where
  year : Int
  month : Nat
  day : Nat
  deriving DecidableEq, Repr

def isLeap (year : Int) : Bool :=
  year % 4 = 0 && (year % 100 ≠ 0 || year % 400 = 0)

def daysInMonth (year : Int) (month : Nat) : Nat :=
  if month = 2 then (if isLeap year then 29 else 28)
  else if month = 4 || month = 6 || month = 9 || month = 11 then 30
  else 31

/-- The days from the first of March of the year zero to the start of a year, which starts in March. -/
def yearStart (year : Int) : Int :=
  365 * year + year.fdiv 4 - year.fdiv 100 + year.fdiv 400

def monthStart (month : Nat) : Nat :=
  (153 * month + 2) / 5

def epoch : Int := 719468

namespace Date

def dayNumber (d : Date) : Int :=
  let year := if d.month ≤ 2 then d.year - 1 else d.year
  let month := if d.month ≤ 2 then d.month + 9 else d.month - 3
  yearStart year + monthStart month + (d.day - 1 : Int) - epoch

def ofDayNumber (n : Int) : Date :=
  let days := n + epoch
  let era := days.fdiv 146097
  let dayOfEra := (days - era * 146097).toNat
  let yearOfEra := (dayOfEra - dayOfEra / 1460 + dayOfEra / 36524 - dayOfEra / 146096) / 365
  let dayOfYear := dayOfEra - (365 * yearOfEra + yearOfEra / 4 - yearOfEra / 100)
  let month := (5 * dayOfYear + 2) / 153
  let day := dayOfYear - monthStart month + 1
  let year := era * 400 + yearOfEra
  if month < 10 then ⟨year, month + 3, day⟩ else ⟨year + 1, month - 9, day⟩

def daysSince (start today : Date) : Int :=
  today.dayNumber - start.dayNumber

def isValid (d : Date) : Bool :=
  1 ≤ d.month && d.month ≤ 12 && 1 ≤ d.day && d.day ≤ daysInMonth d.year d.month

end Date

/-- A moment in universal time. Nanoseconds of a second and more belong to a leap second behind the
    second they are counted from. -/
structure Instant where
  seconds : Int
  nanoseconds : Nat
  deriving DecidableEq, Repr

def padded (width n : Nat) : List Char :=
  let digits := Nat.toDigits 10 n
  List.replicate (width - digits.length) '0' ++ digits

/-- The digits of a year: four, or a sign and at least four if the year is before the year zero or
    after 9999. -/
def yearText (year : Int) : List Char :=
  if 0 ≤ year && year ≤ 9999 then padded 4 year.toNat
  else (if year < 0 then '-' else '+') :: padded 4 year.natAbs

def Date.textChars (d : Date) : List Char :=
  yearText d.year ++ '-' :: padded 2 d.month ++ '-' :: padded 2 d.day

def Date.text (d : Date) : String :=
  .ofList d.textChars

def Instant.date (t : Instant) : Date :=
  .ofDayNumber (t.seconds.fdiv 86400)

/-- Date and time of day down to milliseconds, the rest cut off. -/
def Instant.textChars (t : Instant) : List Char :=
  let second := (t.seconds.fmod 86400).toNat
  let leap := t.nanoseconds / 1000000000
  let milliseconds := t.nanoseconds % 1000000000 / 1000000
  t.date.textChars ++
    'T' :: padded 2 (second / 3600) ++ ':' :: padded 2 (second / 60 % 60) ++
    ':' :: padded 2 (second % 60 + leap) ++ '.' :: padded 3 milliseconds ++ ['Z']

def Instant.text (t : Instant) : String :=
  .ofList t.textChars

/-- Reads the digits that a text starts with, of which there must be one; no more than a width, if
    there is one. -/
def number? (width : Option Nat) (cs : List Char) : Option (Nat × List Char) :=
  let run := cs.takeWhile Char.isDigit
  let digits := match width with
    | some n => run.take n
    | none => run
  if digits = [] then none else some (Binary.naturalOf digits, cs.drop digits.length)

def year? (cs : List Char) : Option (Int × List Char) :=
  match Text.trimStart cs with
  | '-' :: rest => (number? none rest).map fun (n, rest) => (-n, rest)
  | '+' :: rest => (number? none rest).map fun (n, rest) => (n, rest)
  | rest => (number? (some 4) rest).map fun (n, rest) => (n, rest)

def behindHyphen? (cs : List Char) : Option (Nat × List Char) :=
  match Text.trimStart cs with
  | '-' :: rest => number? (some 2) (Text.trimStart rest)
  | _ => none

def hasYearInRange (d : Date) : Bool :=
  -262143 ≤ d.year && d.year ≤ 262142

def Date.ofText? (s : String) : Option Date := do
  let (year, rest) ← year? s.toList
  let (month, rest) ← behindHyphen? rest
  let (day, rest) ← behindHyphen? rest
  let d : Date := ⟨year, month, day⟩
  if Text.trimStart rest = [] && d.isValid && hasYearInRange d then some d else none

end NativeCatalogue.Calendar
