import ClosedSql.Number.Reading

/-!
# Dates

Days of the Gregorian calendar, extended to all years, and their numbers counted from the
first of January 1970. The count is easiest with years that begin in March, so that the
leap day comes last.
-/

namespace ClosedSql.Calendar

structure Date where
  year : Int
  month : Nat
  day : Nat
deriving DecidableEq

/-- A decimal number with zeros in front up to a width. -/
def padded (width n : Nat) : List Char :=
  let digits := Nat.toDigits 10 n
  List.replicate (width - digits.length) '0' ++ digits

namespace Date

def isLeap (year : Int) : Bool :=
  year % 4 = 0 && (year % 100 ≠ 0 || year % 400 = 0)

def daysIn (year : Int) (month : Nat) : Nat :=
  match month with
  | 2 => if isLeap year then 29 else 28
  | 4 | 6 | 9 | 11 => 30
  | _ => 31

/-- The first and the last year with dates. -/
def firstYear : Int :=
  -262143

def lastYear : Int :=
  262142

def make? (year : Int) (month day : Nat) : Option Date :=
  if firstYear ≤ year ∧ year ≤ lastYear ∧ 1 ≤ month ∧ month ≤ 12 ∧ 1 ≤ day ∧
      day ≤ daysIn year month then
    some ⟨year, month, day⟩
  else none

/-- Days from the first of March of the year zero to the first of March of a year. -/
def daysBefore (year : Int) : Int :=
  365 * year + year / 4 - year / 100 + year / 400

/-- Days from the first of March to the first of a month, March being month zero. -/
def daysToMonth (month : Int) : Int :=
  (153 * month + 2) / 5

/-- The number of the first of March of the year zero, counted backward from 1970. -/
def epoch : Int :=
  719468

/-- The number of a date; the first of January 1970 is day zero. -/
def toDay (date : Date) : Int :=
  let year := if date.month ≤ 2 then date.year - 1 else date.year
  let month : Int := if date.month ≤ 2 then date.month + 9 else date.month - 3
  daysBefore year + daysToMonth month + date.day - 1 - epoch

def ofDay (day : Int) : Date :=
  let days := day + epoch
  let era := days / 146097
  let dayOfEra := days % 146097
  let yearOfEra :=
    (dayOfEra - dayOfEra / 1460 + dayOfEra / 36524 - dayOfEra / 146096) / 365
  let dayOfYear := dayOfEra - daysBefore yearOfEra
  let month := (5 * dayOfYear + 2) / 153
  let inMonth := (dayOfYear - daysToMonth month + 1).toNat
  let year := yearOfEra + 400 * era
  if month < 10 then ⟨year, (month + 3).toNat, inMonth⟩
  else ⟨year + 1, (month - 9).toNat, inMonth⟩

def inRange (date : Date) : Bool :=
  firstYear ≤ date.year && date.year ≤ lastYear

/-- Four digits, or a sign and at least four outside the years from zero to 9999. -/
def yearText (year : Int) : List Char :=
  if 0 ≤ year ∧ year ≤ 9999 then padded 4 year.natAbs
  else (if year < 0 then '-' else '+') :: padded 4 year.natAbs

def text (date : Date) : List Char :=
  yearText date.year ++ '-' :: padded 2 date.month ++ '-' :: padded 2 date.day

end Date

end ClosedSql.Calendar
