import ClosedSql.Number.Binary64
import ClosedSql.Number.Reading

/-!
# Numbers in JSON

A number without point and exponent is an integer where 64 bits hold it, and every other
number is a float. The float is made from the leading digits that fit in 64 bits and a
power of ten, with one rounding for each factor: close to the decimal that was written,
but not always the nearest float. A number beyond the largest float is refused.
-/

namespace ClosedSql.Json

open Number

/-- A number as it is read: the sign of an integer is its own, and minus zero is a float. -/
inductive Numeral
  | int (n : Int)
  | float (x : Binary64)
deriving DecidableEq

def significandBound : Nat :=
  UInt64.size

/-- Take digits onto a number while the number stays below the bound: the number, and the text
from the first digit that does not fit or the first character that is no digit. -/
def takeSignificand (total : Nat) : List Char → Nat × List Char
  | [] => (total, [])
  | c :: rest =>
      let next := 10 * total + digitValue c
      if c.isDigit ∧ next < significandBound then takeSignificand next rest else (total, c :: rest)

def powerUnits (exponent : Nat) : Nat :=
  nearestUnits 52 (tenTo exponent * one) 1

def largestPower : Nat :=
  308

def divideByPower (units exponent : Nat) : Nat :=
  nearestUnits 52 (units * one) (powerUnits exponent)

/-- A float of so many units times a power of ten, in units. Zero stays zero whatever the power,
and dividing twice by the largest power leaves nothing of a significand. -/
def scale? (units : Nat) (exponent : Int) : Option Nat :=
  if units = 0 then some 0
  else if largestPower < exponent then none
  else if 0 ≤ exponent then
    let product := nearestUnits 52 (units * powerUnits exponent.toNat) one
    if product < infinityUnits then some product else none
  else if -largestPower ≤ exponent then some (divideByPower units (-exponent).toNat)
  else if -2 * largestPower ≤ exponent then
    some (divideByPower (divideByPower units largestPower) (-exponent - largestPower).toNat)
  else some 0

def float? (negative : Bool) (significand : Nat) (exponent : Int) : Option Numeral :=
  (scale? (nearestUnits 52 (significand * one) 1) exponent).map fun units =>
    .float (.ofUnits negative units 1)

def integer (negative : Bool) (significand : Nat) : Numeral :=
  if negative then
    if significand = 0 ∨ twoTo 63 < significand then .float (.ofRatio true significand 1)
    else .int (-significand)
  else .int significand

def exponent? (text : List Char) : Option (Int × List Char) :=
  let (negative, rest) := readSign text
  let digits := rest.takeWhile Char.isDigit
  if digits.isEmpty then none
  else some (Binary64.signed negative (digitsValue digits), rest.dropWhile Char.isDigit)

/-- The end of a float: an exponent, if there is a mark for one. -/
def finishFloat? (negative : Bool) (significand : Nat) (exponent : Int) (text : List Char) :
    Option (Numeral × List Char) :=
  match text with
  | 'e' :: rest | 'E' :: rest => do
      let (power, rest) ← exponent? rest
      let float ← float? negative significand (exponent + power)
      some (float, rest)
  | _ => (float? negative significand exponent).map fun float => (float, text)

/-- The part of a number after its integer digits, of which the last `skipped` did not fit. -/
def finishNumeral? (negative : Bool) (significand skipped : Nat) (text : List Char) :
    Option (Numeral × List Char) :=
  match text with
  | '.' :: rest =>
      let (longer, tail) := takeSignificand significand rest
      let places := rest.length - tail.length
      if (rest.takeWhile Char.isDigit).isEmpty then none
      else finishFloat? negative longer (skipped - places) (tail.dropWhile Char.isDigit)
  | 'e' :: _ | 'E' :: _ => finishFloat? negative significand skipped text
  | _ =>
      if skipped = 0 then some (integer negative significand, text)
      else finishFloat? negative significand skipped text

/-- A number without its sign, and the text after it. A zero in front ends the integer digits. -/
def numeral? (negative : Bool) (text : List Char) : Option (Numeral × List Char) :=
  match text with
  | [] => none
  | c :: rest =>
      if c = '0' then finishNumeral? negative 0 0 rest
      else if c.isDigit then
        let taken := takeSignificand (digitValue c) rest
        finishNumeral? negative taken.1 (taken.2.takeWhile Char.isDigit).length
          (taken.2.dropWhile Char.isDigit)
      else none

theorem length_takeSignificand_le (total : Nat) (text : List Char) :
    (takeSignificand total text).2.length ≤ text.length := by
  induction text generalizing total with
  | nil => exact Nat.le_refl _
  | cons c rest ih =>
      rw [takeSignificand]
      split
      · exact Nat.le_succ_of_le (ih _)
      · exact Nat.le_refl _

theorem length_exponent? {text : List Char} {found : Int × List Char}
    (h : exponent? text = some found) : found.2.length ≤ text.length := by
  have hdrop := (List.dropWhile_sublist Char.isDigit (l := (readSign text).2)).length_le
  have hsign : (readSign text).2.length ≤ text.length := by
    rw [readSign.eq_def]
    split <;> simp
  rw [exponent?] at h
  simp only at h
  split at h
  · cases h
  · simp only [Option.some.injEq] at h
    subst h
    exact Nat.le_trans hdrop hsign

theorem length_finishFloat? {negative : Bool} {significand : Nat} {exponent : Int}
    {text : List Char} {found : Numeral × List Char}
    (h : finishFloat? negative significand exponent text = some found) :
    found.2.length ≤ text.length := by
  rw [finishFloat?.eq_def] at h
  split at h
  case h_3 =>
    obtain ⟨_, _, rfl⟩ := Option.map_eq_some_iff.1 h
    exact Nat.le_refl _
  all_goals
    obtain ⟨power, hpower, h⟩ := Option.bind_eq_some_iff.1 h
    obtain ⟨_, _, h⟩ := Option.bind_eq_some_iff.1 h
    simp only [Option.some.injEq] at h
    subst h
    exact Nat.le_succ_of_le (length_exponent? hpower)

theorem length_finishNumeral? {negative : Bool} {significand skipped : Nat} {text : List Char}
    {found : Numeral × List Char}
    (h : finishNumeral? negative significand skipped text = some found) :
    found.2.length ≤ text.length := by
  rw [finishNumeral?.eq_def] at h
  split at h
  case h_1 rest =>
    have htake := length_takeSignificand_le significand rest
    have hdrop := (List.dropWhile_sublist Char.isDigit
      (l := (takeSignificand significand rest).2)).length_le
    simp only at h
    split at h
    · cases h
    · have hfinish := length_finishFloat? h
      simp only [List.length_cons]
      omega
  case h_4 =>
    split at h
    · simp only [Option.some.injEq] at h
      subst h
      exact Nat.le_refl _
    · exact length_finishFloat? h
  all_goals exact length_finishFloat? h

/-- A number takes a character of the text at least. -/
theorem length_numeral? {negative : Bool} {text : List Char} {found : Numeral × List Char}
    (h : numeral? negative text = some found) : found.2.length < text.length := by
  cases text with
  | nil => cases h
  | cons c rest =>
      rw [numeral?] at h
      split at h
      · exact Nat.lt_succ_of_le (length_finishNumeral? h)
      · split at h
        · have htake := length_takeSignificand_le (digitValue c) rest
          have hdrop := (List.dropWhile_sublist Char.isDigit
            (l := (takeSignificand (digitValue c) rest).2)).length_le
          have hfinish := length_finishNumeral? h
          simp only [List.length_cons]
          omega
        · cases h

end ClosedSql.Json
