import ClosedSql.Calendar.Instant
import ClosedSql.Text.Blank

/-!
# Dates and times as text

An instant is read from one of four forms, tried in turn: a full timestamp with an offset,
date and time with a blank or a letter between them, and a date alone, which stands for
its midnight. The last three are lenient: numbers may have fewer digits and blanks in
front of them, and a year may have a sign and any number of digits.
-/

namespace ClosedSql.Calendar

open Number

def number? (least most : Nat) (text : List Char) : Option (Nat × List Char) :=
  let digits := (text.take most).takeWhile Char.isDigit
  if digits.length < least then none else some (digitsValue digits, text.drop digits.length)

def after? (expected : Char) : List Char → Option (List Char)
  | c :: rest => if c = expected then some rest else none
  | [] => none

/-- Nanoseconds from the digits after a point; those beyond the ninth do not count. -/
def fraction? (text : List Char) : Option (Nat × List Char) :=
  let digits := text.takeWhile Char.isDigit
  if digits.isEmpty then none
  else
    let kept := digits.take 9
    some (digitsValue kept * tenTo (9 - kept.length), text.drop digits.length)

def optionalFraction? : List Char → Option (Nat × List Char)
  | '.' :: rest => fraction? rest
  | text => some (0, text)

/-- An hour, minute and second; sixty seconds are a leap second. -/
def secondsOfDay? (hour minute second : Nat) : Option Nat :=
  if hour < 24 ∧ minute < 60 ∧ second ≤ 60 then
    some (hour * 3600 + minute * 60 + min second 59)
  else none

/-- The instant of a date and time at an offset from universal time. -/
def instant? (date : Date) (hour minute second nanos : Nat) (offset : Int) : Option Instant :=
  (secondsOfDay? hour minute second).map fun time =>
    ⟨date.toDay * Instant.daySeconds + time - offset,
      nanos + if second = 60 then 1000000000 else 0⟩

/-- An offset of hours and minutes, in seconds, below a whole day; it ends the text. -/
def clockOffset? (text : List Char) : Option Nat := do
  let (hours, text) ← number? 2 2 text
  let text ← after? ':' text
  let (minutes, text) ← number? 2 2 text
  if text.isEmpty ∧ hours < 24 ∧ minutes < 60 then some (hours * 3600 + minutes * 60) else none

/-- The offset at the end of a full timestamp. Besides the hyphen the minus sign proper is
accepted. -/
def offset? : List Char → Option Int
  | ['Z'] | ['z'] => some 0
  | '+' :: rest => (clockOffset? rest).map fun seconds => (seconds : Int)
  | c :: rest =>
      if c = '-' ∨ c = '\u2212' then (clockOffset? rest).map fun seconds => -(seconds : Int)
      else none
  | [] => none

/-- A full timestamp: every number has its full width and the offset is given. -/
def readStamp? (text : List Char) : Option Instant := do
  let (year, text) ← number? 4 4 text
  let text ← after? '-' text
  let (month, text) ← number? 2 2 text
  let text ← after? '-' text
  let (day, text) ← number? 2 2 text
  let text ← match text with
    | c :: rest => if c = 'T' ∨ c = 't' ∨ c = ' ' then some rest else none
    | [] => none
  let (hour, text) ← number? 2 2 text
  let text ← after? ':' text
  let (minute, text) ← number? 2 2 text
  let text ← after? ':' text
  let (second, text) ← number? 2 2 text
  let (nanos, text) ← optionalFraction? text
  let offset ← offset? text
  let date ← Date.make? year month day
  instant? date hour minute second nanos offset

/-- A year: up to four digits, or a sign and any number of them. -/
def year? (text : List Char) : Option (Int × List Char) :=
  match Text.trimStart text with
  | '-' :: rest => (number? 1 rest.length rest).map fun found => (-(found.1 : Int), found.2)
  | '+' :: rest => (number? 1 rest.length rest).map fun found => ((found.1 : Int), found.2)
  | text => (number? 1 4 text).map fun found => ((found.1 : Int), found.2)

/-- One or two digits, with blanks in front. -/
def short? (text : List Char) : Option (Nat × List Char) :=
  number? 1 2 (Text.trimStart text)

def lenientDate? (text : List Char) : Option (Date × List Char) := do
  let (year, text) ← year? text
  let text ← after? '-' text
  let (month, text) ← short? text
  let text ← after? '-' text
  let (day, text) ← short? text
  let date ← Date.make? year month day
  some (date, text)

/-- A time of day in the lenient form, which ends the text, on a given date. -/
def lenientTime? (date : Date) (text : List Char) : Option Instant := do
  let (hour, text) ← short? text
  let text ← after? ':' text
  let (minute, text) ← short? text
  let text ← after? ':' text
  let (second, text) ← short? text
  let (nanos, text) ← optionalFraction? text
  if text.isEmpty then instant? date hour minute second nanos 0 else none

def readSpaced? (text : List Char) : Option Instant := do
  let (date, text) ← lenientDate? text
  lenientTime? date (Text.trimStart text)

def readLettered? (text : List Char) : Option Instant := do
  let (date, text) ← lenientDate? text
  let text ← after? 'T' text
  lenientTime? date text

def readDate? (text : List Char) : Option Instant := do
  let (date, text) ← lenientDate? text
  if text.isEmpty then instant? date 0 0 0 0 0 else none

/-- The first reading that succeeds. -/
def readInstant? (text : List Char) : Option Instant :=
  (readStamp? text).or ((readSpaced? text).or ((readLettered? text).or (readDate? text)))

end ClosedSql.Calendar
