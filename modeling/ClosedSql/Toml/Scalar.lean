import ClosedSql.Calendar.Reading
import ClosedSql.Toml.Quoted

/-!
# TOML numbers and moments

Digits may be grouped by single underscores between them. An integer is decimal, or has a
base of sixteen, eight or two, and fits in 64 bits; a decimal one has no zeros in front. A
float has a fraction, an exponent or both, or is one of the words for an infinity and for
what is no number. A moment is a date, a time of day or both, with an offset where there
are both.
-/

namespace ClosedSql.Toml

open Number

/-- Digits with single underscores between them: the digits alone, and the text after them. -/
def groupedRest (isDigit : Char → Bool) : List Char → List Char × List Char
  | [] => ([], [])
  | [c] => if isDigit c then ([c], []) else ([], [c])
  | c :: d :: rest =>
      if isDigit c then
        let found := groupedRest isDigit (d :: rest)
        (c :: found.1, found.2)
      else if c = '_' ∧ isDigit d then
        let found := groupedRest isDigit rest
        (d :: found.1, found.2)
      else ([], c :: d :: rest)

def grouped? (isDigit : Char → Bool) : List Char → Option (List Char × List Char)
  | [] => none
  | c :: rest => if isDigit c then some (groupedRest isDigit (c :: rest)) else none

def valueInBase (base : Nat) (digits : List Char) : Nat :=
  digits.foldl (fun total c => base * total + (Text.hexDigit? c).getD 0) 0

def isDigitOf (base : Nat) (c : Char) : Bool :=
  (Text.hexDigit? c).any (· < base)

/-- An integer of 64 bits in a given base, and the text after it. -/
def basedInteger? (base : Nat) (text : List Char) : Option (Int × List Char) :=
  (grouped? (isDigitOf base) text).bind fun found =>
    let n : Int := valueInBase base found.1
    if fitsBits 64 n then some (n, found.2) else none

def whole? : List Char → Option (List Char × List Char)
  | '0' :: rest => some (['0'], rest)
  | text => grouped? Char.isDigit text

def fraction? : List Char → Option (List Char × List Char)
  | '.' :: rest => grouped? Char.isDigit rest
  | text => some ([], text)

def exponent? (text : List Char) : Option (Int × List Char) :=
  match text with
  | 'e' :: rest | 'E' :: rest =>
      let (negative, digits) := readSign rest
      (grouped? Char.isDigit digits).map fun found =>
        (Binary64.signed negative (digitsValue found.1), found.2)
  | _ => some (0, text)

inductive Number
  | int (n : Int)
  | float (x : Binary64)

/-- A decimal number without its sign, and the text after it. A float that is too large is
refused where it is positive. -/
def decimal? (negative : Bool) (text : List Char) : Option (Number × List Char) := do
  let (whole, afterWhole) ← whole? text
  let (fraction, afterFraction) ← fraction? afterWhole
  let (exponent, rest) ← exponent? afterFraction
  if rest.length = afterWhole.length then
    let n := Binary64.signed negative (digitsValue whole)
    if fitsBits 64 n then some (.int n, rest) else none
  else
    let x := Binary64.ofDecimal negative (digitsValue (whole ++ fraction))
      (exponent - fraction.length)
    if x = .infinite false then none else some (.float x, rest)

def number? (text : List Char) : Option (Number × List Char) :=
  let based (base : Nat) (digits : List Char) : Option (Number × List Char) :=
    (basedInteger? base digits).map fun found => (.int found.1, found.2)
  match text with
  | '0' :: 'x' :: rest => based 16 rest
  | '0' :: 'o' :: rest => based 8 rest
  | '0' :: 'b' :: rest => based 2 rest
  | _ =>
      let (negative, unsigned) := readSign text
      match unsigned with
      | 'i' :: 'n' :: 'f' :: rest => some (.float (.infinite negative), rest)
      | 'n' :: 'a' :: 'n' :: rest => some (.float .nan, rest)
      | _ => decimal? negative unsigned

/-- The text after a number of exactly so many digits within a range. -/
def field? (width least most : Nat) (text : List Char) : Option (Nat × List Char) :=
  (Calendar.number? width width text).filter fun found => least ≤ found.1 && found.1 ≤ most

def afterDate? (text : List Char) : Option (List Char) := do
  let (year, text) ← Calendar.number? 4 4 text
  let text ← Calendar.after? '-' text
  let (month, text) ← field? 2 1 12 text
  let text ← Calendar.after? '-' text
  let (_, text) ← field? 2 1 (Calendar.Date.daysIn year month) text
  some text

def afterClock? (text : List Char) : Option (List Char) := do
  let (_, text) ← field? 2 0 23 text
  let text ← Calendar.after? ':' text
  let (_, text) ← field? 2 0 59 text
  some text

def afterSecondFraction (text : List Char) : List Char :=
  match text with
  | '.' :: rest =>
      if (rest.takeWhile Char.isDigit).isEmpty then text else rest.dropWhile Char.isDigit
  | _ => text

def afterTime? (text : List Char) : Option (List Char) := do
  let text ← afterClock? text
  let text ← Calendar.after? ':' text
  let (_, text) ← field? 2 0 60 text
  some (afterSecondFraction text)

def afterOffset (text : List Char) : List Char :=
  match text with
  | 'Z' :: rest | 'z' :: rest => rest
  | '+' :: rest | '-' :: rest => (afterClock? rest).getD text
  | _ => text

def afterDateTime (text : List Char) : List Char :=
  match text with
  | 'T' :: rest | 't' :: rest | ' ' :: rest =>
      match afterTime? rest with
      | some tail => afterOffset tail
      | none => text
  | _ => text

def moment? (text : List Char) : Option (String × List Char) :=
  (((afterDate? text).map afterDateTime).or (afterTime? text)).map fun rest =>
    (String.ofList (text.take (text.length - rest.length)), rest)

end ClosedSql.Toml
