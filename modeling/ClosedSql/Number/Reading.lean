import ClosedSql.Number.Binary64
import ClosedSql.Text.Case

/-!
# Numbers as text

Readers of integers and of floating-point numbers. A reader takes the whole text or
refuses it: no blanks, no separators between digits, and only ASCII digits.
-/

namespace ClosedSql.Number

def digitValue (c : Char) : Nat :=
  c.toNat - '0'.toNat

def digitsValue (digits : List Char) : Nat :=
  digits.foldl (fun total c => 10 * total + digitValue c) 0

def isDigits (text : List Char) : Bool :=
  !text.isEmpty && text.all Char.isDigit

theorem isDigit_of_isDigits {text : List Char} (h : isDigits text = true) {c : Char}
    (hc : c ∈ text) : c.isDigit = true := by
  simp only [isDigits, Bool.and_eq_true, List.all_eq_true] at h
  exact h.2 c hc

def readSign : List Char → Bool × List Char
  | '-' :: rest => (true, rest)
  | '+' :: rest => (false, rest)
  | text => (false, text)

/-- An integer of 64 bits with an optional sign. -/
def readInt64? (text : List Char) : Option Int64 :=
  let (negative, digits) := readSign text
  if isDigits digits then
    int64? (Binary64.signed negative (digitsValue digits))
  else none

/-- A natural number of 64 bits with an optional plus sign. -/
def readUInt64? (text : List Char) : Option UInt64 :=
  let digits := match text with
    | '+' :: rest => rest
    | _ => text
  if isDigits digits && digitsValue digits < UInt64.size then
    some (UInt64.ofNat (digitsValue digits))
  else none

/-- Digits with at most one point among or around them, and the rest of the text: the digits,
how many of them follow the point, and the rest. At least one digit is needed. -/
def readPointed? (text : List Char) : Option (List Char × Nat × List Char) :=
  let whole := text.takeWhile Char.isDigit
  match text.dropWhile Char.isDigit with
  | '.' :: rest =>
      let fraction := rest.takeWhile Char.isDigit
      if whole.isEmpty && fraction.isEmpty then none
      else some (whole ++ fraction, fraction.length, rest.dropWhile Char.isDigit)
  | rest => if whole.isEmpty then none else some (whole, 0, rest)

/-- The exponent after a mark `e` or `E`, or zero where the text ends. -/
def readExponent? : List Char → Option Int
  | [] => some 0
  | c :: rest =>
      if c = 'e' ∨ c = 'E' then
        let (negative, digits) := readSign rest
        if isDigits digits then some (Binary64.signed negative (digitsValue digits)) else none
      else none

/-- A floating-point number: decimal digits with an optional point and exponent, or one of the
words for an infinity or for what is no number, in any case. A sign may stand before each. -/
def readFloat? (text : List Char) : Option Binary64 :=
  let (negative, unsigned) := readSign text
  match readPointed? unsigned with
  | some (digits, places, rest) =>
      (readExponent? rest).map fun exponent =>
        .ofDecimal negative (digitsValue digits) (exponent - places)
  | none =>
      if Text.sameIgnoringCase unsigned "inf".toList ||
          Text.sameIgnoringCase unsigned "infinity".toList then
        some (.infinite negative)
      else if Text.sameIgnoringCase unsigned "nan".toList then some .nan
      else none

end ClosedSql.Number
