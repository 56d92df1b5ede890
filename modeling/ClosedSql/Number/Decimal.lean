import ClosedSql.Number.Reading

/-!
# Decimals

A decimal is an integer of at most 96 bits over a power of ten of at most twenty-eight, with
a sign. The number of its places is kept: `1.50` and `1.5` are written differently and
are the same number.
-/

namespace ClosedSql.Number

def mantissaBound : Nat :=
  twoTo 96

def maxScale : Nat :=
  28

structure Decimal where
  negative : Bool
  mantissa : Nat
  scale : Nat
  mantissa_lt : mantissa < mantissaBound
  scale_le : scale ≤ maxScale
deriving DecidableEq

namespace Decimal

def make? (negative : Bool) (mantissa scale : Nat) : Option Decimal :=
  if h : mantissa < mantissaBound ∧ scale ≤ maxScale then
    some ⟨negative, mantissa, scale, h.1, h.2⟩
  else none

/-- The fraction as a decimal with at most `scale` places, and as many of them as there is room
for. -/
def shortened? (negative : Bool) (num den : Nat) : Nat → Option Decimal
  | 0 => make? negative (roundHalfEven num den) 0
  | scale + 1 =>
      (make? negative (roundHalfEven (num * tenTo (scale + 1)) den) (scale + 1)).or
        (shortened? negative num den scale)

def signedMantissa (d : Decimal) : Int :=
  Binary64.signed d.negative d.mantissa

def sameNumber (a b : Decimal) : Bool :=
  a.signedMantissa * tenTo b.scale == b.signedMantissa * tenTo a.scale

def ofInt64 (n : Int64) : Decimal where
  negative := n.toInt < 0
  mantissa := n.toInt.natAbs
  scale := 0
  mantissa_lt := by
    have hlt := n.toInt_lt
    have hle := n.le_toInt
    have hbound : mantissaBound = 79228162514264337593543950336 := by decide
    omega
  scale_le := Nat.zero_le _

/-- The decimal digits with a point before the last `scale` of them, and one digit before the
point at least. -/
def text (d : Decimal) : List Char :=
  let digits := Nat.toDigits 10 d.mantissa
  let padded := List.replicate (d.scale + 1 - digits.length) '0' ++ digits
  let whole := padded.take (padded.length - d.scale)
  let fraction := padded.drop (padded.length - d.scale)
  (if d.negative then ['-'] else []) ++ whole ++ if d.scale = 0 then [] else '.' :: fraction

/-- A mantissa and its scale when no more digits fit: the next character, if it is a digit,
decides whether to round up. When rounding leaves the range, the last digit goes too. -/
def round? (mantissa scale : Nat) (next : Char) : Option (Nat × Nat) :=
  if next.isDigit then
    if digitValue next < 5 then some (mantissa, scale)
    else if mantissa + 1 < mantissaBound then some (mantissa + 1, scale)
    else if scale = 0 then none
    else some ((mantissa + 5) / 10, scale - 1)
  else if next = '_' ∨ next = '.' then some (mantissa, scale)
  else none

/-- Take digits onto a mantissa, with one point among or around them and underscores anywhere
after the first. `places` counts the digits after the point, once there is one. What does not
fit is rounded after the point, where the rest is no longer looked at, and refused before it. -/
def takeDigits? (seen : Bool) (mantissa : Nat) (places : Option Nat) :
    List Char → Option (Nat × Nat)
  | [] => if seen then some (mantissa, places.getD 0) else none
  | c :: rest =>
      let next := 10 * mantissa + digitValue c
      if places = some maxScale then round? mantissa maxScale c
      else if c.isDigit then
        if next < mantissaBound then takeDigits? true next (places.map (· + 1)) rest
        else places.bind fun scale => round? mantissa scale c
      else if c = '.' ∧ places = none then takeDigits? seen mantissa (some 0) rest
      else if c = '_' ∧ seen then takeDigits? seen mantissa places rest
      else none

def ofPlainText? (text : List Char) : Option Decimal :=
  let (negative, digits) := readSign text
  (takeDigits? false 0 none digits).bind fun found => make? negative found.1 found.2

def exponentSize? (text : List Char) : Option Nat :=
  let digits := match text with
    | '+' :: rest => rest
    | _ => text
  if isDigits digits then some (digitsValue digits) else none

/-- The decimal times ten to the minus `exponent`. -/
def shiftDown? (d : Decimal) (exponent : Nat) : Option Decimal :=
  make? d.negative d.mantissa (d.scale + exponent)

/-- The decimal times ten to the `exponent`, by leaving out places as long as there are any. -/
def shiftUp? (d : Decimal) (exponent : Nat) : Option Decimal :=
  if exponent ≤ d.scale then make? d.negative d.mantissa (d.scale - exponent)
  else if exponent ≤ maxScale then
    make? d.negative (d.mantissa * tenTo (exponent - d.scale)) 0
  else none

def ofText? (text : List Char) : Option Decimal :=
  let isMark (c : Char) : Bool := c == 'e' || c == 'E'
  match text.dropWhile fun c => !isMark c with
  | [] => ofPlainText? text
  | _ :: exponent => do
      let d ← ofPlainText? (text.takeWhile fun c => !isMark c)
      match exponent with
      | '-' :: size => d.shiftDown? (← exponentSize? size)
      | size => d.shiftUp? (← exponentSize? size)

/-- Make a mantissa over so many powers of two one over powers of ten: each power of two is
cancelled, or becomes a power of ten by a factor of five while that fits. The exponent is that of
ten. -/
def absorbHalves : Nat → Nat → Int → Nat × Int
  | 0, mantissa, exponent => (mantissa, exponent)
  | count + 1, mantissa, exponent =>
      if mantissa % 2 = 1 ∧ 5 * mantissa < mantissaBound then
        absorbHalves count (5 * mantissa) exponent
      else absorbHalves count (mantissa / 2) (exponent + 1)

/-- Multiply a mantissa by so many powers of two, or divide by five in exchange for a power of
ten where doubling does not fit. -/
def absorbDoubles : Nat → Nat → Int → Nat × Int
  | 0, mantissa, exponent => (mantissa, exponent)
  | count + 1, mantissa, exponent =>
      if 2 * mantissa < mantissaBound then absorbDoubles count (2 * mantissa) (exponent - 1)
      else absorbDoubles count (mantissa / 5) exponent

/-- A tenth of a mantissa, a half rounded upward. -/
def tenth (mantissa : Nat) : Nat :=
  mantissa / 10 + if 5 ≤ mantissa % 10 then 1 else 0

/-- Leave out so many places one by one. What falls below one is zero. -/
def dropPlaces : Nat → Nat → Nat
  | 0, mantissa => mantissa
  | count + 1, mantissa => if mantissa < 10 then 0 else dropPlaces count (tenth mantissa)

/-- Leave out places while the mantissa has more than fifty-two bits. -/
def dropExcess : Nat → Nat → Nat × Nat
  | 0, mantissa => (mantissa, 0)
  | scale + 1, mantissa =>
      if twoTo 52 ≤ mantissa then dropExcess scale (tenth mantissa) else (mantissa, scale + 1)

def dropZeros : Nat → Nat → Nat × Nat
  | 0, mantissa => (mantissa, 0)
  | scale + 1, mantissa =>
      if mantissa % 10 = 0 then dropZeros scale (mantissa / 10) else (mantissa, scale + 1)

/-- The odd part and the power of two of a positive rank: the number is the first times two to
the second. -/
def binaryParts (rank : Nat) : Nat × Int :=
  if rank < twoTo 52 then (rank, -1074)
  else (twoTo 52 + rank % twoTo 52, (rank / twoTo 52 : Nat) - 1075)

/-- A mantissa and a power of ten as a decimal with as many digits as a float is sure of. -/
def ofScaled? (negative : Bool) (mantissa : Nat) (exponent : Int) : Option Decimal :=
  if 0 < exponent then make? negative (mantissa * tenTo exponent.toNat) 0
  else
    let places := (-exponent).toNat
    let kept := dropPlaces (places - maxScale) mantissa
    let trimmed := dropExcess (min places maxScale) kept
    let stripped := dropZeros trimmed.2 trimmed.1
    make? negative stripped.1 stripped.2

/-- The decimal that stands for a float: sixteen digits or so, without zeros at the end. Floats
that are not finite or too large have none. -/
def ofFloat? : Binary64 → Option Decimal
  | .finite negative rank =>
      if rank.val = 0 then make? negative 0 0
      else
        let (mantissa, power) := binaryParts rank
        let scaled :=
          if power < 0 then absorbHalves (-power).toNat mantissa power
          else absorbDoubles power.toNat mantissa power
        ofScaled? negative scaled.1 scaled.2
  | _ => none

/-- The float of a decimal with places, in units. The fraction is added to the whole part, and the
sum is rounded to as many places as the decimal has; each step has its own rounding. -/
def fractionUnits (mantissa scale : Nat) : Nat :=
  let power := nearestUnits 52 (tenTo scale * one) 1
  let whole := nearestUnits 52 (mantissa / tenTo scale * one) 1
  let rest := nearestUnits 52 (mantissa % tenTo scale * one) 1
  if rest = 0 then whole
  else
    let sum := nearestUnits 52 (whole + nearestUnits 52 (rest * one) power) 1
    let product := nearestUnits 52 (sum * power) one
    nearestUnits 52 (roundHalfUp product one * one * one) power

def toFloat (d : Decimal) : Binary64 :=
  if d.scale = 0 then .ofRatio d.negative d.mantissa 1
  else .ofUnits d.negative (fractionUnits d.mantissa d.scale) 1

end Decimal

end ClosedSql.Number
