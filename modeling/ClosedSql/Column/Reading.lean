import ClosedSql.Column.Datum
import ClosedSql.Json.Value

/-!
# Reading columns

A cell of a row becomes a value by the type of its column. Types without a value of their
own are read as text, in a form that binding takes back.
-/

namespace ClosedSql

open Number

/-- The number that bytes spell, the most significant first. -/
def ofBytes (bytes : List UInt8) : Nat :=
  bytes.foldl (fun total byte => 256 * total + byte.toNat) 0

/-- The number that bytes spell with a sign in the first bit. -/
def ofSignedBytes (bytes : List UInt8) : Int :=
  let n := ofBytes bytes
  if 2 * n < twoTo (8 * bytes.length) then n else (n : Int) - twoTo (8 * bytes.length)

def textOfBytes? (bytes : List UInt8) : Option String :=
  String.fromUTF8? ⟨bytes.toArray⟩

def jsonOfBytes? (bytes : List UInt8) : Option Json :=
  ((textOfBytes? bytes).bind Json.ofText?).map Json.canonical

def pairsOf : List UInt8 → List (List UInt8)
  | high :: low :: rest => [high, low] :: pairsOf rest
  | _ => []

/-- A number as a server sends it: groups of four digits, and the places it is to be shown with.
The first group counts as many powers of ten thousand as the weight says, each further group one
power less. -/
structure Numeric where
  negative : Bool
  weight : Int
  places : Nat
  groups : List Nat

namespace Numeric

/-- The number that bytes spell: how many groups there are, the weight, the sign, the places, and
the groups. -/
def ofBytes? (bytes : List UInt8) : Option Numeric :=
  match pairsOf bytes with
  | count :: weight :: sign :: places :: groups =>
      let digits := (groups.take (ofBytes count)).map ofBytes
      let negative := ofBytes sign = 0x4000
      if digits.length < ofBytes count ∨ (ofBytes sign ≠ 0 ∧ ¬negative) then none
      else some ⟨negative, ofSignedBytes weight, ofBytes places, digits⟩
  | _ => none

/-- The integer that all groups spell together. -/
def size (n : Numeric) : Nat :=
  n.groups.foldl (fun total group => 10000 * total + group) 0

/-- The power of ten thousand that the last group counts. -/
def exponent (n : Numeric) : Int :=
  n.weight + 1 - n.groups.length

/-- The number without its sign, times the denominator. -/
def numerator (n : Numeric) : Nat :=
  n.size * tenTo (4 * n.exponent.toNat)

def denominator (n : Numeric) : Nat :=
  tenTo (4 * (-n.exponent).toNat)

/-- The decimal that a number is read as. It has the places of the number, or as many as a decimal
can have, the last of them rounded; where there is no room for all of its digits it has as many
places as there is room for. -/
def decimal? (n : Numeric) : Option Decimal :=
  let scale := min n.places maxScale
  (Decimal.make? n.negative (roundHalfUp (n.numerator * tenTo scale) n.denominator) scale).or
    (Decimal.shortened? n.negative n.numerator n.denominator scale)

end Numeric

def millenniumDay : Int :=
  Calendar.Instant.millennium / Calendar.Instant.daySeconds

namespace ColumnType

/-- The datum that bytes spell, if they are as many and such as the type demands. Times and dates
are counted from the year 2000. -/
def datumOfBytes? (type : ColumnType) (bytes : List UInt8) : Option Datum :=
  let exactly (count : Nat) (datum : Datum) : Option Datum :=
    if bytes.length = count then some datum else none
  match type with
  | .bool => exactly 1 (.bool (ofBytes bytes ≠ 0))
  | .int2 => exactly 2 (.int (ofSignedBytes bytes))
  | .int4 => exactly 4 (.int (ofSignedBytes bytes))
  | .int8 => exactly 8 (.int (ofSignedBytes bytes))
  | .float4 => exactly 4 (.float (.ofSingleBits (UInt32.ofNat (ofBytes bytes))))
  | .float8 => exactly 8 (.float (.ofBits (UInt64.ofNat (ofBytes bytes))))
  | .numeric => ((Numeric.ofBytes? bytes).bind Numeric.decimal?).map .decimal
  | .uuid => exactly 16 (.uuid ⟨.ofNat 128 (ofBytes bytes)⟩)
  | .timestamp | .timestamptz =>
      exactly 8 (.moment (ofSignedBytes bytes + Calendar.Instant.millennium * 1000000))
  | .date => exactly 4 (.day (ofSignedBytes bytes + millenniumDay))
  | .json => (jsonOfBytes? bytes).map .json
  | .jsonb =>
      match bytes with
      | 1 :: rest => (jsonOfBytes? rest).map .json
      | _ => none
  | type => if type.isText then (textOfBytes? bytes).map .text else none

end ColumnType

/-- The value of a decimal: the float that stands for it, if the same decimal stands for that float,
and otherwise its text. -/
def Value.ofDecimal (d : Decimal) : Value :=
  if (Decimal.ofFloat? d.toFloat).any d.sameNumber then .float d.toFloat
  else .text (String.ofList d.text)

/-- The text of a moment, with the offset of universal time where the type has one. -/
def momentText (type : ColumnType) (micros : Int) : List Char :=
  (Calendar.Instant.ofMicros micros).text ++ if type = .timestamptz then "+00:00".toList else []

namespace ColumnType

def valueOf (type : ColumnType) : Datum → Value
  | .bool b => .bool b
  | .int n => .int (Int64.ofInt n)
  | .float x => .float x
  | .decimal d => .ofDecimal d
  | .uuid id => .text (String.ofList id.text)
  | .moment micros => .text (String.ofList (momentText type micros))
  | .day day => .text (String.ofList (Calendar.Date.ofDay day).text)
  | .json document => .ofJson document
  | .text s => .text s

def readDatum? (type : ColumnType) (datum : Datum) : Option Value :=
  if type.admits datum then some (type.valueOf datum) else none

/-- The value of a cell. A type that is not known cannot even be read where there is no value. -/
def read? (type : ColumnType) (cell : Cell) : Option Value :=
  if type.isForeign then none
  else
    match cell with
    | .null => some .null
    | .datum datum => type.readDatum? datum
    | .bytes bytes => (type.datumOfBytes? bytes).bind type.readDatum?

end ColumnType

end ClosedSql
