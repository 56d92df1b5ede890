import ClosedSql.Calendar.Reading
import ClosedSql.Column.Datum
import ClosedSql.Error
import ClosedSql.Json.Value

/-!
# Binding values to column types

A parameter is converted to the type the server declares for it. The absence of a value
fits every type. Whatever cannot be converted exactly as its type demands is refused,
except that floats and decimals are rounded.
-/

namespace ClosedSql

open Number

namespace Value

/-- The truth value that a value stands for: the words for it by their first letter or in full, and
one and zero. -/
def toBool? : Value → Option Bool
  | bool b => some b
  | int n => if n = 0 then some false else if n = 1 then some true else none
  | text s =>
      let word := Text.lower s.toList
      if word = "true".toList ∨ word = "t".toList ∨ word = "1".toList then some true
      else if word = "false".toList ∨ word = "f".toList ∨ word = "0".toList then some false
      else none
  | null | float _ => none

/-- The integer a value stands for as a parameter, where truth values count as well. -/
def toIntParam? : Value → Option Int64
  | bool b => some (ofBit b)
  | value => value.toInt64?

def toDecimal? : Value → Option Decimal
  | int n => some (.ofInt64 n)
  | float x => Decimal.ofFloat? x
  | text s => Decimal.ofText? (Text.trim s.toList)
  | null | bool _ => none

def toUuid? : Value → Option Uuid
  | text s => Uuid.ofText? (Text.trim s.toList)
  | _ => none

def isNowWord (text : List Char) : Bool :=
  let word := Text.lower text
  word == "now()".toList || word == "now".toList || word == "current_timestamp".toList

/-- The instant a value stands for: seconds since the beginning of 1970, a word for the current
time, or a date with or without a time. -/
def toInstant? (now : Calendar.Instant) : Value → Option Calendar.Instant
  | int n =>
      let instant : Calendar.Instant := ⟨n.toInt, 0⟩
      if instant.inRange then some instant else none
  | text s =>
      let trimmed := Text.trim s.toList
      if isNowWord trimmed then some now else Calendar.readInstant? trimmed
  | _ => none

/-- A value as a document: a text that is one stands for it, any other text for itself. -/
def toDocument : Value → Json
  | text s =>
      match Json.ofText? s with
      | some json => json.canonical
      | none => .scalar (.string s)
  | value => value.toJson

end Value

/-- A decimal as a server keeps it: zero has no sign and no places. -/
def Number.Decimal.settled (d : Decimal) : Decimal :=
  if d.mantissa = 0 then .ofInt64 0 else d

namespace ColumnType

/-- The datum of a value that is not absent, if the value can be converted. Types that are not
known take the text of the value. -/
def datum? (now : Calendar.Instant) (type : ColumnType) (value : Value) : Option Datum :=
  match type with
  | .bool => value.toBool?.map .bool
  | .int2 | .int4 | .int8 =>
      (value.toIntParam?.map Int64.toInt).bind fun n =>
        if type.admits (.int n) then some (.int n) else none
  | .float4 => value.toFloat?.map fun x => .float x.toSingle
  | .float8 => value.toFloat?.map .float
  | .numeric => value.toDecimal?.map fun d => .decimal d.settled
  | .uuid => value.toUuid?.map .uuid
  | .timestamp | .timestamptz => (value.toInstant? now).map fun instant => .moment instant.toMicros
  | .date => (value.toInstant? now).map fun instant => .day instant.day
  | .json | .jsonb => some (.json value.toDocument)
  | _ => some (.text value.display)

/-- Convert a parameter; the absence of a value stays one. -/
def bind (now : Calendar.Instant) (type : ColumnType) (value : Value) :
    Except Failure (Option Datum) :=
  if value.isNull then .ok none
  else
    match type.datum? now value with
    | some datum => .ok (some datum)
    | none => .error (.cannotBind value type)

end ColumnType

end ClosedSql
