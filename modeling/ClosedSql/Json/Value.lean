import ClosedSql.Json.Document
import ClosedSql.Record

/-!
# Values and records as JSON

A value is written as a scalar, a record as an object of its columns. In the other
direction there are two readings: a document may have to be a scalar, or an array or
object may stand for its own text.
-/

namespace ClosedSql

open Number

namespace Value

def toScalar : Value → Json.Scalar
  | null => .null
  | bool b => .bool b
  | int n => .int n.toInt
  | float x => if x.isFinite then .float x else .null
  | text s => .string s

/-- The value of a scalar. An integer beyond the range of values becomes a float. -/
def ofScalar : Json.Scalar → Value
  | .null => null
  | .bool b => bool b
  | .int n =>
      match int64? n with
      | some word => int word
      | none => float (.ofInt n)
  | .float x => float x
  | .string s => text s

def toJson (value : Value) : Json :=
  .scalar value.toScalar

/-- The value of a document. An array or an object stands for its text in canonical form. -/
def ofJson (json : Json) : Value :=
  match json.canonical with
  | .scalar value => ofScalar value
  | container => text container.text

def ofScalarJson? : Json → Option Value
  | .scalar value => some (ofScalar value)
  | _ => none

end Value

namespace Record

def toJson (record : Record) : Json :=
  .object (record.entries.map fun entry => (entry.1, entry.2.toJson))

/-- The record of an object whose members are all scalars. -/
def ofJson? : Json → Option Record
  | .object members =>
      (members.mapM fun member => (Value.ofScalarJson? member.2).map fun value =>
        (member.1, value)).map NameMap.ofList
  | _ => none

end Record

end ClosedSql
