import ClosedSql.Calendar.Instant
import ClosedSql.Column.Kind
import ClosedSql.Json.Document
import ClosedSql.Number.Decimal
import ClosedSql.Text.Uuid

/-!
# Data of columns

What a server stores and sends is typed more finely than a value. A datum belongs to the
column types whose range it lies in.
-/

namespace ClosedSql

open Number

inductive Datum
  | bool (b : Bool)
  | int (n : Int)
  | float (x : Binary64)
  | decimal (d : Decimal)
  | uuid (id : Uuid)
  /-- Microseconds since the beginning of 1970. -/
  | moment (micros : Int)
  /-- Days since the first of January 1970. -/
  | day (day : Int)
  | json (json : Json)
  | text (s : String)

/-- What a server sends for one column of one row. -/
inductive Cell
  | null
  | datum (datum : Datum)
  /-- Bytes that may or may not be those of a datum. -/
  | bytes (bytes : List UInt8)

namespace ColumnType

def intBits? : ColumnType → Option Nat
  | int2 => some 16
  | int4 => some 32
  | int8 => some 64
  | _ => none

/-- Whether a datum belongs to a type. -/
def admits (type : ColumnType) : Datum → Bool
  | .bool _ => type == .bool
  | .int n => type.intBits?.any fun bits => fitsBits bits n
  | .float x => type == .float8 || (type == .float4 && x.toSingle == x)
  | .decimal _ => type == .numeric
  | .uuid _ => type == .uuid
  | .moment micros =>
      (type == .timestamp || type == .timestamptz) && (Calendar.Instant.ofMicros micros).inRange
  | .day day => type == .date && (Calendar.Date.ofDay day).inRange
  | .json _ => type == .json || type == .jsonb
  | .text _ => type.isText

end ColumnType

end ClosedSql
