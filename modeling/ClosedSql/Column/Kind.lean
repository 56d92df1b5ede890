/-!
# Column types

The types a server declares for parameters and columns.
-/

namespace ClosedSql

inductive ColumnType
  | bool
  | int2
  | int4
  | int8
  | float4
  | float8
  | numeric
  | uuid
  | timestamp
  | timestamptz
  | date
  | json
  | jsonb
  | text
  | varchar
  | bpchar
  | name
  | unknown
  | bytea
  | interval
  | time
  | oid
  | inet
  | money
deriving DecidableEq

namespace ColumnType

def label : ColumnType → String
  | bool => "bool"
  | int2 => "int2"
  | int4 => "int4"
  | int8 => "int8"
  | float4 => "float4"
  | float8 => "float8"
  | numeric => "numeric"
  | uuid => "uuid"
  | timestamp => "timestamp"
  | timestamptz => "timestamptz"
  | date => "date"
  | json => "json"
  | jsonb => "jsonb"
  | text => "text"
  | varchar => "varchar"
  | bpchar => "bpchar"
  | name => "name"
  | unknown => "unknown"
  | bytea => "bytea"
  | interval => "interval"
  | time => "time"
  | oid => "oid"
  | inet => "inet"
  | money => "money"

def all : List ColumnType :=
  [bool, int2, int4, int8, float4, float8, numeric, uuid, timestamp, timestamptz, date, json,
    jsonb, text, varchar, bpchar, name, unknown, bytea, interval, time, oid, inet, money]

def ofLabel? (label : String) : Option ColumnType :=
  all.find? fun type => type.label == label

/-- A type is found again by its name. -/
theorem ofLabel?_label (type : ColumnType) : ofLabel? type.label = some type := by
  cases type <;> rfl

def isText : ColumnType → Bool
  | text | varchar | bpchar | name | unknown => true
  | _ => false

/-- Types whose values can neither be sent nor read. -/
def isForeign : ColumnType → Bool
  | bytea | interval | time | oid | inet | money => true
  | _ => false

end ColumnType

end ClosedSql
