import ClosedSql.NameMap
import ClosedSql.Value

/-!
# Records

A row of a table: a value for each of its columns, in the order of the column names.
-/

namespace ClosedSql

/-- The columns of one row with their values. -/
abbrev Record :=
  NameMap Value

namespace Record

def project (record : Record) (columns : List String) : Record :=
  .ofList (columns.filterMap fun column => (record.get? column).map fun value => (column, value))

end Record

end ClosedSql
