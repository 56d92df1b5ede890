import ClosedSql.Record
import ClosedSql.Text.Quoted

/-!
# Filters

A filter compares one column with a value. A row matches when the column is there, the
two compare, and the comparison comes out as the operator says; a missing column or an
absent value never matches.
-/

namespace ClosedSql

/-- The comparisons a table store can filter on. -/
inductive CompareOp
  | eq
  | ne
  | lt
  | le
  | gt
  | ge
deriving DecidableEq

namespace CompareOp

/-- The operator a symbol stands for; equality and inequality have two spellings. -/
def ofSymbol? : String → Option CompareOp
  | "=" | "==" => some eq
  | "!=" | "<>" => some ne
  | "<" => some lt
  | "<=" => some le
  | ">" => some gt
  | ">=" => some ge
  | _ => none

def symbol : CompareOp → String
  | eq => "="
  | ne => "<>"
  | lt => "<"
  | le => "<="
  | gt => ">"
  | ge => ">="

/-- The canonical symbol of an operator is read as that operator. -/
theorem ofSymbol?_symbol (op : CompareOp) : ofSymbol? op.symbol = some op := by
  cases op <;> rfl

def holds : CompareOp → Ordering → Bool
  | eq, order => order == .eq
  | ne, order => order != .eq
  | lt, order => order == .lt
  | le, order => order != .gt
  | gt, order => order == .gt
  | ge, order => order != .lt

end CompareOp

/-- The condition that a column stands in a given relation to an operand. -/
structure Condition (α : Type) where
  column : String
  op : CompareOp
  operand : α
deriving DecidableEq

/-- A condition on a value, as a store evaluates it. -/
abbrev Filter :=
  Condition Value

namespace Filter

def equals (column : String) (value : Value) : Filter :=
  ⟨column, .eq, value⟩

def holds (filter : Filter) (row : Record) : Bool :=
  match (row.get? filter.column).bind fun value => value.compare? filter.operand with
  | some order => filter.op.holds order
  | none => false

end Filter

structure OrderBy where
  column : String
  ascending : Bool
deriving DecidableEq

end ClosedSql
