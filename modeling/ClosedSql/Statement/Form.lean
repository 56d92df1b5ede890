import ClosedSql.Error
import ClosedSql.Filter

/-!
# Statements

The closed set of statements that can be turned into a request. Values stand in a
statement as literals or as placeholders, which are numbered only when parameters are
bound to them.
-/

namespace ClosedSql

inductive Slot
  | placeholder
  | literal (value : Value)
deriving DecidableEq

/-- The condition of a count. -/
inductive CountFilter
  | none
  | single (condition : Condition Slot)
  /-- More than one plain condition, with the reason why it cannot be applied and the number of
  placeholders in it. -/
  | beyond (reason : Reason) (placeholders : Nat)
deriving DecidableEq

inductive Statement
  | insert (table : String) (columns : List String) (values : List Slot)
  | update (table : String) (assignments : List (String × Slot)) (condition : Condition Slot)
  | delete (table : String) (condition : Condition Slot)
  | select (table : String) (condition : Option (Condition Slot)) (order : Option OrderBy)
      (limit : Option UInt64)
  | count (table : String) (label : Option String) (filter : CountFilter)
deriving DecidableEq

/-- The category of a statement. -/
inductive Shape
  | select (table : String)
  | count (table : String)
  | insert (table : String) (columns : List String)
  | update (table : String) (columns : List String)
  | delete (table : String)
  | unrecognized (text : String)
deriving DecidableEq

namespace Shape

def kind : Shape → String
  | select _ => "select"
  | count _ => "count"
  | insert _ _ => "insert"
  | update _ _ => "update"
  | delete _ => "delete"
  | unrecognized _ => "unrecognized"

def table? : Shape → Option String
  | select table | count table | insert table _ | update table _ | delete table => some table
  | unrecognized _ => none

end Shape

namespace Statement

def shape : Statement → Shape
  | insert table columns _ => .insert table columns
  | update table assignments _ => .update table (assignments.map Prod.fst)
  | delete table _ => .delete table
  | select table _ _ _ => .select table
  | count table _ _ => .count table

/-- The values of the columns, in the order of the columns. -/
def values : Statement → List Slot
  | insert _ _ values => values
  | update _ assignments _ => assignments.map Prod.snd
  | _ => []

def placeholdersIn (slots : List Slot) : Nat :=
  slots.count .placeholder

def conditionPlaceholders : Statement → Nat
  | update _ _ condition | delete _ condition | select _ (some condition) _ _
  | count _ _ (.single condition) => placeholdersIn [condition.operand]
  | count _ _ (.beyond _ placeholders) => placeholders
  | _ => 0

def placeholders (statement : Statement) : Nat :=
  placeholdersIn statement.values + statement.conditionPlaceholders

end Statement

end ClosedSql
