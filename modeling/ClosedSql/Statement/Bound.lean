import ClosedSql.Dialect
import ClosedSql.Statement.Parser

/-!
# Bound statements

Binding gives every placeholder its parameter. Placeholders are numbered in the order of
the text. A statement that changes rows takes exactly as many parameters as it has
placeholders; one that reads them takes at least as many and ignores the rest.
-/

namespace ClosedSql

/-- A parameter by its number, or a value of the statement itself. -/
inductive Operand
  | param (index : Nat)
  | literal (value : Value)
deriving DecidableEq

/-- A statement together with its parameters. -/
structure BoundStatement where
  shape : Shape
  predicate : Option (Condition Operand)
  params : List Value
  /-- The values of an insertion or of the columns set, in the order of the columns. -/
  values : List Operand
  order : Option OrderBy
  limit : Option UInt64
  countLabel : Option String
deriving DecidableEq

namespace BoundStatement

def resolve (bound : BoundStatement) : Operand → Value
  | .param index => bound.params[index]?.getD .null
  | .literal value => value

def columns (bound : BoundStatement) : List String :=
  match bound.shape with
  | .insert _ columns | .update _ columns => columns
  | _ => []

def assignments (bound : BoundStatement) : Record :=
  .ofList ((bound.columns.zip bound.values).map fun pair => (pair.1, bound.resolve pair.2))

def filter? (bound : BoundStatement) : Option Filter :=
  bound.predicate.map fun condition =>
    ⟨condition.column, condition.op, bound.resolve condition.operand⟩

end BoundStatement

namespace Statement

/-- Give the placeholders among some slots the numbers from `first` on. -/
def numberSlots (first : Nat) : List Slot → List Operand
  | [] => []
  | .placeholder :: rest => .param first :: numberSlots (first + 1) rest
  | .literal value :: rest => .literal value :: numberSlots first rest

def numberCondition (index : Nat) (condition : Condition Slot) : Condition Operand :=
  match condition.operand with
  | .placeholder => ⟨condition.column, condition.op, .param index⟩
  | .literal value => ⟨condition.column, condition.op, .literal value⟩

/-- The condition that is kept under a policy, or why it cannot be. -/
def keptCondition (policy : CountPolicy) : Statement → Except Reason (Option (Condition Slot))
  | insert _ _ _ => .ok none
  | update _ _ condition => .ok (some condition)
  | delete _ condition => .ok (some condition)
  | select _ condition _ _ => .ok condition
  | count _ _ filter =>
      match policy, filter with
      | _, .none => .ok none
      | .ignore, _ => .ok none
      | .apply, .single condition => .ok (some condition)
      | .apply, .beyond reason _ => .error reason

/-- The numbers of columns and values or of placeholders and parameters, where they do not
match. A count without condition takes any parameters. -/
def mismatch? (statement : Statement) (filtered : Bool) (params : Nat) : Option (Nat × Nat) :=
  let placeholders := statement.placeholders
  match statement with
  | insert _ columns values =>
      if columns.length ≠ values.length then some (columns.length, values.length)
      else if params ≠ placeholders then some (placeholders, params)
      else none
  | update _ _ _ | delete _ _ => if params ≠ placeholders then some (placeholders, params) else none
  | select _ _ _ _ => if params < placeholders then some (placeholders, params) else none
  | count _ _ _ => if filtered ∧ params < placeholders then some (placeholders, params) else none

def isLiteral (condition : Condition Slot) : Bool :=
  match condition.operand with
  | .literal _ => true
  | .placeholder => false

def order? : Statement → Option OrderBy
  | select _ _ order _ => order
  | _ => none

def limit? : Statement → Option UInt64
  | select _ _ _ limit => limit
  | _ => none

def label? : Statement → Option String
  | count _ label _ => label
  | _ => none

/-- Give a statement its parameters. -/
def bind (config : Config) (statement : Statement) (params : List Value) :
    Except Reason BoundStatement := do
  let kept ← statement.keptCondition config.countPolicy
  match statement.mismatch? kept.isSome params.length with
  | some (expected, actual) => throw (.mismatch expected actual)
  | none => pure ()
  if !config.literalPredicates && kept.any isLiteral then throw .literal
  return {
    shape := statement.shape
    predicate := kept.map (numberCondition (placeholdersIn statement.values))
    params := params
    values := numberSlots 0 statement.values
    order := statement.order?
    limit := statement.limit?
    countLabel := statement.label? }

end Statement

namespace Config

/-- A statement with the dialect literals replaced as the settings say. -/
def normalize (config : Config) (text : String) : String :=
  Dialect.normalize config.nowLiteral text

def classify (config : Config) (text : String) : Shape :=
  match Statement.ofText (config.normalize text) with
  | .ok statement => statement.shape
  | .error _ => .unrecognized text

/-- Replace dialect literals, read and bind a statement. -/
def bind (config : Config) (text : String) (params : List Value) : Except Reason BoundStatement :=
  match Statement.ofText (config.normalize text) with
  | .ok statement => statement.bind config params
  | .error reason => .error reason

end Config

end ClosedSql
