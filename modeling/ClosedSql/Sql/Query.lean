import ClosedSql.Error
import ClosedSql.Request
import ClosedSql.Text.Quoted

/-!
# Requests as SQL

A request is written as one statement with numbered parameters. The statement is a sequence
of parts: fixed text, quoted names and parameter numbers. Values take no part in it; they
make up the list of parameters, in the order of their numbers.
-/

namespace ClosedSql

/-- A part of a statement. -/
inductive SqlPart
  | fixed (text : String)
  /-- A name, to be put in quotes. -/
  | name (text : String)
  /-- A parameter by its number; the first is one. -/
  | param (number : Nat)
deriving DecidableEq

namespace SqlPart

def text : SqlPart → List Char
  | fixed text => text.toList
  | name text => Text.enquote '"' text.toList
  | param number => '$' :: Nat.toDigits 10 number

def join (parts : List SqlPart) : String :=
  String.ofList (parts.flatMap text)

def separated (separator : String) (members : List (List SqlPart)) : List SqlPart :=
  (members.intersperse [fixed separator]).flatten

end SqlPart

/-- A statement with its parameters. -/
structure Query where
  text : String
  params : List Value
deriving DecidableEq

def Filter.parts (filter : Filter) (number : Nat) : List SqlPart :=
  [.name filter.column, .fixed (" " ++ filter.op.symbol ++ " "), .param number]

namespace Request

open SqlPart

/-- The column that carries the count beside the rows. -/
def countColumn : String :=
  "__sqlshim_count"

def actionParams (request : Request) : List Value :=
  match request.action with
  | .insert record => record.entries.map Prod.snd
  | .update values => values.entries.map Prod.snd
  | .select _ | .delete => []

def params (request : Request) : List Value :=
  request.actionParams ++ request.filters.map Condition.operand

def projection (columns : List String) : List SqlPart :=
  if columns.isEmpty || asksForAll columns then [fixed "*"]
  else separated ", " (columns.map fun column => [name column])

def target (request : Request) (columns : List String) : List SqlPart :=
  match request.counted, request.head with
  | true, true => [fixed "count(*)"]
  | true, false => projection columns ++ [fixed ", count(*) OVER () AS ", name countColumn]
  | false, _ => projection columns

def actionParts (request : Request) : List SqlPart :=
  match request.action with
  | .select columns =>
      fixed "SELECT " :: request.target columns ++ [fixed " FROM ", name request.table]
  | .insert record =>
      if record.isEmpty then
        [fixed "INSERT INTO ", name request.table, fixed " DEFAULT VALUES"]
      else
        [fixed "INSERT INTO ", name request.table, fixed " ("] ++
          separated ", " (record.names.map fun column => [name column]) ++ [fixed ") VALUES ("] ++
          separated ", " ((List.range record.size).map fun index => [param (index + 1)]) ++
          [fixed ")"]
  | .update values =>
      [fixed "UPDATE ", name request.table, fixed " SET "] ++
        separated ", " (values.names.zipIdx.map fun entry =>
          [name entry.1, fixed " = ", param (entry.2 + 1)])
  | .delete => [fixed "DELETE FROM ", name request.table]

def conditionParts (request : Request) : List SqlPart :=
  if request.filters.isEmpty then []
  else
    fixed " WHERE " :: separated " AND " ((request.filters.zipIdx
      (request.actionParams.length + 1)).map fun entry => entry.1.parts entry.2)

/-- Order and limit, where rows are read. -/
def tailParts (request : Request) : List SqlPart :=
  if request.isMutation then if request.returning then [fixed " RETURNING *"] else []
  else if request.head then []
  else
    (match request.order with
      | some order =>
          [fixed " ORDER BY ", name order.column,
            fixed (if order.ascending then " ASC" else " DESC")]
      | none => []) ++
    match request.limit with
    | some limit => [fixed (" LIMIT " ++ toString limit.toNat)]
    | none => []

def parts (request : Request) : List SqlPart :=
  request.actionParts ++ request.conditionParts ++ request.tailParts

/-- Whether a request sets no column at all, which no statement says. -/
def setsNothing (request : Request) : Bool :=
  match request.action with
  | .update values => values.isEmpty
  | _ => false

def toQuery (request : Request) : Except Failure Query :=
  if request.setsNothing then .error (.noValues request.table)
  else .ok ⟨join request.parts, request.params⟩

end Request

end ClosedSql
