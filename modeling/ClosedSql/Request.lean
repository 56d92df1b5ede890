import ClosedSql.Filter

/-!
# Requests

A store is asked one thing at a time: to read, insert, change or delete rows of one table.
A request is built up from its table and action; filters are joined by `and`.
-/

namespace ClosedSql

/-- What is done to the table. -/
inductive Action
  /-- Read the given columns; a star among them stands for all. -/
  | select (columns : List String)
  | insert (record : Record)
  /-- Overwrite the given columns of each row concerned. -/
  | update (values : Record)
  | delete
deriving DecidableEq

structure Request where
  table : String
  action : Action
  filters : List Filter
  order : Option OrderBy
  limit : Option UInt64
  /-- The number of matching rows is wanted. -/
  counted : Bool
  /-- No rows are wanted. -/
  head : Bool
  /-- A mutation answers with the rows it concerned. -/
  returning : Bool
deriving DecidableEq

namespace Request

def ofAction (table : String) (action : Action) : Request :=
  ⟨table, action, [], none, none, false, false, false⟩

def select (table : String) (columns : List String) : Request :=
  ofAction table (.select columns)

def selectAll (table : String) : Request :=
  select table ["*"]

def insert (table : String) (record : Record) : Request :=
  ofAction table (.insert record)

def update (table : String) (values : Record) : Request :=
  ofAction table (.update values)

def delete (table : String) : Request :=
  ofAction table .delete

def filter (request : Request) (filter : Filter) : Request :=
  { request with filters := request.filters ++ [filter] }

def filter? (request : Request) : Option Filter → Request
  | some condition => request.filter condition
  | none => request

def matching (request : Request) (conditions : Record) : Request :=
  { request with
    filters := request.filters ++ conditions.entries.map fun entry => .equals entry.1 entry.2 }

def orderBy (request : Request) (order : OrderBy) : Request :=
  { request with order := some order }

def limitTo (request : Request) (limit : UInt64) : Request :=
  { request with limit := some limit }

def counting (request : Request) : Request :=
  { request with counted := true }

def headOnly (request : Request) : Request :=
  { request with head := true }

def returningRows (request : Request) : Request :=
  { request with returning := true }

def isMutation (request : Request) : Bool :=
  match request.action with
  | .select _ => false
  | _ => true

end Request

def asksForAll (columns : List String) : Bool :=
  columns.contains "*"

end ClosedSql
