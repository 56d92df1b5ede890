import ClosedSql.Error
import ClosedSql.Request
import ClosedSql.RowSet
import ClosedSql.Statement.Bound

/-!
# Calls on a database

A call is one request together with the way its answer is read. The structured calls name
what they want; a raw call is a statement that is first turned into a call. A statement
that is not supported never becomes one, so it reaches no store.
-/

namespace ClosedSql

/-- Anything that serves requests and keeps a state of type `σ`. -/
abbrev Store (σ : Type) :=
  Request → StateM σ (Except Failure RowSet)

/-- A request, and what its answer means. -/
structure Call (α : Type) where
  request : Request
  read : RowSet → Except Fault α

namespace Call

variable {α β σ : Type}

def run (call : Call α) (store : Store σ) : StateM σ (Except Fault α) := do
  match ← store call.request with
  | .ok answer => return call.read answer
  | .error failure => return .error (.store failure)

def ofRequest (request : Request) : Call RowSet :=
  ⟨request, .ok⟩

/-- The row with an id, if there is one. -/
def get (config : Config) (table : String) (id : Value) : Call (Option Record) where
  request := ((Request.selectAll table).filter (.equals config.idColumn id)).limitTo 1
  read answer := .ok answer.first?

def all (table : String) : Call (List Record) where
  request := .selectAll table
  read answer := .ok answer.rows

/-- The rows that have every value of a record. -/
def find (table : String) (conditions : Record) : Call (List Record) where
  request := (Request.selectAll table).matching conditions
  read answer := .ok answer.rows

def singleRow (answer : RowSet) : Except Fault Record :=
  match answer.single? with
  | some row => .ok row
  | none => .error (.rowCount 1 answer.rows.length)

/-- Store a row; the answer is the row as stored. -/
def insert (table : String) (record : Record) : Call Record where
  request := (Request.insert table record).returningRows
  read := singleRow

/-- Change the row with an id; the answer is the row as stored. -/
def update (config : Config) (table : String) (id : Value) (changes : Record) : Call Record where
  request := ((Request.update table changes).filter (.equals config.idColumn id)).returningRows
  read answer :=
    match answer.first? with
    | some row => .ok row
    | none => .error (.noSuchRow table id.display)

/-- Delete the row with an id, if it is there. -/
def delete (config : Config) (table : String) (id : Value) : Call Unit where
  request := (Request.delete table).filter (.equals config.idColumn id)
  read _ := .ok ()

/-- The number of rows, or of those that have every value of a record. -/
def count (table : String) (conditions : Option Record) : Call Nat where
  request :=
    let request := (Request.selectAll table).counting.headOnly
    match conditions with
    | some record => request.matching record
    | none => request
  read answer := .ok answer.total

end Call

/-- What came of a statement. -/
inductive Outcome
  | rows (rows : List Record)
  | mutation (id : Option Value) (count : Nat)
  /-- The statement is not supported, and nothing was sent. -/
  | unsupported (reason : Reason)
deriving DecidableEq

/-- What came of a raw call that changes rows. -/
structure Changes where
  /-- The id of an inserted row. -/
  id : Option Value
  count : Nat
deriving DecidableEq

namespace Changes

def none : Changes :=
  ⟨.none, 0⟩

end Changes

namespace BoundStatement

/-- The call a bound statement makes, unless it was never recognized. -/
def call? (bound : BoundStatement) (config : Config) : Option (Call Outcome) :=
  match bound.shape with
  | .insert table _ => some {
      request := (Request.insert table bound.assignments).returningRows
      read := fun answer =>
        .ok (.mutation (answer.first?.bind fun row => row.get? config.idColumn) 1) }
  | .update table _ => some {
      request := ((Request.update table bound.assignments).filter? bound.filter?).returningRows
      read := fun answer => .ok (.mutation none answer.rows.length) }
  | .delete table => some {
      request := ((Request.delete table).filter? bound.filter?).returningRows
      read := fun answer => .ok (.mutation none answer.rows.length) }
  | .select table => some {
      request := { (Request.selectAll table).filter? bound.filter? with
        order := bound.order, limit := bound.limit }
      read := fun answer => .ok (.rows answer.rows) }
  | .count table => some {
      request := (Request.selectAll table).counting.headOnly.filter? bound.filter?
      read := fun answer =>
        .ok (.rows [NameMap.empty.insert (bound.countLabel.getD config.countAlias)
          (.int (Int64.ofNat answer.total))]) }
  | .unrecognized _ => none

def dispatch {σ : Type} (bound : BoundStatement) (config : Config) (store : Store σ) :
    StateM σ (Except Fault Outcome) :=
  match bound.call? config with
  | some call => call.run store
  | none => return .ok (.unsupported .notRecognized)

end BoundStatement

namespace Database

variable {σ : Type}

/-- Replace dialect literals, read, bind and carry out a statement. -/
def execute (config : Config) (store : Store σ) (text : String) (params : List Value) :
    StateM σ (Except Fault Outcome) :=
  match config.bind text params with
  | .ok bound => bound.dispatch config store
  | .error reason => return .ok (.unsupported reason)

/-- What a raw call answers to a statement that is not supported. -/
def onUnsupported {α : Type} (config : Config) (reason : Reason) (nothing : α) : Except Fault α :=
  match config.unsupportedPolicy with
  | .lenient => .ok nothing
  | .strict => .error (.unsupported reason)

/-- The rows an outcome holds; a mutation holds none. -/
def rowsOf (config : Config) : Outcome → Except Fault (List Record)
  | .rows rows => .ok rows
  | .mutation _ _ => .ok []
  | .unsupported reason => onUnsupported config reason []

/-- The changes an outcome reports; a reading reports none. -/
def changesOf (config : Config) : Outcome → Except Fault Changes
  | .rows _ => .ok .none
  | .mutation id count => .ok ⟨id, count⟩
  | .unsupported reason => onUnsupported config reason .none

def query (config : Config) (store : Store σ) (text : String) (params : List Value) :
    StateM σ (Except Fault (List Record)) := do
  return (← execute config store text params).bind (rowsOf config)

def queryOne (config : Config) (store : Store σ) (text : String) (params : List Value) :
    StateM σ (Except Fault (Option Record)) := do
  return (← query config store text params).map List.head?

def run (config : Config) (store : Store σ) (text : String) (params : List Value) :
    StateM σ (Except Fault Changes) := do
  return (← execute config store text params).bind (changesOf config)

end Database

end ClosedSql
