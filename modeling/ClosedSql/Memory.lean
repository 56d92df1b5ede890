import ClosedSql.Calendar.Instant
import ClosedSql.Error
import ClosedSql.Request
import ClosedSql.RowSet
import ClosedSql.Statement.Parser

/-!
# Tables in memory

A store that keeps its tables in memory. It gives ids to rows that come without one,
answers the request for the current time wherever that is written or compared, keeps a
record of every request, and can be told to fail. A request that fails changes nothing but
that record and the queue of failures.
-/

namespace ClosedSql

/-- The rows of a table, in the order of their insertion, and the highest id so far. -/
structure Table where
  rows : List Record
  lastId : Int64
deriving DecidableEq

namespace Table

def empty : Table :=
  ⟨[], 0⟩

/-- See to the id of a row that is about to be stored. A row without an id gets the next one; an
id that can be read as an integer is taken note of; any other is left alone. -/
def identify (table : Table) (idColumn : String) (row : Record) : Record × Int64 :=
  match row.get? idColumn with
  | none => (row.insert idColumn (.int (table.lastId + 1)), table.lastId + 1)
  | some value =>
      match value.toInt64? with
      | some id => (row, if table.lastId < id then id else table.lastId)
      | none => (row, table.lastId)

def add (table : Table) (idColumn : String) (row : Record) : Table :=
  ⟨table.rows ++ [(table.identify idColumn row).1], (table.identify idColumn row).2⟩

/-- How two rows stand under an order: by the column where both have it, a row that has it
before one that has not. Values that do not compare count as equal. -/
def compareBy (order : OrderBy) (a b : Record) : Ordering :=
  let ascending := match a.get? order.column, b.get? order.column with
    | some x, some y => (x.compare? y).getD .eq
    | some _, none => .lt
    | none, some _ => .gt
    | none, none => .eq
  if order.ascending then ascending else ascending.swap

/-- The rows in order; rows that compare as equal keep their places. A column of numbers with
nothing beside them, or with texts beside them, need not be put in an order by comparison: then no
arrangement is promised, and what the merges leave is one of many. -/
def sort (rows : List Record) : Option OrderBy → List Record
  | none => rows
  | some order => rows.mergeSort fun a b => compareBy order a b != .gt

def cut (rows : List Record) : Option UInt64 → List Record
  | none => rows
  | some limit => rows.take limit.toNat

def project (columns : List String) (row : Record) : Record :=
  if asksForAll columns then row else Record.project row columns

/-- Read from the matching rows. The count comes before limit and projection. -/
def answer (request : Request) (columns : List String) (matching : List Record) : RowSet where
  rows :=
    if request.head then []
    else (cut (sort matching request.order) request.limit).map (project columns)
  count := if request.counted then some matching.length else none

end Table

/-- Whether a value asks for the current time. -/
def Value.asksForNow : Value → Bool
  | .text s => Text.sameIgnoringCase (Text.trim s.toList) Statement.nowText.toList
  | _ => false

def Value.resolveNow (now : Calendar.Instant) (value : Value) : Value :=
  if value.asksForNow then .text (String.ofList now.plainText) else value

def Record.resolveNow (now : Calendar.Instant) (record : Record) : Record :=
  record.mapValues (Value.resolveNow now)

def Filter.resolveNow (now : Calendar.Instant) (filter : Filter) : Filter :=
  { filter with operand := filter.operand.resolveNow now }

def satisfies (filters : List Filter) (row : Record) : Bool :=
  filters.all fun filter => filter.holds row

structure Memory where
  idColumn : String
  tables : NameMap Table
  /-- Every request so far, in order. -/
  requests : List Request
  /-- What the next requests fail with, in order. -/
  failures : List String
deriving DecidableEq

namespace Memory

def empty : Memory :=
  ⟨"id", .empty, [], []⟩

def withIdColumn (memory : Memory) (column : String) : Memory :=
  { memory with idColumn := column }

def table (memory : Memory) (name : String) : Table :=
  (memory.tables.get? name).getD .empty

/-- Make sure that a table is there, and add rows to it. -/
def withRows (memory : Memory) (name : String) (rows : List Record) : Memory :=
  { memory with
    tables := memory.tables.insert name
      (rows.foldl (fun table row => table.add memory.idColumn row) (memory.table name)) }

/-- Make the request after those already doomed fail. -/
def failNext (memory : Memory) (message : String) : Memory :=
  { memory with failures := memory.failures ++ [message] }

def rows (memory : Memory) (name : String) : List Record :=
  (memory.table name).rows

def forgetRequests (memory : Memory) : Memory :=
  { memory with requests := [] }

/-- Whether a request would change every row of its table. -/
def refusal? (request : Request) : Option Failure :=
  if request.filters.isEmpty then
    match request.action with
    | .update _ => some (.unfilteredUpdate request.table)
    | .delete => some (.unfilteredDelete request.table)
    | _ => none
  else none

/-- Serve a request on its table: the rows concerned, or the answer to a selection, and the
table afterwards. -/
def serve (idColumn : String) (now : Calendar.Instant) (request : Request) (table : Table) :
    RowSet × Table :=
  let filters := request.filters.map (Filter.resolveNow now)
  let concerned (rows : List Record) : RowSet :=
    if request.returning then .ofRows rows else .empty
  match request.action with
  | .select columns =>
      (Table.answer request columns (table.rows.filter (satisfies filters)), table)
  | .insert record =>
      let row := record.resolveNow now
      (concerned [(table.identify idColumn row).1], table.add idColumn row)
  | .update values =>
      let values := values.resolveNow now
      let change (row : Record) : Record := row.merge values
      (concerned ((table.rows.filter (satisfies filters)).map change),
        { table with
          rows := table.rows.map fun row => if satisfies filters row then change row else row })
  | .delete =>
      (concerned (table.rows.filter (satisfies filters)),
        { table with rows := table.rows.filter fun row => !satisfies filters row })

/-- Serve a request that no failure stands against. -/
def apply (memory : Memory) (now : Calendar.Instant) (request : Request) :
    Except Failure (RowSet × Memory) :=
  match memory.tables.get? request.table with
  | none => .error (.noSuchTable request.table)
  | some table =>
      match refusal? request with
      | some failure => .error failure
      | none =>
          let (answer, table) := serve memory.idColumn now request table
          .ok (answer, { memory with tables := memory.tables.insert request.table table })

/-- Take a request: keep a record of it, then fail if a failure is due, and otherwise serve
it. -/
def execute (now : Calendar.Instant) (request : Request) (memory : Memory) :
    Except Failure RowSet × Memory :=
  let memory := { memory with requests := memory.requests ++ [request] }
  match memory.failures with
  | message :: rest => (.error (.ordered message), { memory with failures := rest })
  | [] =>
      match memory.apply now request with
      | .ok (answer, memory) => (.ok answer, memory)
      | .error failure => (.error failure, memory)

end Memory

end ClosedSql
