import ClosedSql.Column.Binding
import ClosedSql.Column.Reading
import ClosedSql.RowSet
import ClosedSql.Sql.Query

/-!
# Tables on a server

A store that writes every request as a statement. The server declares the type of each
parameter; the values are converted to these types, all of them before anything is sent.
The rows that come back are read by the types of their columns. What the server says to
the next statement is given as a reply, and every statement is kept as an exchange.
-/

namespace ClosedSql

/-- What a server says to a statement. -/
structure Reply where
  /-- The types of the first parameters; all others are texts. -/
  params : List ColumnType
  columns : List (String × ColumnType)
  rows : List (List Cell)
  /-- The statement is refused before its parameters are sent. -/
  refusesStatement : Bool
  /-- The statement is refused after its parameters have been sent. -/
  refusesExecution : Bool

/-- A statement as the server received it, with its parameters if they were sent. -/
structure Exchange where
  text : String
  params : Option (List (ColumnType × Option Datum))

/-- A server with its reply to the next statement, and the statements so far. -/
structure Server where
  reply : Reply
  exchanges : List Exchange

namespace Reply

def empty : Reply :=
  ⟨[], [], [], false, false⟩

def paramType (reply : Reply) (index : Nat) : ColumnType :=
  reply.params[index]?.getD .text

/-- Convert the parameters in order; the first that cannot be converted decides. -/
def bindParams (reply : Reply) (now : Calendar.Instant) (params : List Value) :
    Except Failure (List (ColumnType × Option Datum)) :=
  params.zipIdx.mapM fun param =>
    let type := reply.paramType param.2
    (type.bind now param.1).map fun datum => (type, datum)

/-- The first parameter of a type that cannot be sent. -/
def unsendable? (bound : List (ColumnType × Option Datum)) : Option Failure :=
  (bound.findIdx? fun param => param.1.isForeign).map .cannotSend

/-- The record of a row; the last of several columns of one name counts. -/
def readRow (reply : Reply) (row : List Cell) : Except Failure Record :=
  (((reply.columns.zip row).zipIdx.mapM fun entry =>
    let column := entry.1.1
    match column.2.read? entry.1.2 with
    | some value => .ok (column.1, value)
    | none => .error (.cannotRead entry.2 column.2)) : Except Failure _).map NameMap.ofList

/-- The number that a count stands for, which has no sign. -/
def countOf (n : Int64) : Nat :=
  n.toUInt64.toNat

def readCount (reply : Reply) : Except Failure Nat :=
  match reply.rows, reply.columns with
  | [], _ => .ok 0
  | _ :: _, [] => .error (.noSuchColumn 0)
  | row :: _, (_, type) :: _ =>
      match type, row.head?.bind type.read? with
      | .int8, some (.int n) => .ok (countOf n)
      | _, _ => .error .cannotReadCount

/-- Take the column of the count out of every record. The last count that is a number counts, and
zero where there is none. -/
def splitCount (records : List Record) : RowSet :=
  let counts := records.filterMap fun record =>
    (record.get? Request.countColumn).bind Value.toInt64?
  ⟨records.map fun record => record.erase Request.countColumn,
    some ((counts.getLast?.map countOf).getD 0)⟩

/-- Read the answer to a request. -/
def read (reply : Reply) (request : Request) : Except Failure RowSet :=
  if request.counted && request.head then reply.readCount.map RowSet.empty.withCount
  else
    (reply.rows.mapM reply.readRow).map fun records =>
      if request.counted then splitCount records else .ofRows records

end Reply

namespace Server

def start : Server :=
  ⟨.empty, []⟩

def prepare (server : Server) (reply : Reply) : Server :=
  { server with reply := reply }

def keep (server : Server) (exchange : Exchange) : Server :=
  { server with exchanges := server.exchanges ++ [exchange] }

/-- The parameters of a statement as they are sent, or why they are not. -/
def sendable (reply : Reply) (now : Calendar.Instant) (params : List Value) :
    Except Failure (List (ColumnType × Option Datum)) := do
  if reply.refusesStatement then throw .refused
  let bound ← reply.bindParams now params
  match Reply.unsendable? bound with
  | some failure => throw failure
  | none => return bound

/-- Serve a request: write the statement, have it accepted, send the parameters, have it carried
out, and read the rows. -/
def execute (now : Calendar.Instant) (request : Request) (server : Server) :
    Except Failure RowSet × Server :=
  match request.toQuery with
  | .error failure => (.error failure, server)
  | .ok query =>
      match sendable server.reply now query.params with
      | .error failure => (.error failure, server.keep ⟨query.text, none⟩)
      | .ok bound =>
          let server := server.keep ⟨query.text, some bound⟩
          if server.reply.refusesExecution then (.error .refused, server)
          else (server.reply.read request, server)

end Server

end ClosedSql
