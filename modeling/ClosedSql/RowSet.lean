import ClosedSql.Record

/-!
# Row sets

The answer to a request: rows in the order of their arrival, and the number of matching
rows where it was asked for.
-/

namespace ClosedSql

structure RowSet where
  rows : List Record
  count : Option Nat
deriving DecidableEq

namespace RowSet

def ofRows (rows : List Record) : RowSet :=
  ⟨rows, none⟩

def empty : RowSet :=
  ofRows []

def withCount (set : RowSet) (count : Nat) : RowSet :=
  { set with count := some count }

def single? (set : RowSet) : Option Record :=
  match set.rows with
  | [row] => some row
  | _ => none

def first? (set : RowSet) : Option Record :=
  set.rows.head?

def total (set : RowSet) : Nat :=
  set.count.getD set.rows.length

end RowSet

end ClosedSql
