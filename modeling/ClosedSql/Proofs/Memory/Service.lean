import ClosedSql.Memory
import ClosedSql.NameMap.Lookup

/-!
# Serving one request

A request meets one of four ends: a failure is due, its table is not there, it would change every
row, or it is served. In each of them the request is recorded; only the last one touches a table,
and only the first one takes a failure from the queue.
-/

namespace ClosedSql

/-- The rows of a table that satisfy all filters of a request, as they stand. -/
def Table.matching (table : Table) (now : Calendar.Instant) (request : Request) : List Record :=
  table.rows.filter (satisfies (request.filters.map (Filter.resolveNow now)))

namespace Memory

def recording (memory : Memory) (request : Request) : Memory :=
  { memory with requests := memory.requests ++ [request] }

/-- What comes of a request: the answer, and the store afterwards. -/
inductive Served (now : Calendar.Instant) (request : Request) (memory : Memory) :
    Except Failure RowSet × Memory → Prop
  | doomed {message : String} {rest : List String} (due : memory.failures = message :: rest) :
      Served now request memory
        (.error (.ordered message), { memory.recording request with failures := rest })
  | missing (free : memory.failures = []) (absent : memory.tables.get? request.table = none) :
      Served now request memory (.error (.noSuchTable request.table), memory.recording request)
  | refused {table : Table} {failure : Failure} (free : memory.failures = [])
      (found : memory.tables.get? request.table = some table)
      (refusal : refusal? request = some failure) :
      Served now request memory (.error failure, memory.recording request)
  | answered {table : Table} (free : memory.failures = [])
      (found : memory.tables.get? request.table = some table)
      (accepted : refusal? request = none) :
      Served now request memory
        (.ok (serve memory.idColumn now request table).1,
          { memory.recording request with
            tables := memory.tables.insert request.table
              (serve memory.idColumn now request table).2 })

/-- Every request is served in one of the ways. -/
theorem served (now : Calendar.Instant) (request : Request) (memory : Memory) :
    Served now request memory (memory.execute now request) := by
  obtain ⟨idColumn, tables, requests, failures⟩ := memory
  cases failures with
  | cons message rest => exact .doomed rfl
  | nil =>
      simp only [execute, apply]
      cases htable : tables.get? request.table with
      | none => exact .missing rfl htable
      | some table =>
          cases hrefusal : refusal? request with
          | some failure => exact .refused rfl htable hrefusal
          | none => exact .answered rfl htable hrefusal

/-- A request that nothing stands against is served. -/
theorem execute_of_accepted {request : Request} {memory : Memory} {table : Table}
    (free : memory.failures = []) (found : memory.tables.get? request.table = some table)
    (accepted : refusal? request = none) (now : Calendar.Instant) :
    memory.execute now request =
      (.ok (serve memory.idColumn now request table).1,
        { memory.recording request with
          tables := memory.tables.insert request.table
            (serve memory.idColumn now request table).2 }) := by
  unfold execute
  rw [free]
  simp only [apply, found, accepted]
  rw [recording, free]

/-- A selection on a table that is there reads from the rows that match and leaves them alone. -/
theorem execute_select {request : Request} {memory : Memory} {table : Table}
    {columns : List String} (free : memory.failures = [])
    (found : memory.tables.get? request.table = some table)
    (action : request.action = .select columns) (now : Calendar.Instant) :
    memory.execute now request =
      (.ok (Table.answer request columns (table.matching now request)),
        memory.recording request) := by
  have haccepted : refusal? request = none := by
    rw [refusal?, action]
    exact ite_self none
  have hserve : serve memory.idColumn now request table =
      (Table.answer request columns (table.matching now request), table) := by
    rw [serve, action]
    rfl
  rw [execute_of_accepted free found haccepted, hserve, NameMap.insert_of_get? found]
  rfl

theorem satisfies_singleton (filter : Filter) : satisfies [filter] = filter.holds := by
  funext row
  simp [satisfies]

end Memory

end ClosedSql
