import ClosedSql.Proofs.Memory.Service

/-!
# Runs of tables in memory

A run is a sequence of events: tables are set up and seeded with rows, failures are ordered, and
requests are served. What an event does to one table is said once, as its effect: the table is kept,
or gets one more row, or some of its rows are changed or removed. Whatever every effect preserves
holds of every table after every run.
-/

namespace ClosedSql.Memory

/-- What can happen to tables in memory. -/
inductive Event
  | create (table : String)
  | seed (table : String) (row : Record)
  | failNext (message : String)
  | serve (now : Calendar.Instant) (request : Request)

def step (memory : Memory) : Event → Memory
  | .create table => memory.withRows table []
  | .seed table row => memory.withRows table [row]
  | .failNext message => memory.failNext message
  | .serve now request => (memory.execute now request).2

def run (memory : Memory) (events : List Event) : Memory :=
  events.foldl step memory

/-- What an event does to the table of a name. -/
inductive Effect (idColumn name : String) : Event → Table → Table → Prop
  | kept (event : Event) (table : Table) : Effect idColumn name event table table
  | seeded (row : Record) (table : Table) :
      Effect idColumn name (.seed name row) table (table.add idColumn row)
  | inserted {now : Calendar.Instant} {request : Request} {record : Record}
      (target : request.table = name) (action : request.action = .insert record) (table : Table) :
      Effect idColumn name (.serve now request) table
        (table.add idColumn (record.resolveNow now))
  | changed {now : Calendar.Instant} {request : Request} {values : Record}
      (target : request.table = name) (action : request.action = .update values)
      (concerned : Record → Bool) (table : Table) :
      Effect idColumn name (.serve now request) table
        { table with
          rows := table.rows.map fun row =>
            if concerned row then row.merge (values.resolveNow now) else row }
  | removed {now : Calendar.Instant} {request : Request} (target : request.table = name)
      (action : request.action = .delete) (keeps : Record → Bool) (table : Table) :
      Effect idColumn name (.serve now request) table
        { table with rows := table.rows.filter keeps }

/-! ## Steps -/

/-- Rows are added to the table of their name and to no other. -/
theorem table_withRows (memory : Memory) (name other : String) (rows : List Record) :
    (memory.withRows name rows).table other =
      if name = other then
        rows.foldl (fun table row => table.add memory.idColumn row) (memory.table name)
      else memory.table other := by
  unfold table withRows
  rw [NameMap.get?_insert]
  split <;> rfl

theorem withRows_append (memory : Memory) (name : String) (front rest : List Record) :
    memory.withRows name (front ++ rest) = (memory.withRows name front).withRows name rest := by
  have htable := table_withRows memory name name front
  rw [if_pos rfl] at htable
  have hrows : (memory.withRows name front).withRows name rest =
      { memory with
        tables := (memory.withRows name front).tables.insert name
          (rest.foldl (fun table row => table.add memory.idColumn row)
            ((memory.withRows name front).table name)) } := rfl
  rw [hrows, htable, ← List.foldl_append]
  unfold withRows
  congr 1
  apply NameMap.ext_get?
  intro other
  rw [NameMap.get?_insert, NameMap.get?_insert, NameMap.get?_insert]
  split <;> rfl

/-- Rows seeded together are seeded one after the other. -/
theorem withRows_eq_run (memory : Memory) (name : String) (rows : List Record) :
    memory.withRows name rows = memory.run (.create name :: rows.map (.seed name)) := by
  have hseeds : ∀ front, (memory.withRows name front).run (rows.map (.seed name)) =
      memory.withRows name (front ++ rows) := by
    induction rows with
    | nil =>
        intro front
        rw [List.append_nil]
        rfl
    | cons row rows ih =>
        intro front
        have hstep : (memory.withRows name front).step (.seed name row) =
            memory.withRows name (front ++ [row]) := (withRows_append _ _ _ _).symm
        rw [List.map_cons, run, List.foldl_cons, hstep, List.append_cons front row rows]
        exact ih _
  exact (hseeds []).symm

/-- Serving a request has the effect of its event. -/
theorem serve_effect {idColumn : String} (now : Calendar.Instant) (request : Request)
    (table : Table) :
    Effect idColumn request.table (.serve now request) table
      (serve idColumn now request table).2 := by
  unfold serve
  cases haction : request.action with
  | select columns => exact .kept _ _
  | insert record => exact .inserted rfl haction _
  | update values => exact .changed rfl haction _ _
  | delete => exact .removed rfl haction _ _

/-- A request leaves the tables as they are, or replaces its own by what serving it makes of it. -/
theorem tables_execute (now : Calendar.Instant) (request : Request) (memory : Memory) :
    (memory.execute now request).2.tables = memory.tables ∨
      ∃ table, memory.tables.get? request.table = some table ∧
        (memory.execute now request).2.tables =
          memory.tables.insert request.table (serve memory.idColumn now request table).2 := by
  have hserved := served now request memory
  generalize memory.execute now request = outcome at hserved ⊢
  cases hserved with
  | doomed _ => exact .inl rfl
  | missing _ _ => exact .inl rfl
  | refused _ _ _ => exact .inl rfl
  | @answered table _ found _ => exact .inr ⟨table, found, rfl⟩

theorem idColumn_execute (now : Calendar.Instant) (request : Request) (memory : Memory) :
    (memory.execute now request).2.idColumn = memory.idColumn := by
  have hserved := served now request memory
  generalize memory.execute now request = outcome at hserved ⊢
  cases hserved with
  | doomed _ => rfl
  | missing _ _ => rfl
  | refused _ _ _ => rfl
  | answered _ _ _ => rfl

theorem idColumn_step (memory : Memory) (event : Event) :
    (memory.step event).idColumn = memory.idColumn := by
  cases event with
  | create table => rfl
  | seed table row => rfl
  | failNext message => rfl
  | serve now request => exact idColumn_execute now request memory

/-- The id column of a store never changes. -/
theorem idColumn_run (memory : Memory) (events : List Event) :
    (memory.run events).idColumn = memory.idColumn := by
  induction events generalizing memory with
  | nil => rfl
  | cons event rest ih =>
      rw [run, List.foldl_cons]
      exact (ih _).trans (idColumn_step memory event)

/-- What one event does to each table. -/
theorem effect_step (memory : Memory) (event : Event) (name : String) :
    Effect memory.idColumn name event (memory.table name) ((memory.step event).table name) := by
  cases event with
  | create table =>
      rw [step, table_withRows]
      split
      · next h =>
          subst h
          exact .kept _ _
      · exact .kept _ _
  | seed table row =>
      rw [step, table_withRows]
      split
      · next h =>
          subst h
          exact .seeded _ _
      · exact .kept _ _
  | failNext message => exact .kept _ _
  | serve now request =>
      rw [step, table, table]
      rcases tables_execute now request memory with hsame | ⟨found, hfound, htables⟩
      · rw [hsame]
        exact .kept _ _
      · rw [htables, NameMap.get?_insert]
        split
        · next h =>
            subst h
            rw [hfound]
            exact serve_effect now request found
        · exact .kept _ _

end ClosedSql.Memory
