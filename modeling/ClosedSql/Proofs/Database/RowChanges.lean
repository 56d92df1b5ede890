import ClosedSql.Proofs.Database.OneRequest
import ClosedSql.Proofs.Memory.Counter

/-!
# What raw calls do to rows

On a table in memory an insertion adds one row at the end. A change overwrites, and a deletion
removes, the rows that meet the condition as they stood before the call; the order of the rows is
kept, and the call reports how many met it. A reading changes nothing, and no call touches another
table. What a call reports is given by its id and its number: one for an insertion, the rows that
met the condition for a change or a deletion, none for a reading.
-/

namespace ClosedSql

/-- What a bound statement makes of the rows of its table, what comes of it, and which changes are
reported. -/
inductive BoundStatement.Alters (bound : BoundStatement) (config : Config) (idColumn : String)
    (now : Calendar.Instant) (rows : List Record) : List Record → Outcome → Changes → Prop
  /-- The row has the values assigned, and an id if none was assigned. -/
  | inserted {table : String} {columns : List String} {row : Record}
      (shape : bound.shape = .insert table columns)
      (assigned : row = bound.assignments.resolveNow now ∨
        bound.assignments.get? idColumn = none ∧
          ∃ id, row = (bound.assignments.resolveNow now).insert idColumn (.int id)) :
      bound.Alters config idColumn now rows (rows ++ [row])
        (.mutation (row.get? config.idColumn) 1) ⟨row.get? config.idColumn, 1⟩
  | changed {table : String} {columns : List String} {filter : Filter}
      (shape : bound.shape = .update table columns) (condition : bound.filter? = some filter) :
      bound.Alters config idColumn now rows
        (rows.map fun row =>
          if (filter.resolveNow now).holds row then
            row.merge (bound.assignments.resolveNow now)
          else row)
        (.mutation none (rows.countP (filter.resolveNow now).holds))
        ⟨none, rows.countP (filter.resolveNow now).holds⟩
  | deleted {table : String} {filter : Filter}
      (shape : bound.shape = .delete table) (condition : bound.filter? = some filter) :
      bound.Alters config idColumn now rows
        (rows.filter fun row => !(filter.resolveNow now).holds row)
        (.mutation none (rows.countP (filter.resolveNow now).holds))
        ⟨none, rows.countP (filter.resolveNow now).holds⟩
  | read {table : String} (shape : bound.shape = .select table ∨ bound.shape = .count table)
      (answer : List Record) :
      bound.Alters config idColumn now rows rows (.rows answer) ⟨none, 0⟩

namespace Table

theorem identify_cases (table : Table) (idColumn : String) (row : Record) :
    (table.identify idColumn row).1 = row ∨
      row.get? idColumn = none ∧ ∃ id, (table.identify idColumn row).1 =
        row.insert idColumn (.int id) := by
  cases hid : row.get? idColumn with
  | none => exact .inr ⟨rfl, _, by rw [table.identify_of_none hid]⟩
  | some value => exact .inl (table.identify_of_some hid).1

end Table

namespace BoundStatement

variable {bound : BoundStatement} {config : Config} {name : String}

/-- A call that is accepted on every store, reads its answer, and alters rows and reports changes
as its statement says. -/
structure Carries (bound : BoundStatement) (config : Config) (name : String) (call : Call Outcome) :
    Prop where
  makes : bound.call? config = some call
  target : call.request.table = name
  accepted : Memory.refusal? call.request = none
  alters : ∀ (idColumn : String) (now : Calendar.Instant) (table : Table), ∃ outcome changes,
    call.read (Memory.serve idColumn now call.request table).1 = .ok outcome ∧
      Database.changesOf config outcome = .ok changes ∧
      bound.Alters config idColumn now table.rows
        (Memory.serve idColumn now call.request table).2.rows outcome changes

/-- An insertion adds its row at the end and counts one. -/
theorem carries_insert {columns : List String} (shape : bound.shape = .insert name columns) :
    ∃ call, bound.Carries config name call := by
  refine ⟨_, call?_insert config shape rfl, rfl, rfl,
    fun idColumn now table => ⟨_, _, rfl, rfl, ?_⟩⟩
  refine .inserted shape ((table.identify_cases idColumn _).imp_right ?_)
  rintro ⟨hnone, id, hrow⟩
  rw [Record.resolveNow, NameMap.get?_mapValues, Option.map_eq_none_iff] at hnone
  exact ⟨hnone, id, hrow⟩

/-- The rows that satisfy the filter of a request are as many as it concerns. -/
theorem length_filter_satisfies (filter : Filter) (rows : List Record) :
    (rows.filter (satisfies [filter])).length = rows.countP filter.holds := by
  rw [Memory.satisfies_singleton, List.countP_eq_length_filter]

/-- A change overwrites the rows that met its condition and counts them. -/
theorem carries_update {columns : List String} {filter : Filter}
    (shape : bound.shape = .update name columns) (condition : bound.filter? = some filter) :
    ∃ call, bound.Carries config name call := by
  refine ⟨_, call?_update config shape rfl condition, rfl, rfl,
    fun idColumn now table => ⟨_, _, rfl, rfl, ?_⟩⟩
  change bound.Alters config idColumn now table.rows
    (table.rows.map fun row => if satisfies [filter.resolveNow now] row then _ else row)
    (.mutation none ((table.rows.filter (satisfies [filter.resolveNow now])).map _).length)
    ⟨none, ((table.rows.filter (satisfies [filter.resolveNow now])).map _).length⟩
  rw [List.length_map, length_filter_satisfies, Memory.satisfies_singleton]
  exact .changed shape condition

/-- A deletion removes the rows that met its condition and counts them. -/
theorem carries_delete {filter : Filter} (shape : bound.shape = .delete name)
    (condition : bound.filter? = some filter) : ∃ call, bound.Carries config name call := by
  refine ⟨_, call?_delete config shape condition, rfl, rfl,
    fun idColumn now table => ⟨_, _, rfl, rfl, ?_⟩⟩
  change bound.Alters config idColumn now table.rows
    (table.rows.filter fun row => !satisfies [filter.resolveNow now] row)
    (.mutation none (table.rows.filter (satisfies [filter.resolveNow now])).length)
    ⟨none, (table.rows.filter (satisfies [filter.resolveNow now])).length⟩
  rw [length_filter_satisfies, Memory.satisfies_singleton]
  exact .deleted shape condition

/-- A reading answers with rows and alters none. -/
theorem carries_read (shape : bound.shape = .select name ∨ bound.shape = .count name) :
    ∃ call, bound.Carries config name call := by
  obtain ⟨request, hasks, htarget, columns, haction⟩ : ∃ request, bound.Asks request ∧
      request.table = name ∧ ∃ columns, request.action = .select columns := by
    rcases shape with shape | shape
    · exact ⟨_, .select shape, rfl, _, rfl⟩
    · exact ⟨_, .count shape, rfl, _, rfl⟩
  obtain ⟨call, hcall, rfl⟩ := hasks.exists_call config
  refine ⟨call, hcall, htarget, ?_, fun idColumn now table => ?_⟩
  · rw [Memory.refusal?, haction]
    exact ite_self none
  · obtain ⟨answer, hanswer⟩ := read_of_call? shape hcall
      (Memory.serve idColumn now call.request table).1
    have htable : (Memory.serve idColumn now call.request table).2 = table := by
      rw [Memory.serve, haction]
    rw [htable]
    exact ⟨_, _, hanswer, rfl, .read shape answer⟩

/-- What was bound is carried out on its table. -/
theorem exists_carries {text : String} {params : List Value}
    (hbind : config.bind text params = .ok bound) (hname : bound.shape.table? = some name) :
    ∃ call, bound.Carries config name call := by
  obtain ⟨statement, -, hbound⟩ := Config.bind_eq_ok_iff.1 hbind
  obtain ⟨kept, hkept, -, -, rfl⟩ := Statement.bind_eq_ok_iff_numbered.1 hbound
  cases statement with
  | insert table columns values =>
      cases hname
      exact carries_insert rfl
  | update table assignments condition =>
      cases hname
      cases hkept
      exact carries_update rfl rfl
  | delete table condition =>
      cases hname
      cases hkept
      exact carries_delete rfl rfl
  | select table condition order limit =>
      cases hname
      exact carries_read (.inl rfl)
  | count table label filter =>
      cases hname
      exact carries_read (.inr rfl)

end BoundStatement

namespace Database

/-- A statement that can be bound, on a table that is there, alters the rows of that table as it
says and leaves every other table as it was; both raw calls succeed, and report the id and the
number that go with the alteration. -/
theorem alters_of_bind {config : Config} {text : String} {params : List Value}
    {bound : BoundStatement} (hbind : config.bind text params = .ok bound) {name : String}
    (hname : bound.shape.table? = some name) {memory : Memory} {table : Table}
    (htable : memory.tables.get? name = some table) (hfree : memory.failures = [])
    (now : Calendar.Instant) :
    ∃ rows outcome changes after,
      bound.Alters config memory.idColumn now table.rows rows outcome changes ∧
      execute config (Memory.execute now) text params memory = (.ok outcome, after) ∧
      run config (Memory.execute now) text params memory = (.ok changes, after) ∧
      after.rows name = rows ∧
      ∀ other, other ≠ name → after.tables.get? other = memory.tables.get? other := by
  obtain ⟨call, hcarries⟩ := BoundStatement.exists_carries hbind hname
  obtain ⟨outcome, changes, hread, hchanges, halters⟩ :=
    hcarries.alters memory.idColumn now table
  have hmakes : config.Makes text params call := ⟨bound, hbind, hcarries.makes⟩
  rw [← hcarries.target] at htable ⊢
  have hserved := Memory.execute_of_accepted hfree htable hcarries.accepted now
  have hcall := call.run_of_ok hserved
  rw [hread] at hcall
  refine ⟨_, outcome, changes, { memory.recording call.request with
    tables := memory.tables.insert call.request.table
      (Memory.serve memory.idColumn now call.request table).2 }, halters, ?_, ?_, ?_, ?_⟩
  · rw [hmakes.execute, hcall]
  · rw [hmakes.run, Call.run_andThen, hcall]
    exact congrArg (fun reported => (reported, _)) hchanges
  · rw [Memory.rows, Memory.table, NameMap.get?_insert, if_pos rfl]
    rfl
  · intro other hother
    rw [NameMap.get?_insert, if_neg (Ne.symm hother)]

/-- Three notes that get ids. A change to the column of its own condition concerns two of them. -/
def threeNotes : Memory :=
  Memory.empty.withRows "notes"
    [.ofList [("n", .int 1)], .ofList [("n", .int 2)], .ofList [("n", .float (.ofInt 1))]]

theorem alters_of_bind_update : ∃ bound table,
    ({} : Config).bind "UPDATE notes SET n = 2 WHERE n = ?" [.int 1] = .ok bound ∧
      bound.shape.table? = some "notes" ∧ threeNotes.tables.get? "notes" = some table ∧
      threeNotes.failures = [] ∧
      ∃ rows outcome changes after, bound.Alters {} "id" ⟨0, 0⟩ table.rows rows outcome changes ∧
        execute {} (Memory.execute ⟨0, 0⟩) "UPDATE notes SET n = 2 WHERE n = ?" [.int 1]
          threeNotes = (.ok outcome, after) ∧
        run {} (Memory.execute ⟨0, 0⟩) "UPDATE notes SET n = 2 WHERE n = ?" [.int 1]
          threeNotes = (.ok changes, after) ∧
        after.rows "notes" = rows ∧
        (∀ other, other ≠ "notes" → after.tables.get? other = threeNotes.tables.get? other) ∧
        outcome = .mutation none 2 ∧ changes = ⟨none, 2⟩ ∧
        rows = [.ofList [("id", .int 1), ("n", .int 2)], .ofList [("id", .int 2), ("n", .int 2)],
          .ofList [("id", .int 3), ("n", .int 2)]] := by
  have hknown : (({} : Config).bind "UPDATE notes SET n = 2 WHERE n = ?" [.int 1]).toOption.any
      (fun bound => bound.shape.table? = some "notes") = true := by
    decide +kernel
  have hthere : (threeNotes.tables.get? "notes").isSome = true := by decide +kernel
  have hreported : (run {} (Memory.execute ⟨0, 0⟩) "UPDATE notes SET n = 2 WHERE n = ?" [.int 1]
      threeNotes).1.toOption = some ⟨none, 2⟩ := by
    decide +kernel
  have hresult : (execute {} (Memory.execute ⟨0, 0⟩) "UPDATE notes SET n = 2 WHERE n = ?" [.int 1]
      threeNotes).1.toOption = some (.mutation none 2) := by
    decide +kernel
  have hrows : (execute {} (Memory.execute ⟨0, 0⟩) "UPDATE notes SET n = 2 WHERE n = ?" [.int 1]
      threeNotes).2.rows "notes" =
        [.ofList [("id", .int 1), ("n", .int 2)], .ofList [("id", .int 2), ("n", .int 2)],
          .ofList [("id", .int 3), ("n", .int 2)]] := by
    decide +kernel
  cases hbind : ({} : Config).bind "UPDATE notes SET n = 2 WHERE n = ?" [.int 1] with
  | error reason =>
      rw [hbind] at hknown
      cases hknown
  | ok bound =>
      rw [hbind] at hknown
      have hname : bound.shape.table? = some "notes" := of_decide_eq_true hknown
      obtain ⟨table, htable⟩ := Option.isSome_iff_exists.1 hthere
      obtain ⟨rows, outcome, changes, after, halters, hexecute, hrun, hafter, hothers⟩ :=
        alters_of_bind hbind hname htable rfl ⟨0, 0⟩
      rw [hrun] at hreported
      rw [hexecute] at hresult hrows
      exact ⟨bound, table, rfl, hname, htable, rfl, rows, outcome, changes, after, halters,
        hexecute, hrun, hafter, hothers, Option.some.inj hresult, Option.some.inj hreported,
        hafter.symm.trans hrows⟩

end Database

end ClosedSql
