import ClosedSql.Proofs.Database.Sent
import ClosedSql.Proofs.Memory.Service

/-!
# Rows by id

The structured calls find a row by the value of one column. Several rows may have that value, since
nothing keeps ids apart and values of different types may be equal; a reading and a change then
both mean the first of them. A change to other columns leaves the rows with the id as they are
found, so what is read next is what the change answered with. After a deletion none is left.
-/

namespace ClosedSql

/-- Whether a row has the id that a call names, at the time of the call. -/
def Config.identifies (config : Config) (now : Calendar.Instant) (id : Value)
    (row : Record) : Bool :=
  ((row.get? config.idColumn).bind fun value => value.compare? (id.resolveNow now)) == some .eq

/-- What a deletion leaves behind. -/
structure Deleted (config : Config) (now : Calendar.Instant) (name : String) (id : Value)
    (before after : Memory) : Prop where
  missing : ((Call.get config name id).run (Memory.execute now) after).1 = .ok none
  /-- All rows are those that there were, in their order, but for the rows with the id. -/
  rest : ∃ rows, ((Call.all name).run (Memory.execute now) before).1 = .ok rows ∧
    ((Call.all name).run (Memory.execute now) after).1 =
      .ok (rows.filter fun row => !config.identifies now id row)
  again : ∃ later, (Call.delete config name id).run (Memory.execute now) after = (.ok (), later) ∧
    later.tables = after.tables

variable {config : Config} {now : Calendar.Instant} {name : String} {id : Value}

/-- The filter on the id column accepts the rows that have the id named by the call. -/
theorem Config.holds_equals_idColumn :
    ((Filter.equals config.idColumn id).resolveNow now).holds = config.identifies now id := by
  funext row
  simp only [Filter.holds, Filter.resolveNow, Filter.equals, identifies]
  cases (row.get? config.idColumn).bind fun value => value.compare? (id.resolveNow now) <;> rfl

namespace Memory

variable {memory : Memory} {table : Table}

/-- No failure is due, and a table is there. -/
structure Ready (memory : Memory) (name : String) (table : Table) : Prop where
  free : memory.failures = []
  found : memory.tables.get? name = some table

def leaving (memory : Memory) (request : Request) (table : Table) : Memory :=
  { memory.recording request with tables := memory.tables.insert request.table table }

/-- A store stays ready for a table that another one takes the place of. -/
theorem Ready.leaving (h : memory.Ready name table) (request : Request)
    (target : request.table = name) (other : Table) :
    (memory.leaving request other).Ready name other where
  free := h.free
  found := by rw [Memory.leaving, NameMap.get?_insert, if_pos target]

/-- A request leaves every table but its own. -/
theorem get?_leaving_of_ne (memory : Memory) {request : Request} (table : Table) {other : String}
    (h : other ≠ request.table) :
    (memory.leaving request table).tables.get? other = memory.tables.get? other := by
  rw [leaving, NameMap.get?_insert, if_neg (Ne.symm h)]

/-- A table that is put in place of itself changes nothing. -/
theorem Ready.tables_leaving {request : Request} (h : memory.Ready request.table table) :
    (memory.leaving request table).tables = memory.tables :=
  NameMap.insert_of_get? h.found

/-! ## Single calls -/

theorem matching_eq_filter_identifies (table : Table) {request : Request}
    (filters : request.filters = [Filter.equals config.idColumn id]) :
    table.matching now request = table.rows.filter (config.identifies now id) := by
  rw [Table.matching, filters, List.map_singleton, satisfies_singleton,
    Config.holds_equals_idColumn]

/-- A reading by id finds the first row that has it. -/
theorem run_get (h : memory.Ready name table) (config : Config) (now : Calendar.Instant)
    (id : Value) :
    (Call.get config name id).run (execute now) memory =
      (.ok (table.rows.find? (config.identifies now id)),
        memory.recording (Call.get config name id).request) := by
  rw [Call.run_of_ok _ (execute_select h.free h.found rfl now),
    matching_eq_filter_identifies table rfl, ← List.head?_filter]
  change (Except.ok (((table.rows.filter _).take 1).map (Table.project ["*"])).head?, _) = _
  rw [List.head?_map, List.head?_take, if_neg Nat.one_ne_zero]
  cases (table.rows.filter (config.identifies now id)).head? <;> rfl

theorem run_all (h : memory.Ready name table) (now : Calendar.Instant) :
    (Call.all name).run (execute now) memory =
      (.ok table.rows, memory.recording (Call.all name).request) := by
  have hmatching : table.matching now (Call.all name).request = table.rows :=
    List.filter_eq_self.2 fun _ _ => rfl
  rw [Call.run_of_ok _ (execute_select h.free h.found rfl now), hmatching]
  change (Except.ok (table.rows.map (Table.project ["*"])), _) = _
  have hproject : Table.project ["*"] = fun row => row := rfl
  rw [hproject, List.map_id']

/-- A deletion by id removes every row that has it. -/
theorem run_delete (h : memory.Ready name table) (config : Config) (now : Calendar.Instant)
    (id : Value) :
    (Call.delete config name id).run (execute now) memory =
      (.ok (), memory.leaving (Call.delete config name id).request
        { table with rows := table.rows.filter fun row => !config.identifies now id row }) := by
  have haccepted : refusal? (Call.delete config name id).request = none := rfl
  rw [Call.run_of_ok _ (execute_of_accepted h.free h.found haccepted now),
    ← Config.holds_equals_idColumn, ← satisfies_singleton]
  rfl

/-! ## One call after another -/

theorem Ready.deleted (h : memory.Ready name table) :
    ∃ after, (Call.delete config name id).run (execute now) memory = (.ok (), after) ∧
      Deleted config now name id memory after ∧
      ∀ other, other ≠ name → after.tables.get? other = memory.tables.get? other := by
  refine ⟨_, run_delete h config now id, ?_,
    fun other hother => get?_leaving_of_ne memory _ hother⟩
  have hafter := h.leaving (Call.delete config name id).request rfl
    { table with rows := table.rows.filter fun row => !config.identifies now id row }
  constructor
  case missing =>
    rw [run_get hafter]
    have hnone : (table.rows.filter fun row => !config.identifies now id row).find?
        (config.identifies now id) = none := by
      rw [List.find?_eq_none]
      intro row hrow
      simpa using (List.mem_filter.1 hrow).2
    exact congrArg Except.ok hnone
  case rest =>
    refine ⟨table.rows, ?_, ?_⟩
    · rw [run_all h]
    · rw [run_all hafter]
  case again =>
    refine ⟨_, run_delete hafter config now id, ?_⟩
    rw [List.filter_filter]
    simp only [Bool.and_self]
    exact hafter.tables_leaving

end Memory

end ClosedSql
