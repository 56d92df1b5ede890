import ClosedSql.Proofs.Database.RowById
import Mathlib.Data.List.Basic

/-!
# Rows counted and fetched

The structured calls ask for the rows that have every value of a record, or for their number. The
number is taken on another way through the store than the rows: it is counted before any row is
left out, and no row comes with it. Both ways start from the same rows, so they agree in every state
of the store, also where both fail.
-/

namespace ClosedSql

/-- Whether a row satisfies every condition of a record at the time of the call. -/
def Record.meets (now : Calendar.Instant) (conditions row : Record) : Bool :=
  conditions.entries.all fun condition =>
    (Filter.equals condition.1 (condition.2.resolveNow now)).holds row

/-- What the calls that fetch and count rows answer with in a state of the store. -/
structure FetchesAgree (now : Calendar.Instant) (memory : Memory) (name : String)
    (conditions : Record) : Prop where
  counted : ((Call.count name (some conditions)).run (Memory.execute now) memory).1 =
    ((Call.find name conditions).run (Memory.execute now) memory).1.map List.length
  countedAll : ((Call.count name none).run (Memory.execute now) memory).1 =
    ((Call.all name).run (Memory.execute now) memory).1.map List.length
  foundAll : (Call.find name .empty).run (Memory.execute now) memory =
    (Call.all name).run (Memory.execute now) memory
  /-- The rows that satisfy the conditions, in the order of the table. -/
  found : ∀ {table}, memory.Ready name table →
    ((Call.find name conditions).run (Memory.execute now) memory).1 =
      .ok (table.rows.filter (conditions.meets now))
  /-- Conditions that do not ask for the current time are compared as they are. -/
  timeless : (∀ condition ∈ conditions.entries, condition.2.asksForNow = false) →
    conditions.meets now = satisfies (conditions.entries.map fun condition =>
      .equals condition.1 condition.2)
  /-- With further conditions a part of the rows is found, in their order. -/
  narrowed : ∀ {table}, memory.Ready name table → ∀ {more : Record},
    (∀ column value, conditions.get? column = some value → more.get? column = some value) →
    ∃ rows fewer,
      ((Call.find name conditions).run (Memory.execute now) memory).1 = .ok rows ∧
        ((Call.find name more).run (Memory.execute now) memory).1 = .ok fewer ∧
        fewer.Sublist rows
  unaltered : ((Call.find name conditions).run (Memory.execute now) memory).2.tables =
      memory.tables ∧
    ((Call.all name).run (Memory.execute now) memory).2.tables = memory.tables ∧
    ∀ counted, ((Call.count name counted).run (Memory.execute now) memory).2.tables =
      memory.tables

/-! ## Conditions -/

namespace Record

/-- A row matches the request of a record if it meets every condition of it. -/
theorem satisfies_matching (now : Calendar.Instant) (name : String) (conditions : Record) :
    satisfies (((Request.selectAll name).matching conditions).filters.map
      (Filter.resolveNow now)) = conditions.meets now := by
  funext row
  have hfilters : ((Request.selectAll name).matching conditions).filters =
      conditions.entries.map fun condition => .equals condition.1 condition.2 :=
    List.nil_append _
  rw [hfilters, List.map_map, satisfies, List.all_map]
  rfl

/-- Conditions without the current time are those of a list of filters. -/
theorem meets_of_timeless {conditions : Record}
    (h : ∀ condition ∈ conditions.entries, condition.2.asksForNow = false)
    (now : Calendar.Instant) :
    conditions.meets now = satisfies (conditions.entries.map fun condition =>
      .equals condition.1 condition.2) := by
  funext row
  rw [meets, satisfies, List.all_map]
  rw [Bool.eq_iff_iff, List.all_eq_true, List.all_eq_true]
  refine forall₂_congr fun condition hmem => ?_
  rw [Value.resolveNow, h condition hmem, if_neg Bool.false_ne_true]
  rfl

/-- A row that meets a record of conditions meets each part of it. -/
theorem meets_of_extends {conditions more : Record} {now : Calendar.Instant} {row : Record}
    (h : ∀ column value, conditions.get? column = some value → more.get? column = some value)
    (hmeets : more.meets now row = true) : conditions.meets now row = true := by
  rw [meets, List.all_eq_true] at hmeets ⊢
  intro condition hmem
  exact hmeets condition
    (NameMap.get?_eq_some_iff.1 (h _ _ (NameMap.get?_eq_some_iff.2 hmem)))

end Record

namespace Memory

variable {now : Calendar.Instant} {memory : Memory} {name : String} {table : Table}

/-! ## Selections in every state -/

def reached (memory : Memory) (name : String) : Except Failure Table :=
  match memory.failures with
  | message :: _ => .error (.ordered message)
  | [] =>
      match memory.tables.get? name with
      | none => .error (.noSuchTable name)
      | some table => .ok table

theorem Ready.reached (h : memory.Ready name table) : memory.reached name = .ok table := by
  rw [Memory.reached, h.free]
  simp only [h.found]

/-- A selection answers from the table that it reaches, and no table changes. -/
theorem execute_select_eq {request : Request} {columns : List String}
    (action : request.action = .select columns) (now : Calendar.Instant) (memory : Memory) :
    (memory.execute now request).1 = (memory.reached request.table).map (fun table =>
        Table.answer request columns (table.matching now request)) ∧
      (memory.execute now request).2.tables = memory.tables := by
  cases hfailures : memory.failures with
  | cons message rest =>
      rw [reached, execute, hfailures]
      exact ⟨rfl, rfl⟩
  | nil =>
      cases hfound : memory.tables.get? request.table with
      | some table =>
          rw [execute_select hfailures hfound action, Ready.reached ⟨hfailures, hfound⟩]
          exact ⟨rfl, rfl⟩
      | none =>
          rw [reached, execute, hfailures]
          simp only [apply, hfound]
          exact ⟨rfl, trivial⟩

/-- A call for a selection reads the answer from the table that is reached. -/
theorem fst_run_select {α : Type} (call : Call α) {columns : List String}
    (action : call.request.action = .select columns) (now : Calendar.Instant) (memory : Memory) :
    (call.run (execute now) memory).1 =
      match memory.reached call.request.table with
      | .ok table =>
          call.read (Table.answer call.request columns (table.matching now call.request))
      | .error failure => .error (.store failure) := by
  rw [Call.run_eq, (execute_select_eq action now memory).1]
  cases memory.reached call.request.table <;> rfl

/-- A selection leaves all tables as they are. -/
theorem tables_run_select {α : Type} (call : Call α) {columns : List String}
    (action : call.request.action = .select columns) (now : Calendar.Instant) (memory : Memory) :
    (call.run (execute now) memory).2.tables = memory.tables := by
  rw [Call.run_eq]
  exact (execute_select_eq action now memory).2

/-! ## The calls -/

/-- The rows that a selection of all columns answers with are the rows that match. -/
theorem read_find (name : String) (conditions : Record) (matching : List Record) :
    (Call.find name conditions).read
        (Table.answer (Call.find name conditions).request ["*"] matching) = .ok matching := by
  change Except.ok (matching.map (Table.project ["*"])) = _
  have hproject : Table.project ["*"] = fun row => row := rfl
  rw [hproject, List.map_id']

theorem fst_run_find (now : Calendar.Instant) (memory : Memory) (name : String)
    (conditions : Record) :
    ((Call.find name conditions).run (execute now) memory).1 =
      match memory.reached name with
      | .ok table => .ok (table.rows.filter (conditions.meets now))
      | .error failure => .error (.store failure) := by
  rw [fst_run_select _ rfl]
  change (match memory.reached name with | .ok table => _ | .error failure => _) = _
  cases memory.reached name with
  | error failure => rfl
  | ok table =>
      simp only [read_find]
      rw [Table.matching, ← Record.satisfies_matching now name]
      rfl

theorem fst_run_count (now : Calendar.Instant) (memory : Memory) (name : String)
    (conditions : Record) :
    ((Call.count name (some conditions)).run (execute now) memory).1 =
      match memory.reached name with
      | .ok table => .ok (table.rows.filter (conditions.meets now)).length
      | .error failure => .error (.store failure) := by
  rw [fst_run_select _ rfl]
  change (match memory.reached name with | .ok table => _ | .error failure => _) = _
  cases memory.reached name with
  | error failure => rfl
  | ok table =>
      rw [← Record.satisfies_matching now name]
      rfl

/-- No conditions find what the call for all rows finds. -/
theorem run_find_empty (now : Calendar.Instant) (memory : Memory) (name : String) :
    (Call.find name .empty).run (execute now) memory =
      (Call.all name).run (execute now) memory :=
  rfl

/-- No conditions count what the call without conditions counts. -/
theorem run_count_empty (now : Calendar.Instant) (memory : Memory) (name : String) :
    (Call.count name none).run (execute now) memory =
      (Call.count name (some .empty)).run (execute now) memory :=
  rfl

/-- The number that is counted is the number of rows that are found. -/
theorem counted_of_find (now : Calendar.Instant) (memory : Memory) (name : String)
    (conditions : Record) :
    ((Call.count name (some conditions)).run (execute now) memory).1 =
      ((Call.find name conditions).run (execute now) memory).1.map List.length := by
  rw [fst_run_count, fst_run_find]
  cases memory.reached name <;> rfl

theorem Ready.find (h : memory.Ready name table) (now : Calendar.Instant) (conditions : Record) :
    ((Call.find name conditions).run (execute now) memory).1 =
      .ok (table.rows.filter (conditions.meets now)) := by
  rw [fst_run_find, h.reached]

/-- To count rows is to fetch them and take the length, whatever state the store is in. What is
fetched are the rows that satisfy every condition, in the order of the table, and each further
condition leaves out some of them. None of the calls alters a table. -/
theorem fetches_agree (now : Calendar.Instant) (memory : Memory) (name : String)
    (conditions : Record) : FetchesAgree now memory name conditions where
  counted := counted_of_find now memory name conditions
  countedAll := by
    rw [run_count_empty, ← run_find_empty]
    exact counted_of_find now memory name .empty
  foundAll := run_find_empty now memory name
  found ready := ready.find now conditions
  timeless h := Record.meets_of_timeless h now
  narrowed {table} ready {more} h := by
    refine ⟨_, _, ready.find now conditions, ready.find now more, ?_⟩
    exact List.monotone_filter_right table.rows fun row => Record.meets_of_extends h
  unaltered := by
    refine ⟨tables_run_select _ rfl now memory, tables_run_select _ rfl now memory, ?_⟩
    intro counted
    cases counted <;> exact tables_run_select _ rfl now memory

def flagged : Memory :=
  empty.withRows "notes"
    [.ofList [("done", .bool true), ("title", .text "a")],
      .ofList [("done", .int 1), ("title", .text "b")], .ofList [("done", .bool false)]]

theorem fetches_agree_flagged :
    flagged.Ready "notes" (flagged.table "notes") ∧
      ((Call.count "notes" (some (.ofList [("done", .bool true)]))).run (execute ⟨0, 0⟩) flagged).1 =
        .ok 2 ∧
      ((Call.find "notes" (.ofList [("done", .bool true)])).run (execute ⟨0, 0⟩) flagged).1 =
        .ok [.ofList [("done", .bool true), ("id", .int 1), ("title", .text "a")],
          .ofList [("done", .int 1), ("id", .int 2), ("title", .text "b")]] := by
  have hready : flagged.Ready "notes" (flagged.table "notes") := ⟨rfl, rfl⟩
  have hagree := fetches_agree ⟨0, 0⟩ flagged "notes" (.ofList [("done", .bool true)])
  have hfound := hagree.found hready
  refine ⟨hready, ?_, hfound.trans ?_⟩
  · rw [hagree.counted, hfound]
    rfl
  · rfl

end Memory

end ClosedSql
