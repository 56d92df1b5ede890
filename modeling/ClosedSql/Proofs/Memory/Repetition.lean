import ClosedSql.Proofs.Database.MutationSafety
import ClosedSql.Proofs.Database.RowById

/-!
# Requests made again

A change writes the same values into every row that matches. A row that still matches afterwards is
overwritten with what it has already, and a row that does not is left as it is, also where the
change writes a column that its own filters read. So a change or a deletion can be made again
without effect. The filters of a request are joined by `and`, and their order plays no part.
-/

namespace ClosedSql

/-- What a change or a deletion comes to when it is made once and then again: it is served both
times, and the second time alters no table. -/
structure Repeated (request : Request) (once twice : Except Failure RowSet × Memory) : Prop where
  served : ∃ first, once.1 = .ok first
  servedAgain : ∃ second, twice.1 = .ok second ∧ (request.action = .delete → second.rows = [])
  unaltered : twice.2.tables = once.2.tables

/-! ## Rows -/

/-- A change that overwrites some rows with given values is its own repetition, whichever rows
those are. -/
theorem map_merge_map_merge (test : Record → Bool) (values : Record) (rows : List Record) :
    ((rows.map fun row => if test row then row.merge values else row).map fun row =>
        if test row then row.merge values else row) =
      rows.map fun row => if test row then row.merge values else row := by
  rw [List.map_map]
  apply List.map_congr_left
  intro row _
  rw [Function.comp_apply]
  cases hrow : test row with
  | false => rw [if_neg Bool.false_ne_true, hrow, if_neg Bool.false_ne_true]
  | true =>
      rw [if_pos rfl]
      -- the row may match again or not: it holds the values in either case
      cases test (row.merge values) with
      | true => rw [if_pos rfl, NameMap.merge_merge]
      | false => rw [if_neg Bool.false_ne_true]

/-- The order of filters does not matter to a row. -/
theorem satisfies_perm {filters others : List Filter} (h : filters.Perm others) :
    satisfies filters = satisfies others := by
  funext row
  exact h.all_eq

namespace Memory

variable {now : Calendar.Instant} {request : Request} {memory : Memory} {table : Table}

/-! ## Serving a request again -/

/-- A change or a deletion leaves the table as it finds it if it was made there before. -/
theorem serve_serve (h : request.Alters) (idColumn : String) (now : Calendar.Instant)
    (table : Table) :
    (serve idColumn now request (serve idColumn now request table).2).2 =
      (serve idColumn now request table).2 := by
  rcases h with action | ⟨values, action⟩
  · simp only [serve, action, List.filter_filter, Bool.and_self]
  · simp only [serve, action]
    rw [map_merge_map_merge]

/-- A deletion answers without rows if it was made before. -/
theorem rows_serve_serve_delete (action : request.action = .delete) (idColumn : String)
    (now : Calendar.Instant) (table : Table) :
    (serve idColumn now request (serve idColumn now request table).2).1.rows = [] := by
  simp only [serve, action]
  have hnone : (table.rows.filter fun row =>
      !satisfies (request.filters.map (Filter.resolveNow now)) row).filter
        (satisfies (request.filters.map (Filter.resolveNow now))) = [] := by
    rw [List.filter_filter, List.filter_eq_nil_iff]
    simp
  rw [hnone]
  split <;> rfl

theorem refusal?_of_filters_ne_nil (h : request.filters ≠ []) : refusal? request = none := by
  rw [refusal?, if_neg fun hempty => h (List.isEmpty_iff.1 hempty)]

/-- A store that is ready serves what it accepts. -/
theorem Ready.execute (h : memory.Ready request.table table) (accepted : refusal? request = none)
    (now : Calendar.Instant) :
    memory.execute now request =
      (.ok (serve memory.idColumn now request table).1,
        memory.leaving request (serve memory.idColumn now request table).2) :=
  execute_of_accepted h.free h.found accepted now

/-- A mutation made twice alters no table the second time. -/
theorem Ready.repeated (h : memory.Ready request.table table) (alters : request.Alters)
    (filtered : request.filters ≠ []) :
    Repeated request (memory.execute now request)
      ((memory.execute now request).2.execute now request) := by
  have haccepted := refusal?_of_filters_ne_nil filtered
  have honce := h.execute haccepted now
  have hready := h.leaving request rfl (serve memory.idColumn now request table).2
  have htwice := hready.execute haccepted now
  rw [honce, htwice]
  refine ⟨⟨_, rfl⟩, ⟨_, rfl, fun action => rows_serve_serve_delete action _ _ _⟩, ?_⟩
  change (((memory.leaving request _).leaving request
    (serve memory.idColumn now request _).2)).tables = _
  rw [serve_serve alters]
  exact hready.tables_leaving

/-! ## Filters in another order -/

theorem refusal?_perm {filters : List Filter} (h : filters.Perm request.filters) :
    refusal? { request with filters := filters } = refusal? request := by
  have hempty : filters.isEmpty = request.filters.isEmpty := by
    rw [Bool.eq_iff_iff, List.isEmpty_iff, List.isEmpty_iff]
    exact ⟨fun hnil => (hnil ▸ h).nil_eq.symm, fun hnil => (hnil ▸ h).eq_nil⟩
  simp only [refusal?, hempty]

/-- The order of filters does not matter to a table. -/
theorem serve_perm {filters : List Filter} (h : filters.Perm request.filters) (idColumn : String)
    (now : Calendar.Instant) (table : Table) :
    serve idColumn now { request with filters := filters } table =
      serve idColumn now request table := by
  have hsatisfies := satisfies_perm (h.map (Filter.resolveNow now))
  simp only [serve, hsatisfies]
  rfl

theorem execute_perm {filters : List Filter} (h : filters.Perm request.filters) (memory : Memory)
    (now : Calendar.Instant) :
    (memory.execute now { request with filters := filters }).1 = (memory.execute now request).1 ∧
      (memory.execute now { request with filters := filters }).2.tables =
        (memory.execute now request).2.tables := by
  obtain ⟨idColumn, tables, requests, failures⟩ := memory
  cases failures with
  | cons message rest => exact ⟨rfl, rfl⟩
  | nil =>
      simp only [execute, apply, refusal?_perm h, serve_perm h]
      cases tables.get? request.table with
      | none => exact ⟨rfl, rfl⟩
      | some table => cases refusal? request <;> exact ⟨rfl, rfl⟩

/-- To make a change or a deletion again at the same time is harmless: it is served and alters
nothing, and a deletion finds nothing to delete. The filters of a request, be it a change, a
deletion or a selection, may come in any order: the answer is the same, and so are the tables. -/
theorem repeated_and_reordered (now : Calendar.Instant) (memory : Memory) :
    (∀ {request table}, memory.Ready request.table table → request.Alters →
        request.filters ≠ [] →
        Repeated request (memory.execute now request)
          ((memory.execute now request).2.execute now request)) ∧
      ∀ {request filters}, filters.Perm request.filters →
        (memory.execute now { request with filters := filters }).1 =
            (memory.execute now request).1 ∧
          (memory.execute now { request with filters := filters }).2.tables =
            (memory.execute now request).2.tables := by
  refine ⟨fun ready alters filtered => ready.repeated alters filtered, ?_⟩
  intro request filters hperm
  exact execute_perm hperm memory now

def retitling : Request :=
  ((Request.update "notes" (.ofList [("title", .text "b")])).filter
    (.equals "title" (.text "a"))).filter ⟨"id", .lt, .int 2⟩

def twoNotes : Memory :=
  empty.withRows "notes" [.ofList [("title", .text "a")], .ofList [("title", .text "a")]]

theorem repeated_and_reordered_retitling :
    twoNotes.Ready "notes" (twoNotes.table "notes") ∧ retitling.Alters ∧ retitling.filters ≠ [] ∧
      retitling.filters.reverse.Perm retitling.filters ∧
      Repeated retitling (twoNotes.execute ⟨0, 0⟩ retitling)
        ((twoNotes.execute ⟨0, 0⟩ retitling).2.execute ⟨0, 0⟩ retitling) ∧
      (twoNotes.execute ⟨0, 0⟩ { retitling with filters := retitling.filters.reverse }).1 =
        (twoNotes.execute ⟨0, 0⟩ retitling).1 ∧
      (twoNotes.execute ⟨0, 0⟩ retitling).2.rows "notes" =
        [.ofList [("id", .int 1), ("title", .text "b")],
          .ofList [("id", .int 2), ("title", .text "a")]] := by
  have hready : twoNotes.Ready "notes" (twoNotes.table "notes") := ⟨rfl, rfl⟩
  have halters : retitling.Alters := .inr ⟨_, rfl⟩
  have hfilters : retitling.filters ≠ [] := List.cons_ne_nil _ _
  have hperm := List.reverse_perm retitling.filters
  obtain ⟨hrepeated, hreordered⟩ := repeated_and_reordered ⟨0, 0⟩ twoNotes
  exact ⟨hready, halters, hfilters, hperm, hrepeated hready halters hfilters,
    (hreordered hperm).1, rfl⟩

end Memory

end ClosedSql
