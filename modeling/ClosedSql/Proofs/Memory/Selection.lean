import ClosedSql.Proofs.Memory.Arrangement
import ClosedSql.Proofs.Memory.Service
import Mathlib.Data.List.Forall2

/-!
# Selections

A selection finds the rows that match, brings them in order, cuts them off at the limit and takes
the columns asked for, one after the other. So the order may be by a column that is not asked for,
the count is that of all rows that match, and a smaller limit answers with the beginning of what a
larger one does.
-/

namespace ClosedSql

/-- What is taken of a row: all of it if a star is among the columns, and otherwise the columns
asked for that it has. -/
def Projects (columns : List String) (row projected : Record) : Prop :=
  if "*" ∈ columns then projected = row
  else ∀ column, projected.get? column = if column ∈ columns then row.get? column else none

/-- How many of a number of rows a limit leaves. -/
def Request.leaves (request : Request) (count : Nat) : Nat :=
  match request.limit with
  | some limit => min limit.toNat count
  | none => count

/-- What a selection answers with, given the rows that match as they stand in their table. -/
structure Selected (request : Request) (columns : List String) (matching : List Record)
    (answer : RowSet) : Prop where
  /-- The first rows of their only arrangement, as many as the limit leaves. -/
  rows : request.head = false → ∃ arranged,
    (∀ other, Table.InOrder matching request.order other ↔ other = arranged) ∧
      List.Forall₂ (Projects columns) (arranged.take (request.leaves matching.length)) answer.rows
  headless : request.head = true → answer.rows = []
  count : answer.count = if request.counted then some matching.length else none

/-! ## The columns asked for -/

/-- Of a record only the columns asked for are left. -/
theorem Record.get?_project (record : Record) (columns : List String) (column : String) :
    (Record.project record columns).get? column =
      if column ∈ columns then record.get? column else none := by
  have hentry : ∀ {value}, (Record.project record columns).get? column = some value →
      column ∈ columns ∧ record.get? column = some value := by
    intro value hget
    have hmem := NameMap.mem_of_mem_ofList (NameMap.get?_eq_some_iff.1 hget)
    obtain ⟨asked, hasked, hpair⟩ := List.mem_filterMap.1 hmem
    obtain ⟨found, hfound, heq⟩ := Option.map_eq_some_iff.1 hpair
    cases heq
    exact ⟨hasked, hfound⟩
  cases hget : (Record.project record columns).get? column with
  | some value =>
      obtain ⟨hmem, hvalue⟩ := hentry hget
      rw [if_pos hmem, hvalue]
  | none =>
      split
      · next hmem =>
          cases hvalue : record.get? column with
          | none => rfl
          | some value =>
              -- the column would be among the names of the projection
              have hpair : (column, value) ∈ columns.filterMap fun column =>
                  (record.get? column).map fun value => (column, value) :=
                List.mem_filterMap.2 ⟨column, hmem, by rw [hvalue]; rfl⟩
              have hname : column ∈ (Record.project record columns).names :=
                NameMap.mem_names_ofList.2 (List.mem_map_of_mem hpair)
              obtain ⟨⟨_, other⟩, hother, rfl⟩ := List.mem_map.1 hname
              rw [NameMap.get?_eq_some_iff.2 hother] at hget
              cases hget
      · rfl

theorem projects_project (columns : List String) (row : Record) :
    Projects columns row (Table.project columns row) := by
  rw [Projects, Table.project, asksForAll]
  by_cases hstar : "*" ∈ columns
  · rw [if_pos hstar, if_pos (List.contains_iff_mem.2 hstar)]
  · rw [if_neg hstar, if_neg (fun h => hstar (List.contains_iff_mem.1 h))]
    exact Record.get?_project row columns

/-! ## The answer -/

namespace Table

theorem length_sort (rows : List Record) (order : Option OrderBy) :
    (sort rows order).length = rows.length := by
  cases order with
  | none => rfl
  | some order => exact List.length_mergeSort rows

/-- The limit cuts off all but the rows that it leaves. -/
theorem cut_sort_eq_take (request : Request) (rows : List Record) :
    cut (sort rows request.order) request.limit =
      (sort rows request.order).take (request.leaves rows.length) := by
  rw [cut.eq_def, Request.leaves]
  cases request.limit with
  | none => rw [← length_sort rows request.order, List.take_length]
  | some limit =>
      simp only
      rw [← length_sort rows request.order, ← List.take_take, List.take_length]

/-- A smaller limit gives a prefix of what a larger one gives. -/
theorem cut_prefix_cut {rows : List Record} {limit : UInt64} {larger : Option UInt64}
    (h : ∀ other ∈ larger, limit ≤ other) : cut rows (some limit) <+: cut rows larger := by
  cases larger with
  | none => exact List.take_prefix _ _
  | some other =>
      have hle : limit.toNat ≤ other.toNat := UInt64.le_iff_toNat_le.1 (h other rfl)
      exact List.take_prefix_take_left hle

/-- A selection answers with the rows in order, cut and projected. -/
theorem selected_answer {request : Request} {matching : List Record} (columns : List String)
    (h : ∀ order ∈ request.order, Preordered order.column matching) :
    Selected request columns matching (answer request columns matching) where
  rows hhead := by
    refine ⟨sort matching request.order, fun other => inOrder_iff h, ?_⟩
    rw [answer, hhead, if_neg Bool.false_ne_true, cut_sort_eq_take]
    refine List.forall₂_map_right_iff.2 (List.forall₂_same.2 ?_)
    intro row _
    exact projects_project columns row
  headless hhead := by
    rw [answer, hhead, if_pos rfl]
  count := rfl

end Table

namespace Memory

variable {memory : Memory} {request : Request} {table : Table} {columns : List String}

/-- A selection on a table that is there answers with the rows that match, in order, cut off at the
limit and with the columns asked for, in whichever way they are ordered by a total preorder. It
leaves the table alone, and a smaller limit answers with the beginning of the rows. -/
theorem execute_selected (free : memory.failures = [])
    (found : memory.tables.get? request.table = some table)
    (action : request.action = .select columns) (now : Calendar.Instant)
    (hpreordered : ∀ order ∈ request.order,
      Table.Preordered order.column (table.matching now request)) :
    ∃ answer, memory.execute now request = (.ok answer, memory.recording request) ∧
      Selected request columns (table.matching now request) answer ∧
      ∀ limit, (∀ larger ∈ request.limit, limit ≤ larger) → ∃ fewer,
        memory.execute now (request.limitTo limit) =
            (.ok fewer, memory.recording (request.limitTo limit)) ∧
          fewer.rows <+: answer.rows ∧ fewer.count = answer.count := by
  refine ⟨_, execute_select free found action now,
    Table.selected_answer columns hpreordered, ?_⟩
  intro limit hlimit
  have hfound : memory.tables.get? (request.limitTo limit).table = some table := found
  refine ⟨_, execute_select free hfound action now, ?_, rfl⟩
  change (if request.head then [] else _) <+: (if request.head then [] else _)
  cases request.head with
  | true => exact List.prefix_rfl
  | false => exact (Table.cut_prefix_cut hlimit).map (Table.project columns)

def rankedNotes : Memory :=
  empty.withRows "notes"
    [.ofList [("title", .text "a"), ("rank", .float (.ofInt 1))],
      .ofList [("title", .text "b"), ("rank", .int 2)],
      .ofList [("title", .text "c"), ("rank", .bool true)],
      .ofList [("title", .text "d")],
      .ofList [("title", .text "e"), ("rank", .int 1)]]

def rankedTitles : Request :=
  (((Request.select "notes" ["title"]).orderBy ⟨"rank", false⟩).limitTo 4).counting

theorem execute_selected_rankedTitles : ∃ table, rankedNotes.failures = [] ∧
    rankedNotes.tables.get? rankedTitles.table = some table ∧
    rankedTitles.action = .select ["title"] ∧
    (∀ order ∈ rankedTitles.order,
      Table.Preordered order.column (table.matching ⟨0, 0⟩ rankedTitles)) ∧
    ∃ answer,
      rankedNotes.execute ⟨0, 0⟩ rankedTitles = (.ok answer, rankedNotes.recording rankedTitles) ∧
        Selected rankedTitles ["title"] (table.matching ⟨0, 0⟩ rankedTitles) answer ∧
        ∀ limit, (∀ larger ∈ rankedTitles.limit, limit ≤ larger) → ∃ fewer,
          rankedNotes.execute ⟨0, 0⟩ (rankedTitles.limitTo limit) =
              (.ok fewer, rankedNotes.recording (rankedTitles.limitTo limit)) ∧
            fewer.rows <+: answer.rows ∧ fewer.count = answer.count := by
  have hpreordered : ∀ order ∈ rankedTitles.order,
      Table.Preordered order.column
        ((rankedNotes.table "notes").matching ⟨0, 0⟩ rankedTitles) := by
    decide +kernel
  exact ⟨rankedNotes.table "notes", rfl, rfl, rfl, hpreordered,
    execute_selected rfl rfl rfl ⟨0, 0⟩ hpreordered⟩

end Memory

end ClosedSql
