import ClosedSql.Proofs.Database.MutationSafety

/-!
# Requests that both kinds of store admit

Tables in memory refuse to change or delete every row, so they look at the filters. A request is
written as SQL unless it changes rows and sets no column, so there the columns are looked at.
Neither looks at what the other refuses. The two admit the same requests but for those that do one
of the two things without the other.
-/

namespace ClosedSql

/-- The request changes or deletes rows, and nothing says which. -/
def Request.Sweeps (request : Request) : Prop :=
  request.Alters ∧ request.filters = []

/-- SQL cannot be written for changes that set no column, and for these alone. -/
theorem Request.exists_error_toQuery_iff {request : Request} :
    (∃ failure, request.toQuery = .error failure) ↔ request.action = .update .empty := by
  rw [toQuery]
  cases hsets : request.setsNothing with
  | true =>
      simp only [if_true, Except.error.injEq, exists_eq', true_iff]
      rw [setsNothing] at hsets
      split at hsets
      · next values haction => rw [haction, NameMap.isEmpty_iff.1 hsets]
      · cases hsets
  | false =>
      simp only [Bool.false_eq_true, if_false, reduceCtorEq, exists_false, false_iff]
      intro haction
      rw [setsNothing, haction] at hsets
      cases hsets

namespace Memory

variable {request : Request}

/-- A store in memory refuses just those requests that sweep. -/
theorem exists_refusal?_iff : (∃ failure, refusal? request = some failure) ↔ request.Sweeps := by
  simp only [refusal?, Request.Sweeps, Request.Alters, List.isEmpty_iff]
  split
  · next hfilters => cases haction : request.action <;> simp [hfilters]
  · next hfilters => simp [hfilters]

/-- A request on a table that is there fails, unless a failure is due, for want of a filter only. -/
theorem exists_error_execute_iff {memory : Memory} {table : Table} (free : memory.failures = [])
    (found : memory.tables.get? request.table = some table) (now : Calendar.Instant) :
    (∃ failure, (memory.execute now request).1 = .error failure) ↔ request.Sweeps := by
  rw [← exists_refusal?_iff]
  have hserved := served now request memory
  generalize memory.execute now request = outcome at hserved ⊢
  cases hserved with
  | doomed due => simp [free] at due
  | missing _ absent => simp [found] at absent
  | refused _ _ refusal => simp [refusal]
  | answered _ _ accepted => simp [accepted]

/-- Where a table is there and no failure is due, tables in memory fail for the changes and
deletions without a filter, and SQL cannot be written for the changes that set no column. So the two
judge a request differently exactly if it deletes rows without a filter, changes some columns of
rows without a filter, or changes no column of rows that its filters select. -/
theorem admits_as_written_iff {memory : Memory} {table : Table} (free : memory.failures = [])
    (found : memory.tables.get? request.table = some table) (now : Calendar.Instant) :
    ((∃ failure, (memory.execute now request).1 = .error failure) ↔
        request.Alters ∧ request.filters = []) ∧
      ((∃ failure, request.toQuery = .error failure) ↔ request.action = .update .empty) ∧
      (((∃ failure, (memory.execute now request).1 = .error failure) ↔
          ∃ failure, request.toQuery = .error failure) ↔
        (request.Alters → (request.filters = [] ↔ request.action = .update .empty))) := by
  have hexecute := exists_error_execute_iff free found now
  refine ⟨hexecute, Request.exists_error_toQuery_iff, ?_⟩
  rw [hexecute, Request.exists_error_toQuery_iff, Request.Sweeps]
  constructor
  · intro hagree halters
    rw [← hagree]
    exact (and_iff_right halters).symm
  · intro hagree
    constructor
    · rintro ⟨halters, hfilters⟩
      exact (hagree halters).1 hfilters
    · intro haction
      have halters : request.Alters := .inr ⟨_, haction⟩
      exact ⟨halters, (hagree halters).2 haction⟩

def oneNote : Memory :=
  empty.withRows "notes" [.ofList [("title", .text "a")]]

def settingNothing : Request :=
  (Request.update "notes" .empty).filter (.equals "id" (.int 1))

theorem admits_as_written_iff_settingNothing :
    ∃ table, oneNote.failures = [] ∧ oneNote.tables.get? settingNothing.table = some table ∧
      ((∃ failure, (oneNote.execute ⟨0, 0⟩ settingNothing).1 = .error failure) ↔
        settingNothing.Alters ∧ settingNothing.filters = []) ∧
      ((∃ failure, settingNothing.toQuery = .error failure) ↔
        settingNothing.action = .update .empty) ∧
      (((∃ failure, (oneNote.execute ⟨0, 0⟩ settingNothing).1 = .error failure) ↔
          ∃ failure, settingNothing.toQuery = .error failure) ↔
        (settingNothing.Alters →
          (settingNothing.filters = [] ↔ settingNothing.action = .update .empty))) :=
  ⟨_, rfl, rfl, admits_as_written_iff rfl rfl ⟨0, 0⟩⟩

/-- A deletion without a filter is refused by tables in memory and written as SQL; of a change that
sets no column of a row the opposite is true. -/
theorem refuses_what_is_written :
    (oneNote.execute ⟨0, 0⟩ (Request.delete "notes")).1 = .error (.unfilteredDelete "notes") ∧
      (Request.delete "notes").toQuery = .ok ⟨"DELETE FROM \"notes\"", []⟩ ∧
      (oneNote.execute ⟨0, 0⟩ settingNothing).1 = .ok .empty ∧
      settingNothing.toQuery = .error (.noValues "notes") :=
  ⟨rfl, rfl, rfl, rfl⟩

end Memory

end ClosedSql
