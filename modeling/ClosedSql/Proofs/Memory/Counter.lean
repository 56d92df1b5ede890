import ClosedSql.Proofs.Memory.Run
import ClosedSql.Proofs.Number.WholeFloats

/-!
# The counter of a table

A table counts the ids it assigns, and takes note of the ids that rows come with. Ids are read as
integers but compared loosely, so the two agree only on some values: a truth value is not read but
compares as zero or one, and neither is a text such as `1.0`, which compares as a number. Nor is the
counter told of the ids that a change writes. Runs that keep clear of both are orderly, and after an
orderly run no row has an id above the counter.
-/

namespace ClosedSql

open Number

/-! ## Ids that are taken note of -/

namespace Value

/-- Whether the whole number that a value compares as, if there is one above zero, is the integer
that the value is read as, and small enough for a float to tell it from the next. -/
def readsAsCompared (value : Value) : Bool :=
  match value.toFloat?.bind Binary64.toInt? with
  | some n => n ≤ 0 || (n < twoTo 53 && value.toInt64?.map Int64.toInt == some n)
  | none => true

/-- Whether a counter of ids can keep up with a value that stands for an id. -/
def isCountable : Value → Bool
  | .null | .int _ => true
  | .bool b => !b
  | .float x => readsAsCompared (.float x)
  | .text s => readsAsCompared (.text s)

theorem toInt_lt_twoTo (id : Int64) : id.toInt < twoTo 63 := by
  have hbound : twoTo 63 = 9223372036854775808 := by decide
  have hlt := id.toInt_lt
  omega

/-- An id above the integer that a value is read as does not compare as equal to that value. -/
theorem compareAsFloats?_id_ne {value : Value} (h : value.readsAsCompared = true) {id : Int64}
    (hpos : 0 < id) (hread : ∀ read, value.toInt64? = some read → read < id) :
    compareAsFloats? value (.int id) ≠ some .eq := by
  have hidpos : 0 < id.toInt := Int64.lt_iff_toInt_lt.1 hpos
  obtain ⟨number, hnumber⟩ := Int.eq_ofNat_of_zero_le (Int.le_of_lt hidpos)
  have hpositive : 0 < number := by omega
  have hbound : number < twoTo 64 := by
    have hlt := toInt_lt_twoTo id
    have hdouble : twoTo 64 = 2 * twoTo 63 := twoTo_succ 63
    omega
  have hid : (int id).toFloat? = some (.ofInt number) := by
    rw [← hnumber]
    rfl
  rw [readsAsCompared] at h
  rw [compareAsFloats?, hid]
  cases hfloat : value.toFloat? with
  | none => simp
  | some x =>
      rw [hfloat, Option.bind_some] at h
      cases hwhole : x.toInt? with
      | none => exact Binary64.compare?_ofInt_ne_of_not_whole hwhole hpositive hbound
      | some n =>
          simp only [hwhole, Bool.or_eq_true, Bool.and_eq_true, decide_eq_true_eq, beq_iff_eq,
            Option.map_eq_some_iff] at h
          rcases h with hle | ⟨hlt, read, hvalue, rfl⟩
          · have hsmall : n < twoTo 53 := Int.lt_of_le_of_lt hle (by decide)
            exact Binary64.compare?_ofInt_ne_of_lt hwhole hsmall hpositive hbound (by omega)
          · have hless := Int64.lt_iff_toInt_lt.1 (hread read hvalue)
            rw [hnumber] at hless
            exact Binary64.compare?_ofInt_ne_of_lt hwhole hlt hpositive hbound hless

/-- A value that is read as no greater integer, and that can be taken note of, does not equal an
id. -/
theorem compare?_id_ne {value : Value} (h : value.isCountable = true) {id : Int64} (hpos : 0 < id)
    (hread : ∀ read, value.toInt64? = some read → read < id) :
    value.compare? (.int id) ≠ some .eq := by
  have hidpos : 0 < id.toInt := Int64.lt_iff_toInt_lt.1 hpos
  cases value with
  | null => simp [compare?]
  | bool b =>
      cases b with
      | true => cases h
      | false =>
          have hne : ¬(ofBit false).toInt = id.toInt := by
            intro heq
            rw [← heq] at hidpos
            exact absurd hidpos (by decide)
          simpa [compare?] using hne
  | int n =>
      have hlt := Int64.lt_iff_toInt_lt.1 (hread n rfl)
      have hne : ¬n.toInt = id.toInt := by omega
      simpa [compare?] using hne
  | float x => exact compareAsFloats?_id_ne h hpos hread
  | text s => exact compareAsFloats?_id_ne h hpos hread

end Value

/-! ## Tables -/

/-- A row satisfies an equation if it has the column with a value that compares as equal. -/
theorem Filter.holds_equals_iff {column : String} {value : Value} {row : Record} :
    (Filter.equals column value).holds row = true ↔
      ∃ own, row.get? column = some own ∧ own.compare? value = some .eq := by
  unfold holds equals
  cases row.get? column with
  | none => simp
  | some own =>
      cases hcompare : own.compare? value with
      | none => simp [hcompare]
      | some order => cases order <;> simp [hcompare, CompareOp.holds]

namespace Table

/-- Whether a row may be added: its id can be taken note of, or there is a next id for it. -/
def admits (table : Table) (idColumn : String) (row : Record) : Bool :=
  match row.get? idColumn with
  | some id => id.isCountable
  | none => table.lastId < Int64.maxValue

/-- No row has an id above the highest of the table, or one that would be taken for it. -/
structure Counts (idColumn : String) (table : Table) : Prop where
  nonneg : 0 ≤ table.lastId
  fresh : ∀ row ∈ table.rows, ∀ id : Int64, table.lastId < id →
    (Filter.equals idColumn (.int id)).holds row = false

variable {idColumn : String} {table : Table}

theorem counts_empty (idColumn : String) : empty.Counts idColumn where
  nonneg := Int64.le_refl _
  fresh := by
    intro row hrow
    cases hrow

/-- The next id is above the highest. -/
theorem toInt_lastId_add_one (h : table.lastId < Int64.maxValue) :
    (table.lastId + 1).toInt = table.lastId.toInt + 1 := by
  have hlt := Int64.lt_iff_toInt_lt.1 h
  have hmax : Int64.maxValue.toInt = 9223372036854775807 := by decide
  have hle := table.lastId.le_toInt
  rw [hmax] at hlt
  rw [Int64.toInt_add]
  have hone : (1 : Int64).toInt = 1 := by decide
  rw [hone]
  exact Int.bmod_eq_of_le (by omega) (by omega)

theorem identify_of_none (table : Table) {row : Record} (h : row.get? idColumn = none) :
    table.identify idColumn row =
      (row.insert idColumn (.int (table.lastId + 1)), table.lastId + 1) := by
  rw [identify, h]

/-- A row with an id is kept as it is, and the highest id is at least what it is read as. -/
theorem identify_of_some (table : Table) {row : Record} {value : Value}
    (h : row.get? idColumn = some value) :
    (table.identify idColumn row).1 = row ∧
      table.lastId ≤ (table.identify idColumn row).2 ∧
      ∀ read, value.toInt64? = some read → read ≤ (table.identify idColumn row).2 := by
  rw [identify, h]
  dsimp only
  cases hread : value.toInt64? with
  | none => exact ⟨rfl, Int64.le_refl _, by simp⟩
  | some read =>
      refine ⟨rfl, ?_, ?_⟩
      · dsimp only
        split
        · next hlt => exact Int64.le_of_lt hlt
        · exact Int64.le_refl _
      · rintro _ ⟨⟩
        dsimp only
        split
        · exact Int64.le_refl _
        · next hge => exact Int64.not_lt.1 hge

/-- A row that is admitted is stored with an id that can be taken note of, and the highest id is at
least what that is read as. -/
theorem identify_spec {row : Record} (h : table.admits idColumn row = true) :
    ∃ id : Value, (table.identify idColumn row).1.get? idColumn = some id ∧
      id.isCountable = true ∧ table.lastId ≤ (table.identify idColumn row).2 ∧
      ∀ read, id.toInt64? = some read → read ≤ (table.identify idColumn row).2 := by
  rw [admits] at h
  cases hid : row.get? idColumn with
  | none =>
      rw [hid] at h
      have hnext := toInt_lastId_add_one (of_decide_eq_true h)
      rw [table.identify_of_none hid]
      refine ⟨.int (table.lastId + 1), ?_, rfl, Int64.le_iff_toInt_le.2 (by dsimp only; omega), ?_⟩
      · rw [NameMap.get?_insert, if_pos rfl]
      · rintro _ ⟨⟩
        exact Int64.le_refl _
  | some value =>
      rw [hid] at h
      obtain ⟨hkept, hrise, hread⟩ := table.identify_of_some hid
      refine ⟨value, ?_, h, hrise, hread⟩
      rw [hkept]
      exact hid

/-- A row that is added leaves the highest id above all those that count. -/
theorem Counts.add (h : table.Counts idColumn) {row : Record}
    (hrow : table.admits idColumn row = true) : (table.add idColumn row).Counts idColumn := by
  obtain ⟨value, hvalue, hcountable, hrise, hread⟩ := identify_spec hrow
  have hnonneg : 0 ≤ (table.identify idColumn row).2 := Int64.le_trans h.nonneg hrise
  refine ⟨hnonneg, ?_⟩
  intro other hother id hlt
  rcases List.mem_append.1 hother with hother | hother
  · exact h.fresh other hother id (Int64.lt_of_le_of_lt hrise hlt)
  -- what is left is the row itself, whose id the counter has just been told
  rw [List.mem_singleton.1 hother, Bool.eq_false_iff, ne_eq, Filter.holds_equals_iff]
  rintro ⟨own, hown, hsame⟩
  rw [hvalue] at hown
  cases hown
  refine Value.compare?_id_ne hcountable (Int64.lt_of_le_of_lt hnonneg hlt) ?_ hsame
  intro read hreads
  exact Int64.lt_of_le_of_lt (hread read hreads) hlt

/-- Rows may be changed in every column but that of the ids. -/
theorem Counts.change (h : table.Counts idColumn) {values : Record}
    (hvalues : values.get? idColumn = none) (concerned : Record → Bool) :
    Counts idColumn { table with
      rows := table.rows.map fun row => if concerned row then row.merge values else row } where
  nonneg := h.nonneg
  fresh := by
    intro row hrow id hlt
    obtain ⟨before, hbefore, rfl⟩ := List.mem_map.1 hrow
    have hsame : (if concerned before then before.merge values else before).get? idColumn =
        before.get? idColumn := by
      split
      · rw [NameMap.get?_merge, hvalues, Option.none_or]
      · rfl
    have hfresh := h.fresh before hbefore id hlt
    rw [Bool.eq_false_iff, ne_eq, Filter.holds_equals_iff] at hfresh ⊢
    rwa [hsame]

/-- Removing rows leaves no id above the highest. -/
theorem Counts.remove (h : table.Counts idColumn) (keeps : Record → Bool) :
    Counts idColumn { table with rows := table.rows.filter keeps } where
  nonneg := h.nonneg
  fresh := by
    intro row hrow id hlt
    exact h.fresh row (List.mem_filter.1 hrow).1 id hlt

end Table

/-! ## Runs -/

namespace Memory

/-- Whether an event leaves it to the table to assign ids: a row that is added comes with an id that
can be taken note of or gets the next one, and no change writes an id. -/
def Event.isOrderly (memory : Memory) : Event → Bool
  | .create _ | .failNext _ => true
  | .seed name row => (memory.table name).admits memory.idColumn row
  | .serve now request =>
      match request.action with
      | .insert record =>
          (memory.table request.table).admits memory.idColumn (record.resolveNow now)
      | .update values => (values.get? memory.idColumn).isNone
      | .select _ | .delete => true

/-- Whether every event of a run is orderly when it happens. -/
def isOrderly (memory : Memory) : List Event → Bool
  | [] => true
  | event :: rest => event.isOrderly memory && (memory.step event).isOrderly rest

/-- No table has a row with an id above its highest. -/
def Counts (memory : Memory) : Prop :=
  ∀ name, (memory.table name).Counts memory.idColumn

/-- An orderly event keeps the ids of its table at or below the highest. -/
theorem counts_of_effect {memory : Memory} {event : Event} {name : String} {before after : Table}
    (h : before.Counts memory.idColumn) (hbefore : memory.table name = before)
    (horderly : event.isOrderly memory = true)
    (heffect : Effect memory.idColumn name event before after) :
    after.Counts memory.idColumn := by
  cases heffect with
  | kept => exact h
  | seeded row =>
      rw [Event.isOrderly, hbefore] at horderly
      exact h.add horderly
  | inserted target action =>
      rw [Event.isOrderly, action] at horderly
      dsimp only at horderly
      rw [target, hbefore] at horderly
      exact h.add horderly
  | changed target action concerned =>
      rw [Event.isOrderly, action] at horderly
      dsimp only at horderly
      rw [Option.isNone_iff_eq_none] at horderly
      apply h.change
      rw [Record.resolveNow, NameMap.get?_mapValues, horderly, Option.map_none]
  | removed target action keeps => exact h.remove keeps

/-- An orderly event keeps all ids at or below the highest of their tables. -/
theorem Counts.step {memory : Memory} (h : memory.Counts) {event : Event}
    (horderly : event.isOrderly memory = true) : (memory.step event).Counts := by
  intro name
  rw [idColumn_step]
  exact counts_of_effect (h name) rfl horderly (effect_step memory event name)

/-- An orderly run keeps all ids at or below the highest of their tables. -/
theorem Counts.run {memory : Memory} (h : memory.Counts) {events : List Event}
    (horderly : memory.isOrderly events = true) : (memory.run events).Counts := by
  induction events generalizing memory with
  | nil => exact h
  | cons event rest ih =>
      rw [isOrderly, Bool.and_eq_true] at horderly
      rw [Memory.run, List.foldl_cons]
      exact ih (h.step horderly.1) horderly.2

theorem counts_withIdColumn (column : String) : (empty.withIdColumn column).Counts :=
  fun _ => Table.counts_empty column

end Memory

end ClosedSql
