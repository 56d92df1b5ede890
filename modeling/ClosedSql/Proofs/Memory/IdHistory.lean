import ClosedSql.Proofs.Memory.Counter
import ClosedSql.Proofs.Memory.Failures
import ClosedSql.Proofs.Text.Folding

/-!
# The ids of a run

The rows that a run adds to a table come with ids or are assigned some. In the order in which they
are added their ids make a history, which goes on when the rows are changed or deleted. The counter
of the table is never below an id of the history, and an assigned id is the one after it; so an id
is assigned once, and never after a row has come with it or with a greater one.
-/

namespace ClosedSql

/-! ## Ids that are read survive being stored -/

namespace Number

/-- An integer is made of digits and a sign. -/
theorem isDigit_or_sign_of_readInt64? {text : List Char} {n : Int64}
    (h : readInt64? text = some n) {c : Char} (hc : c ∈ text) :
    c.isDigit = true ∨ c = '-' ∨ c = '+' := by
  have hdigits : isDigits (readSign text).2 = true := by
    cases hsplit : isDigits (readSign text).2 with
    | true => rfl
    | false => simp [readInt64?, hsplit] at h
  unfold readSign at hdigits
  split at hdigits
  · rcases List.mem_cons.1 hc with rfl | hc
    · exact .inr (.inl rfl)
    · exact .inl (isDigit_of_isDigits hdigits hc)
  · rcases List.mem_cons.1 hc with rfl | hc
    · exact .inr (.inr rfl)
    · exact .inl (isDigit_of_isDigits hdigits hc)
  · exact .inl (isDigit_of_isDigits hdigits hc)

end Number

namespace Value

/-- What asks for the current time is not read as an id. -/
theorem toInt64?_of_asksForNow {value : Value} (h : value.asksForNow = true) :
    value.toInt64? = none := by
  cases value with
  | text s =>
      rw [asksForNow, Text.sameIgnoringCase_iff] at h
      have hn : 'n' ∈ Text.lower (Text.trim s.toList) := by
        rw [h]
        decide
      obtain ⟨c, hc, hlower⟩ := List.mem_map.1 hn
      cases hread : (Value.text s).toInt64? with
      | none => rfl
      | some id =>
          -- neither a digit nor a sign is an `n` in any case
          rcases Number.isDigit_or_sign_of_readInt64? hread hc with hdigit | rfl | rfl
          · have hkept := Text.toLower_of_not_isUpper fun hupper =>
              Text.not_isAlpha_of_isDigit hdigit (Text.isAlpha_iff.2 (.inl hupper))
            rw [hkept] at hlower
            subst hlower
            exact absurd hdigit (by decide)
          · exact absurd hlower (by decide)
          · exact absurd hlower (by decide)
  | null => rfl
  | bool b => rfl
  | int n => cases h
  | float x => cases h

/-- A value that is read as an integer does not ask for the current time. -/
theorem resolveNow_of_toInt64? {value : Value} {id : Int64} (h : value.toInt64? = some id)
    (now : Calendar.Instant) : value.resolveNow now = value := by
  unfold resolveNow
  split
  · next hnow =>
      rw [toInt64?_of_asksForNow hnow] at h
      cases h
  · rfl

end Value

namespace Memory

/-! ## Histories -/

/-- How an id comes into a table: the table assigns it to a row, or a row comes with it. -/
inductive IdUse
  | assigned (id : Int64)
  | carried (id : Int64)
deriving DecidableEq

def IdUse.id : IdUse → Int64
  | assigned id | carried id => id

def IdUse.assigned? : IdUse → Option Int64
  | assigned id => some id
  | carried _ => none

/-- The row that an event adds to the table of a name, as it was given. -/
def added? (memory : Memory) (name : String) : Event → Option Record
  | .seed table row => if table = name then some row else none
  | .serve now request =>
      match request.action with
      | .insert record =>
          if request.table = name ∧ memory.fulfils (.serve now request) = true then some record
          else none
      | _ => none
  | _ => none

/-- The integer in the id column of the last row of a table. -/
def lastRowId? (memory : Memory) (name : String) : Option Int64 :=
  ((memory.rows name).getLast?.bind (·.get? memory.idColumn)).bind Value.toInt64?

/-- The id that comes into a table with an event. One that is assigned is read from the row as it
is stored. -/
def idUse? (memory : Memory) (name : String) (event : Event) : Option IdUse :=
  match memory.added? name event with
  | none => none
  | some row =>
      match row.get? memory.idColumn with
      | some value => value.toInt64?.map .carried
      | none => ((memory.step event).lastRowId? name).map .assigned

/-- The ids that come into a table in a run, in their order. -/
def idHistory (memory : Memory) (name : String) : List Event → List IdUse
  | [] => []
  | event :: rest => (memory.idUse? name event).toList ++ (memory.step event).idHistory name rest

/-- Whether there is a next id whenever a table has to assign one. -/
def hasRoom (memory : Memory) (name : String) : List Event → Bool
  | [] => true
  | event :: rest =>
      (match memory.added? name event with
        | some row =>
            (row.get? memory.idColumn).isSome || (memory.table name).lastId < Int64.maxValue
        | none => true) &&
      (memory.step event).hasRoom name rest

/-! ## One event -/

variable {memory : Memory} {name : String} {event : Event}

/-- A row that is added goes to the end of its table, as it is or with the requests for the current
time answered. -/
theorem table_step_of_added? {row : Record} (h : memory.added? name event = some row) :
    ∃ stored, (stored = row ∨ ∃ now, stored = row.resolveNow now) ∧
      (memory.step event).table name = (memory.table name).add memory.idColumn stored := by
  cases event with
  | create table => cases h
  | failNext message => cases h
  | seed table seeded =>
      rw [added?] at h
      split at h
      · next htable =>
          cases h
          refine ⟨row, .inl rfl, ?_⟩
          rw [step, table_withRows, if_pos htable, htable]
          rfl
      · cases h
  | serve now request =>
      rw [added?] at h
      split at h
      · next record haction =>
          split at h
          · next hadds =>
              cases h
              obtain ⟨rfl, hfulfils⟩ := hadds
              rw [fulfils] at hfulfils
              refine ⟨row.resolveNow now, .inr ⟨now, rfl⟩, ?_⟩
              have hserved := served now request memory
              rw [step]
              generalize memory.execute now request = outcome at hfulfils hserved ⊢
              cases hserved with
              | doomed due => cases hfulfils
              | missing free absent => cases hfulfils
              | refused free found refusal => cases hfulfils
              | answered free found accepted =>
                  rw [table, table, NameMap.get?_insert, if_pos rfl, found]
                  simp only [serve, haction, Option.getD_some]
          · cases h
      · cases h

/-- An event that adds no row to a table leaves its counter as it is. -/
theorem lastId_step_of_added? (h : memory.added? name event = none) :
    ((memory.step event).table name).lastId = (memory.table name).lastId := by
  cases hfulfils : memory.fulfils event with
  | false => rw [table, table, step_tables_of_not_fulfils hfulfils]
  | true =>
      have heffect := effect_step memory event name
      generalize (memory.step event).table name = after at heffect
      generalize memory.table name = before at heffect
      cases heffect with
      | kept => rfl
      | changed target action concerned => rfl
      | removed target action keeps => rfl
      | seeded row => simp [added?] at h
      | inserted target action => simp [added?, action, target, hfulfils] at h

/-- A table assigns the id after its counter to a row that comes without one. -/
theorem assigned_step {row : Record} (h : memory.added? name event = some row)
    (hid : row.get? memory.idColumn = none) :
    memory.idUse? name event = some (.assigned ((memory.table name).lastId + 1)) ∧
      ∃ stored : Record,
        stored.get? memory.idColumn = some (.int ((memory.table name).lastId + 1)) ∧
        (memory.step event).table name =
          ⟨(memory.table name).rows ++ [stored], (memory.table name).lastId + 1⟩ := by
  obtain ⟨given, hgiven, htable⟩ := table_step_of_added? h
  have hnone : given.get? memory.idColumn = none := by
    rcases hgiven with rfl | ⟨now, rfl⟩
    · exact hid
    · rw [Record.resolveNow, NameMap.get?_mapValues, hid, Option.map_none]
  rw [Table.add, (memory.table name).identify_of_none hnone] at htable
  have hstored : (given.insert memory.idColumn (.int ((memory.table name).lastId + 1))).get?
      memory.idColumn = some (.int ((memory.table name).lastId + 1)) := by
    rw [NameMap.get?_insert, if_pos rfl]
  have hlast : (memory.step event).lastRowId? name = some ((memory.table name).lastId + 1) := by
    rw [lastRowId?, rows, htable, idColumn_step, List.getLast?_concat, Option.bind_some, hstored,
      Option.bind_some, Value.toInt64?]
  refine ⟨?_, _, hstored, htable⟩
  simp only [idUse?, h, hid, hlast, Option.map_some]

/-- The counter does not go below the id that a row comes with. -/
theorem carried_step {row : Record} {value : Value} (h : memory.added? name event = some row)
    (hid : row.get? memory.idColumn = some value) :
    memory.idUse? name event = value.toInt64?.map .carried ∧
      (memory.table name).lastId ≤ ((memory.step event).table name).lastId ∧
      ∀ id, value.toInt64? = some id → id ≤ ((memory.step event).table name).lastId := by
  obtain ⟨stored, hstored, htable⟩ := table_step_of_added? h
  obtain ⟨kept, hkept, hsame⟩ : ∃ kept, stored.get? memory.idColumn = some kept ∧
      ∀ id, value.toInt64? = some id → kept = value := by
    rcases hstored with rfl | ⟨now, rfl⟩
    · exact ⟨value, hid, fun _ _ => rfl⟩
    · refine ⟨value.resolveNow now, ?_, fun id hread => Value.resolveNow_of_toInt64? hread now⟩
      rw [Record.resolveNow, NameMap.get?_mapValues, hid, Option.map_some]
  obtain ⟨-, hrise, hread⟩ := (memory.table name).identify_of_some hkept
  refine ⟨by simp only [idUse?, h, hid], ?_, ?_⟩
  · rw [htable]
    exact hrise
  · intro id hvalue
    rw [htable]
    apply hread
    rwa [hsame id hvalue]

/-- What an event means for the counter of a table: it does not go down, no id that comes into the
table is above it afterwards, and one that is assigned was above it before. -/
structure Counted (memory : Memory) (name : String) (event : Event) : Prop where
  rises : (memory.table name).lastId ≤ ((memory.step event).table name).lastId
  covers : ∀ use, memory.idUse? name event = some use →
    use.id ≤ ((memory.step event).table name).lastId
  fresh : ∀ id, memory.idUse? name event = some (.assigned id) → (memory.table name).lastId < id

/-- Each event of a run with room moves the counter as it should. -/
theorem counted_step {rest : List Event} (h : memory.hasRoom name (event :: rest) = true) :
    Counted memory name event := by
  rw [hasRoom, Bool.and_eq_true] at h
  cases hadded : memory.added? name event with
  | none =>
      have huse : memory.idUse? name event = none := by simp only [idUse?, hadded]
      refine ⟨Int64.le_of_eq (lastId_step_of_added? hadded).symm, ?_, ?_⟩
      · rw [huse]
        rintro use ⟨⟩
      · rw [huse]
        rintro id ⟨⟩
  | some row =>
      cases hid : row.get? memory.idColumn with
      | some value =>
          obtain ⟨huse, hrise, hread⟩ := carried_step hadded hid
          refine ⟨hrise, ?_, ?_⟩
          · intro use hsome
            rw [huse, Option.map_eq_some_iff] at hsome
            obtain ⟨id, hvalue, rfl⟩ := hsome
            exact hread id hvalue
          · intro id hsome
            rw [huse, Option.map_eq_some_iff] at hsome
            obtain ⟨_, _, hkind⟩ := hsome
            cases hkind
      | none =>
          obtain ⟨huse, stored, -, htable⟩ := assigned_step hadded hid
          have hlast := congrArg Table.lastId htable
          have hroom : (memory.table name).lastId < Int64.maxValue := by
            simpa [hadded, hid] using h.1
          have hnext : (memory.table name).lastId < (memory.table name).lastId + 1 := by
            rw [Int64.lt_iff_toInt_lt, Table.toInt_lastId_add_one hroom]
            omega
          refine ⟨?_, ?_, ?_⟩
          · rw [hlast]
            exact Int64.le_of_lt hnext
          · rw [huse, hlast]
            rintro use ⟨⟩
            exact Int64.le_refl _
          · rw [huse]
            rintro id ⟨⟩
            exact hnext

/-! ## Runs -/

/-- Every id that a history assigns is above all those before it. -/
def Ascends (history : List IdUse) : Prop :=
  history.Pairwise fun before use => ∀ id, use = .assigned id → before.id < id

def assignedIds (history : List IdUse) : List Int64 :=
  history.filterMap IdUse.assigned?

/-- The ids assigned by an ascending history increase strictly. -/
theorem Ascends.assignedIds_increase {history : List IdUse} (h : Ascends history) :
    (assignedIds history).Pairwise (· < ·) := by
  rw [assignedIds, List.pairwise_filterMap]
  refine h.imp ?_
  intro before use hless first hfirst second hsecond
  cases before with
  | carried id => cases hfirst
  | assigned before =>
      cases hfirst
      cases use with
      | carried id => cases hsecond
      | assigned id =>
          cases hsecond
          exact hless second rfl

/-- The ids that a run assigns are above the counter that it starts with. -/
theorem lastId_lt_of_mem_idHistory {events : List Event} {id : Int64}
    (hroom : memory.hasRoom name events = true) (h : .assigned id ∈ memory.idHistory name events) :
    (memory.table name).lastId < id := by
  induction events generalizing memory with
  | nil => cases h
  | cons event rest ih =>
      have hcounted := counted_step hroom
      rw [hasRoom, Bool.and_eq_true] at hroom
      rw [idHistory, List.mem_append, Option.mem_toList] at h
      rcases h with h | h
      · exact hcounted.fresh id h
      · exact Int64.lt_of_le_of_lt hcounted.rises (ih hroom.2 h)

/-- The history of a run with room ascends. -/
theorem ascends_idHistory {events : List Event} (hroom : memory.hasRoom name events = true) :
    Ascends (memory.idHistory name events) := by
  induction events generalizing memory with
  | nil => exact .nil
  | cons event rest ih =>
      have hcounted := counted_step hroom
      rw [hasRoom, Bool.and_eq_true] at hroom
      rw [idHistory, Ascends, List.pairwise_append]
      refine ⟨?_, ih hroom.2, ?_⟩
      · cases memory.idUse? name event with
        | none => exact .nil
        | some use => exact List.pairwise_singleton _ _
      · rintro before hbefore _ huse id rfl
        exact Int64.lt_of_le_of_lt (hcounted.covers before (Option.mem_toList.1 hbefore))
          (lastId_lt_of_mem_idHistory hroom.2 huse)

/-- What a run makes of the ids of a table. -/
structure NeverReuses (memory : Memory) (name : String) (events : List Event) : Prop where
  increasing : (assignedIds (memory.idHistory name events)).Pairwise (· < ·)
  /-- Whatever becomes of the rows, no id is assigned that one of them has come with. -/
  ascends : Ascends (memory.idHistory name events)
  /-- No row is left without an id. -/
  assigns : ∀ front event rest row, events = front ++ event :: rest →
    (memory.run front).added? name event = some row → row.get? memory.idColumn = none →
      ∃ id stored, (memory.run front).idUse? name event = some (.assigned id) ∧
        ((memory.run front).step event).rows name = (memory.run front).rows name ++ [stored] ∧
        stored.get? memory.idColumn = some (.int id)

/-- A run that does not exhaust the ids of a table assigns none of them twice. -/
theorem neverReuses_of_hasRoom {events : List Event}
    (hroom : memory.hasRoom name events = true) : memory.NeverReuses name events where
  increasing := (ascends_idHistory hroom).assignedIds_increase
  ascends := ascends_idHistory hroom
  assigns := by
    intro front event rest row _ hadded hid
    have hcolumn := idColumn_run memory front
    rw [← hcolumn] at hid ⊢
    obtain ⟨huse, stored, hstored, htable⟩ := assigned_step hadded hid
    exact ⟨_, stored, huse, congrArg Table.rows htable, hstored⟩

/-- A run in which ids of several kinds come and go: the rows with the ids that were the highest are
changed and deleted before the next ones are assigned. -/
def comingAndGoing : List Event :=
  [.create "notes", .seed "notes" (.ofList [("id", .float (.ofInt 7))]),
    .seed "notes" (.ofList [("id", .text " 12 ")]),
    .failNext "offline",
    .serve ⟨0, 0⟩ (.insert "notes" (.ofList [("id", .int 99)])),
    .serve ⟨0, 0⟩ (.insert "notes" (.ofList [("title", .text "a")])),
    .serve ⟨0, 0⟩ ((Request.update "notes" (.ofList [("id", .int 1)])).filter
      (.equals "id" (.int 13))),
    .serve ⟨0, 0⟩ ((Request.delete "notes").filter (.equals "id" (.int 12))),
    .serve ⟨0, 0⟩ (.insert "notes" (.ofList [("id", .int (-3))])),
    .serve ⟨0, 0⟩ (.insert "notes" (.ofList [("title", .text "b")]))]

theorem neverReuses_comingAndGoing :
    (empty.withIdColumn "id").hasRoom "notes" comingAndGoing = true ∧
      (empty.withIdColumn "id").idHistory "notes" comingAndGoing =
        [.carried 7, .carried 12, .assigned 13, .carried (-3), .assigned 14] ∧
      (empty.withIdColumn "id").NeverReuses "notes" comingAndGoing := by
  have hroom : (empty.withIdColumn "id").hasRoom "notes" comingAndGoing = true := by
    decide +kernel
  exact ⟨hroom, by decide +kernel, neverReuses_of_hasRoom hroom⟩

end Memory

end ClosedSql
