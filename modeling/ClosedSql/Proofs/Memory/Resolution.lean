import ClosedSql.Proofs.Calendar.Texts
import ClosedSql.Proofs.Memory.Failures
import ClosedSql.Proofs.Memory.Selection
import Mathlib.Data.List.TakeWhile

/-!
# The current time in memory

A text that says `now()` asks for the current time wherever it is sent. It is answered before it is
stored, and the answer is a date and a time, which says something else. So no such text is ever in a
table or in an answer, unless a table was seeded with it; but the record of the requests shows them
as they were sent.
-/

namespace ClosedSql

open Text

/-! ## Saying now -/

/-- The text is `now()` in any case, and blanks around it. -/
def Text.SaysNow (text : List Char) : Prop :=
  ∃ front word back, text = front ++ word ++ back ∧ (∀ c ∈ front, isBlank c = true) ∧
    (∀ c ∈ back, isBlank c = true) ∧ lower word = "now()".toList

def Value.SaysNow : Value → Prop
  | .text s => Text.SaysNow s.toList
  | _ => False

namespace Text

/-- A text that neither begins nor ends with a blank is what is left when blanks around it are
trimmed. -/
theorem trim_append {front word back : List Char} (hfront : ∀ c ∈ front, isBlank c = true)
    (hword : ∀ c ∈ word, isBlank c = false) (hback : ∀ c ∈ back, isBlank c = true) :
    trim (front ++ word ++ back) = word := by
  have hreversed : ∀ c ∈ back.reverse, isBlank c = true :=
    fun c hc => hback c (List.mem_reverse.1 hc)
  rw [trim, trimStart, List.append_assoc, List.dropWhile_append_of_pos hfront]
  cases word with
  | nil =>
      have hnone : back.dropWhile isBlank = [] := List.dropWhile_eq_nil_iff.2 hback
      rw [List.nil_append, hnone]
      rfl
  | cons c rest =>
      have hstart : (c :: rest ++ back).dropWhile isBlank = c :: rest ++ back :=
        List.dropWhile_cons_of_neg (by simp [hword c List.mem_cons_self])
      have hend : (c :: rest).reverse.dropWhile isBlank = (c :: rest).reverse :=
        trimStart_of_not_isBlank fun d hd =>
          hword d (List.mem_reverse.1 (List.mem_of_mem_head? hd))
      rw [hstart, trimEnd, List.reverse_append, List.dropWhile_append_of_pos hreversed, hend,
        List.reverse_reverse]

/-- What is trimmed from around a text are blanks. -/
theorem exists_trim (text : List Char) :
    ∃ front back, text = front ++ trim text ++ back ∧ (∀ c ∈ front, isBlank c = true) ∧
      ∀ c ∈ back, isBlank c = true := by
  refine ⟨text.takeWhile isBlank, ((trimStart text).reverse.takeWhile isBlank).reverse, ?_, ?_, ?_⟩
  · rw [List.append_assoc, trim, trimEnd, ← List.reverse_append, List.takeWhile_append_dropWhile,
      List.reverse_reverse, trimStart, List.takeWhile_append_dropWhile]
  · exact fun c hc => List.mem_takeWhile_imp hc
  · exact fun c hc => List.mem_takeWhile_imp (List.mem_reverse.1 hc)

/-- No character of the word is blank, in any case. -/
theorem not_isBlank_of_lower {word : List Char} (h : lower word = "now()".toList) :
    ∀ c ∈ word, isBlank c = false := by
  intro c hc
  have hmem : c.toLower ∈ "now()".toList := h ▸ List.mem_map_of_mem hc
  have hshown : ∀ d ∈ "now()".toList, isBlank d = false := by decide
  by_cases hupper : c.isUpper = true
  · exact isBlank_of_isAsciiWord (isAsciiWord_of_isAlpha (isAlpha_iff.2 (.inl hupper)))
  · rw [toLower_of_not_isUpper hupper] at hmem
    exact hshown c hmem

end Text

/-- The texts that are taken for a request for the current time are those that say so. -/
theorem Value.asksForNow_iff {value : Value} : value.asksForNow = true ↔ value.SaysNow := by
  cases value with
  | text s =>
      rw [asksForNow, SaysNow, sameIgnoringCase_iff]
      constructor
      · intro h
        obtain ⟨front, back, hsplit, hfront, hback⟩ := exists_trim s.toList
        exact ⟨front, trim s.toList, back, hsplit, hfront, hback, h⟩
      · rintro ⟨front, word, back, hsplit, hfront, hback, hword⟩
        rw [hsplit, trim_append hfront (not_isBlank_of_lower hword) hback, hword]
        rfl
  | null | bool | int | float =>
      simp [asksForNow, SaysNow]

instance : DecidablePred Value.SaysNow := fun _ =>
  decidable_of_iff _ Value.asksForNow_iff

/-- A date with a time says something else. -/
theorem Text.not_saysNow_of_hyphen {text : List Char} (h : '-' ∈ text) : ¬SaysNow text := by
  rintro ⟨front, word, back, rfl, hfront, hback, hword⟩
  simp only [List.mem_append] at h
  rcases h with (h | h) | h
  · exact absurd (hfront _ h) (by decide)
  · have hmem : '-' ∈ lower word := List.mem_map.2 ⟨'-', h, rfl⟩
    rw [hword] at hmem
    exact absurd hmem (by decide)
  · exact absurd (hback _ h) (by decide)

/-- A resolved value does not ask for the current time. -/
theorem Value.not_saysNow_resolveNow (now : Calendar.Instant) (value : Value) :
    ¬(value.resolveNow now).SaysNow := by
  rw [resolveNow]
  split
  · rw [SaysNow, String.toList_ofList]
    refine Text.not_saysNow_of_hyphen ?_
    rw [Calendar.Instant.plainText]
    exact List.mem_append_left _ (Calendar.hyphen_mem_date _)
  · next hasks =>
      rw [← asksForNow_iff]
      exact hasks

/-! ## Records -/

namespace Record

/-- No value of the record says `now()`. -/
def Resolved (record : Record) : Prop :=
  ∀ column value, record.get? column = some value → ¬value.SaysNow

theorem resolved_iff {record : Record} :
    record.Resolved ↔ ∀ entry ∈ record.entries, ¬entry.2.SaysNow := by
  constructor
  · intro h entry hentry
    exact h entry.1 entry.2 (NameMap.get?_eq_some_iff.2 hentry)
  · intro h column value hvalue
    exact h (column, value) (NameMap.get?_eq_some_iff.1 hvalue)

instance : DecidablePred Resolved := fun _ =>
  decidable_of_iff _ resolved_iff.symm

/-- A resolved record does not ask for the current time. -/
theorem resolved_resolveNow (now : Calendar.Instant) (record : Record) :
    (record.resolveNow now).Resolved := by
  intro column value hvalue
  rw [resolveNow, NameMap.get?_mapValues, Option.map_eq_some_iff] at hvalue
  obtain ⟨sent, -, rfl⟩ := hvalue
  exact sent.not_saysNow_resolveNow now

variable {record other : Record}

theorem Resolved.insert (h : record.Resolved) (name : String) {value : Value}
    (hvalue : ¬value.SaysNow) : Resolved (NameMap.insert record name value) := by
  intro column found hfound
  rw [NameMap.get?_insert] at hfound
  split at hfound
  · obtain rfl := Option.some.inj hfound
    exact hvalue
  · exact h column found hfound

/-- Records that do not ask for the current time are merged to one that does not. -/
theorem Resolved.merge (h : record.Resolved) (hother : other.Resolved) :
    Resolved (NameMap.merge record other) := by
  intro column value hvalue
  rw [NameMap.get?_merge, Option.or_eq_some_iff] at hvalue
  rcases hvalue with hvalue | ⟨-, hvalue⟩
  · exact hother column value hvalue
  · exact h column value hvalue

theorem Resolved.project (h : record.Resolved) (columns : List String) :
    Resolved (Table.project columns record) := by
  rw [Table.project]
  split
  · exact h
  · intro column value hvalue
    rw [get?_project] at hvalue
    split at hvalue
    · exact h column value hvalue
    · cases hvalue

end Record

/-! ## Tables -/

namespace Table

/-- No cell of the table says `now()`. -/
def Resolved (table : Table) : Prop :=
  ∀ row ∈ table.rows, row.Resolved

variable {table : Table} {idColumn : String}

/-- An id that is assigned is an integer. -/
theorem resolved_identify (table : Table) (idColumn : String) {row : Record} (h : row.Resolved) :
    (table.identify idColumn row).1.Resolved := by
  rw [identify]
  split
  · exact h.insert idColumn id
  · split <;> exact h

theorem Resolved.add (h : table.Resolved) (idColumn : String) {row : Record} (hrow : row.Resolved) :
    (table.add idColumn row).Resolved := by
  intro stored hstored
  rw [Table.add, List.mem_append, List.mem_singleton] at hstored
  rcases hstored with hstored | rfl
  · exact h stored hstored
  · exact table.resolved_identify idColumn hrow

/-- Sorting and cutting makes up no row. -/
theorem mem_of_mem_cut_sort {rows : List Record} {order : Option OrderBy} {limit : Option UInt64}
    {row : Record} (h : row ∈ cut (sort rows order) limit) : row ∈ rows := by
  have hsorted : row ∈ sort rows order := by
    cases limit with
    | none => exact h
    | some limit => exact List.mem_of_mem_take h
  cases order with
  | none => exact hsorted
  | some order => exact List.mem_mergeSort.1 hsorted

theorem resolved_answer (request : Request) (columns : List String) {matching : List Record}
    (h : ∀ row ∈ matching, row.Resolved) :
    ∀ row ∈ (answer request columns matching).rows, row.Resolved := by
  intro row hrow
  rw [answer] at hrow
  split at hrow
  · cases hrow
  · obtain ⟨found, hfound, rfl⟩ := List.mem_map.1 hrow
    exact (h found (mem_of_mem_cut_sort hfound)).project columns

end Table

/-! ## Requests -/

namespace Memory

variable {idColumn name : String} {table after : Table} {memory : Memory}

/-- The rows that an answer consists of are those of the table, or made of resolved values. -/
theorem resolved_serve (h : table.Resolved) (now : Calendar.Instant) (request : Request) :
    ∀ row ∈ (serve idColumn now request table).1.rows, row.Resolved := by
  have hfound : ∀ filters, ∀ row ∈ table.rows.filter (satisfies filters), row.Resolved :=
    fun filters row hrow => h row (List.mem_filter.1 hrow).1
  have hconcerned : ∀ rows : List Record, (∀ row ∈ rows, row.Resolved) →
      ∀ row ∈ (if request.returning then RowSet.ofRows rows else .empty).rows, row.Resolved := by
    intro rows hrows row hrow
    split at hrow
    · exact hrows row hrow
    · cases hrow
  unfold serve
  cases request.action with
  | select columns => exact Table.resolved_answer request columns (hfound _)
  | insert record =>
      refine hconcerned _ ?_
      intro row hrow
      obtain rfl := List.mem_singleton.1 hrow
      exact table.resolved_identify idColumn (record.resolved_resolveNow now)
  | update values =>
      refine hconcerned _ ?_
      intro row hrow
      obtain ⟨found, hmem, rfl⟩ := List.mem_map.1 hrow
      exact (hfound _ found hmem).merge (values.resolved_resolveNow now)
  | delete => exact hconcerned _ (hfound _)

/-- What an event seeds a table with is resolved. -/
def Event.SeedsResolved : Event → Prop
  | .seed _ row => row.Resolved
  | _ => True

/-- However an event changes a table, it writes resolved values only. -/
theorem Effect.resolved {event : Event} (heffect : Effect idColumn name event table after)
    (hevent : event.SeedsResolved) (h : table.Resolved) : after.Resolved := by
  cases heffect with
  | kept => exact h
  | seeded row => exact h.add idColumn hevent
  | inserted => exact h.add idColumn (Record.resolved_resolveNow _ _)
  | changed target action concerned =>
      intro row hrow
      obtain ⟨found, hfound, rfl⟩ := List.mem_map.1 hrow
      split
      · exact (h found hfound).merge (Record.resolved_resolveNow _ _)
      · exact h found hfound
  | removed => exact fun row hrow => h row (List.mem_filter.1 hrow).1

/-! ## Runs -/

/-- No cell of any table says `now()`. -/
def Resolved (memory : Memory) : Prop :=
  ∀ name, (memory.table name).Resolved

/-- An event that seeds resolved rows keeps a store resolved. -/
theorem Resolved.step (h : memory.Resolved) {event : Event} (hevent : event.SeedsResolved) :
    (memory.step event).Resolved :=
  fun name => (effect_step memory event name).resolved hevent (h name)

theorem Resolved.run (h : memory.Resolved) {events : List Event}
    (hevents : ∀ event ∈ events, event.SeedsResolved) : (memory.run events).Resolved := by
  induction events generalizing memory with
  | nil => exact h
  | cons event rest ih =>
      obtain ⟨hevent, hrest⟩ := List.forall_mem_cons.1 hevents
      exact ih (h.step hevent) hrest

theorem Resolved.execute (h : memory.Resolved) {now : Calendar.Instant} {request : Request}
    {answer : RowSet} (hanswer : (memory.execute now request).1 = .ok answer) :
    ∀ row ∈ answer.rows, row.Resolved := by
  have hserved := served now request memory
  generalize memory.execute now request = outcome at hserved hanswer
  cases hserved with
  | doomed | missing | refused => cases hanswer
  | @answered table free found accepted =>
      obtain rfl := Except.ok.inj hanswer
      have htable : table.Resolved := by
        have hname := h request.table
        rwa [Memory.table, found] at hname
      exact resolved_serve htable now request

theorem Resolved.answers (h : memory.Resolved) {events : List Event}
    (hevents : ∀ event ∈ events, event.SeedsResolved) {answer : RowSet}
    (hanswer : .ok answer ∈ memory.answers events) : ∀ row ∈ answer.rows, row.Resolved := by
  induction events generalizing memory with
  | nil => cases hanswer
  | cons event rest ih =>
      obtain ⟨hevent, hrest⟩ := List.forall_mem_cons.1 hevents
      rw [Memory.answers, List.mem_append] at hanswer
      rcases hanswer with hfirst | hlater
      · cases event with
        | serve now request => exact h.execute (List.mem_singleton.1 hfirst).symm
        | create | seed | failNext => cases hfirst
      · exact ih (h.step hevent) hrest hlater

/-- As long as no table is seeded with it, the text `now()` is in no table at any point of a run and
in no answer, whatever is inserted, changed, deleted and selected, and whatever fails. The requests
are on record with the values that they were sent with. -/
theorem resolved_throughout (hmemory : ∀ name, ∀ row ∈ memory.rows name, row.Resolved)
    {events : List Event}
    (hseeds : ∀ name row, .seed name row ∈ events → row.Resolved) :
    (∀ front, front <+: events → ∀ name, ∀ row ∈ (memory.run front).rows name, row.Resolved) ∧
      (∀ answer, .ok answer ∈ memory.answers events → ∀ row ∈ answer.rows, row.Resolved) ∧
      (memory.run events).requests = memory.requests ++ events.filterMap Event.request? := by
  have hresolved : memory.Resolved := hmemory
  have hevents : ∀ event ∈ events, event.SeedsResolved := by
    intro event hevent
    cases event with
    | seed name row => exact hseeds name row hevent
    | create | failNext | serve => trivial
  refine ⟨?_, ?_, requests_run memory events⟩
  · intro front hfront
    exact hresolved.run fun event hevent => hevents event (hfront.subset hevent)
  · intro answer hanswer
    exact hresolved.answers hevents hanswer

/-- A run in which the current time is asked for in several spellings, by an insertion, by a change
that fails and by the same change again. -/
def askingRun : List Event :=
  let change := ((Request.update "notes" (.ofList [("changed", .text "\tNow()")])).filter
    (.equals "id" (.int 2))).returningRows
  [.seed "notes" (.ofList [("title", .text "now")]),
    .serve ⟨0, 0⟩ ((Request.insert "notes" (.ofList [("title", .text " NOW() ")])).returningRows),
    .failNext "lost", .serve ⟨60, 0⟩ change, .serve ⟨120, 0⟩ change,
    .serve ⟨180, 0⟩ (.selectAll "notes")]

theorem resolved_throughout_askingRun :
    (∀ name, ∀ row ∈ empty.rows name, row.Resolved) ∧
      (∀ name row, .seed name row ∈ askingRun → row.Resolved) ∧
      (∀ front, front <+: askingRun →
        ∀ name, ∀ row ∈ (empty.run front).rows name, row.Resolved) ∧
      (∀ answer, .ok answer ∈ empty.answers askingRun → ∀ row ∈ answer.rows, row.Resolved) ∧
      (empty.run askingRun).requests = empty.requests ++ askingRun.filterMap Event.request? := by
  have hmemory : ∀ name, ∀ row ∈ empty.rows name, row.Resolved := by
    intro name row hrow
    cases hrow
  have hseeds : ∀ name row, .seed name row ∈ askingRun → row.Resolved := by
    intro name row hseed
    simp only [askingRun, List.mem_cons, Event.seed.injEq, reduceCtorEq, List.not_mem_nil,
      or_false] at hseed
    obtain ⟨-, rfl⟩ := hseed
    decide
  exact ⟨hmemory, hseeds, resolved_throughout hmemory hseeds⟩

end Memory

end ClosedSql
