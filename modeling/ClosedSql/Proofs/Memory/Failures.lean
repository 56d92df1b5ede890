import ClosedSql.Proofs.Memory.Run

/-!
# Failures in runs

Failures are ordered in advance and wait in a queue. Every request takes the first of them, if any
waits, and fails with it. However a request fails, it leaves every table as it was; so a run leaves
the tables that its fulfilled requests alone would have left.
-/

namespace ClosedSql.Memory

def Event.request? : Event → Option Request
  | .serve _ request => some request
  | _ => none

def Event.message? : Event → Option String
  | .failNext message => some message
  | _ => none

/-- The message of an answer that is an ordered failure. -/
def ordered? : Except Failure RowSet → Option String
  | .error (.ordered message) => some message
  | _ => none

/-- The answer that an event is given, if it asks for one. -/
def answer? (memory : Memory) : Event → Option (Except Failure RowSet)
  | .serve now request => some (memory.execute now request).1
  | _ => none

def answers (memory : Memory) : List Event → List (Except Failure RowSet)
  | [] => []
  | event :: rest => (memory.answer? event).toList ++ (memory.step event).answers rest

/-- Whether an event is something other than an order to fail or a request that fails. -/
def fulfils (memory : Memory) : Event → Bool
  | .failNext _ => false
  | .serve now request => (memory.execute now request).1.isOk
  | _ => true

/-- What remains of a run without its failures. -/
def fulfilled (memory : Memory) : List Event → List Event
  | [] => []
  | event :: rest =>
      if memory.fulfils event then event :: (memory.step event).fulfilled rest
      else (memory.step event).fulfilled rest

/-! ## One request -/

/-- What one request takes from the queue of failures, adds to the record and does to the tables. -/
structure Takes (request : Request) (memory : Memory) (outcome : Except Failure RowSet × Memory) :
    Prop where
  recorded : outcome.2.requests = memory.requests ++ [request]
  /-- It fails with the first failure that waits, and with no ordered failure if none does. -/
  first : ordered? outcome.1 = memory.failures.head?
  /-- The others go on waiting. -/
  waiting : outcome.2.failures = memory.failures.tail
  atomic : ∀ failure, outcome.1 = .error failure → outcome.2.tables = memory.tables
  confined : ∀ answer, outcome.1 = .ok answer → ∀ other, other ≠ request.table →
    outcome.2.tables.get? other = memory.tables.get? other
  /-- No table comes into being, and none is lost. -/
  present : ∀ other, outcome.2.tables.get? other = none ↔ memory.tables.get? other = none

variable {now : Calendar.Instant} {request : Request} {memory : Memory}

/-- A refusal is no ordered failure. -/
theorem ordered?_of_refusal? {failure : Failure} (h : refusal? request = some failure) :
    ordered? (.error failure) = none := by
  rw [refusal?] at h
  split at h
  · split at h
    · cases h
      rfl
    · cases h
      rfl
    · cases h
  · cases h

/-- Serving a request takes what a request may take. -/
theorem Served.takes {outcome : Except Failure RowSet × Memory}
    (h : Served now request memory outcome) : Takes request memory outcome := by
  cases h with
  | doomed due =>
      exact ⟨rfl, by rw [due]; rfl, by rw [due]; rfl, fun _ _ => rfl, fun _ _ _ _ => rfl,
        fun _ => Iff.rfl⟩
  | missing free absent =>
      exact ⟨rfl, by rw [free]; rfl, by rw [recording, free]; rfl, fun _ _ => rfl,
        fun _ _ _ _ => rfl, fun _ => Iff.rfl⟩
  | refused free found refusal =>
      exact ⟨rfl, by rw [free, ordered?_of_refusal? refusal]; rfl, by rw [recording, free]; rfl,
        fun _ _ => rfl, fun _ _ _ _ => rfl, fun _ => Iff.rfl⟩
  | answered free found accepted =>
      refine ⟨rfl, by rw [free]; rfl, by rw [recording, free]; rfl, ?_, ?_, ?_⟩
      · intro failure herror
        cases herror
      · intro answer _ other hother
        rw [NameMap.get?_insert, if_neg (Ne.symm hother)]
      · intro other
        rw [NameMap.get?_insert]
        split
        · next hsame =>
            subst hsame
            simp [found]
        · exact Iff.rfl

/-! ## Runs -/

/-- The record grows by the request of an event, if it has one. -/
theorem step_requests (memory : Memory) (event : Event) :
    (memory.step event).requests = memory.requests ++ event.request?.toList := by
  cases event with
  | create table => exact (List.append_nil _).symm
  | seed table row => exact (List.append_nil _).symm
  | failNext message => exact (List.append_nil _).symm
  | serve now request => exact (served now request memory).takes.recorded

/-- A run records its requests, each once and in order, whether they fail or not. -/
theorem requests_run (memory : Memory) (events : List Event) :
    (memory.run events).requests = memory.requests ++ events.filterMap Event.request? := by
  induction events generalizing memory with
  | nil => exact (List.append_nil _).symm
  | cons event rest ih =>
      have hrest := ih (memory.step event)
      rw [step_requests, List.append_assoc] at hrest
      rw [run, List.foldl_cons]
      refine hrest.trans (congrArg (memory.requests ++ ·) ?_)
      cases event <;> rfl

/-- What an event takes from the queue of failures, with what it leaves there, is what waited and
what the event ordered. -/
theorem step_failures (memory : Memory) (event : Event) :
    ((memory.answer? event).toList.filterMap ordered?) ++ (memory.step event).failures =
      memory.failures ++ event.message?.toList := by
  cases event with
  | create table => exact (List.append_nil _).symm
  | seed table row => exact (List.append_nil _).symm
  | failNext message => rfl
  | serve now request =>
      have htakes := (served now request memory).takes
      have hfirst : [(memory.execute now request).1].filterMap ordered? =
          memory.failures.head?.toList := by
        rw [← htakes.first]
        cases hordered : ordered? (memory.execute now request).1 <;> simp [hordered]
      change [(memory.execute now request).1].filterMap ordered? ++
        (memory.execute now request).2.failures = memory.failures ++ []
      rw [hfirst, htakes.waiting, List.append_nil]
      cases memory.failures <;> rfl

/-- Failures are taken first in, first out: those that requests failed with, and then those that
still wait, are those that waited before, and then those that were ordered during the run. -/
theorem failures_run (memory : Memory) (events : List Event) :
    (memory.answers events).filterMap ordered? ++ (memory.run events).failures =
      memory.failures ++ events.filterMap Event.message? := by
  induction events generalizing memory with
  | nil => exact (List.append_nil _).symm
  | cons event rest ih =>
      have hrest := ih (memory.step event)
      have hmessages : (event :: rest).filterMap Event.message? =
          event.message?.toList ++ rest.filterMap Event.message? := by
        cases event <;> rfl
      rw [answers, List.filterMap_append, List.append_assoc, run, List.foldl_cons, hmessages]
      refine (congrArg (_ ++ ·) hrest).trans ?_
      rw [← List.append_assoc, step_failures, List.append_assoc]

/-- An event that fulfils nothing leaves the tables alone. -/
theorem step_tables_of_not_fulfils {event : Event} (h : memory.fulfils event = false) :
    (memory.step event).tables = memory.tables := by
  cases event with
  | create table => cases h
  | seed table row => cases h
  | failNext message => rfl
  | serve now request =>
      have htakes := (served now request memory).takes
      rw [fulfils] at h
      cases hanswer : (memory.execute now request).1 with
      | error failure => exact htakes.atomic failure hanswer
      | ok answer =>
          rw [hanswer] at h
          cases h

/-- What an event that is fulfilled does to the tables depends on the tables alone. -/
theorem step_tables_of_fulfils {event : Event} (h : memory.fulfils event = true) {other : Memory}
    (hid : other.idColumn = memory.idColumn) (htables : other.tables = memory.tables)
    (hfree : other.failures = []) :
    (other.step event).tables = (memory.step event).tables ∧ (other.step event).failures = [] := by
  cases event with
  | create name => exact ⟨by simp only [step, withRows, table, hid, htables], hfree⟩
  | seed name row => exact ⟨by simp only [step, withRows, table, hid, htables], hfree⟩
  | failNext message => cases h
  | serve now request =>
      rw [fulfils] at h
      have hserved := served now request memory
      generalize houtcome : memory.execute now request = outcome at h hserved
      cases hserved with
      | doomed due => cases h
      | missing free absent => cases h
      | refused free found refusal => cases h
      | answered free found accepted =>
          have hfound := found
          rw [← htables] at hfound
          rw [step, step, houtcome, execute_of_accepted hfree hfound accepted, hid, htables]
          exact ⟨rfl, hfree⟩

/-- A run leaves the tables that its fulfilled events alone leave. -/
theorem tables_run_of_fulfilled (events : List Event) {memory other : Memory}
    (hid : other.idColumn = memory.idColumn) (htables : other.tables = memory.tables)
    (hfree : other.failures = []) :
    (memory.run events).tables = (other.run (memory.fulfilled events)).tables := by
  induction events generalizing memory other with
  | nil => exact htables.symm
  | cons event rest ih =>
      rw [run, List.foldl_cons, fulfilled]
      split
      · next hfulfils =>
          obtain ⟨hstep, hstill⟩ := step_tables_of_fulfils hfulfils hid htables hfree
          have hcolumn : (other.step event).idColumn = (memory.step event).idColumn := by
            rw [idColumn_step, idColumn_step, hid]
          rw [run, List.foldl_cons]
          exact ih hcolumn hstep hstill
      · next hfulfils =>
          have hkept := step_tables_of_not_fulfils (Bool.eq_false_iff.2 hfulfils)
          exact ih (hid.trans (idColumn_step memory event).symm) (htables.trans hkept.symm) hfree

/-- What a run leaves behind, whatever happens in it. -/
structure Accounted (memory : Memory) (events : List Event) : Prop where
  recorded : (memory.run events).requests = memory.requests ++ events.filterMap Event.request?
  queued : (memory.answers events).filterMap ordered? ++ (memory.run events).failures =
    memory.failures ++ events.filterMap Event.message?
  takes : ∀ front now request rest, events = front ++ .serve now request :: rest →
    Takes request (memory.run front) ((memory.run front).execute now request)
  tables : (memory.run events).tables =
    ({ memory with failures := [] }.run (memory.fulfilled events)).tables

/-- Of every run: each request is on record once and in order; failures are taken in the order in
which they were ordered, one by each request; and a request that fails leaves no trace in the
tables. -/
theorem accounted (memory : Memory) (events : List Event) : Accounted memory events where
  recorded := requests_run memory events
  queued := failures_run memory events
  takes front now request _ _ := (served now request (memory.run front)).takes
  tables := tables_run_of_fulfilled events rfl rfl rfl

end ClosedSql.Memory
