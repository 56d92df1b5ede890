import ClosedSql.Proofs.Database.Calls

/-!
# Statements that are not supported

A setting says whether a raw call keeps silent about a statement that is not supported or fails with
the reason. It decides nothing else. What is sent to the store, what the store is left as and every
other answer are the same under both policies; and a statement that is not supported sends nothing.
-/

namespace ClosedSql

def Config.withPolicy (config : Config) (policy : UnsupportedPolicy) : Config :=
  { config with unsupportedPolicy := policy }

/-- Binding does not look at the policy for unsupported statements. -/
theorem Config.bind_withPolicy (config : Config) (policy : UnsupportedPolicy) (text : String)
    (params : List Value) : (config.withPolicy policy).bind text params = config.bind text params :=
  rfl

theorem BoundStatement.call?_withPolicy (bound : BoundStatement) (config : Config)
    (policy : UnsupportedPolicy) : bound.call? (config.withPolicy policy) = bound.call? config :=
  rfl

/-- No answer of a store is read as a statement that is not supported. -/
theorem BoundStatement.read_ne_unsupported {bound : BoundStatement} {config : Config}
    {call : Call Outcome} (h : bound.call? config = some call) (answer : RowSet) (reason : Reason) :
    call.read answer ≠ .ok (.unsupported reason) := by
  unfold call? at h
  cases hshape : bound.shape with
  | unrecognized text => simp [hshape] at h
  | insert table columns | update table columns =>
      simp only [hshape, Option.some.injEq] at h
      subst h
      simp
  | select table | count table | delete table =>
      simp only [hshape, Option.some.injEq] at h
      subst h
      simp

namespace Database

variable {σ : Type} (config : Config) (store : Store σ) (text : String) (params : List Value)
  (state : σ)

/-- The raw calls all leave the same state behind. -/
structure Leaves (after : σ) : Prop where
  execute : (execute config store text params state).2 = after
  query : (query config store text params state).2 = after
  queryOne : (queryOne config store text params state).2 = after
  run : (run config store text params state).2 = after

/-- The raw calls answer as if nothing had been found or changed, and leave the store alone. -/
structure KeepsSilent : Prop where
  query : query config store text params state = (.ok [], state)
  queryOne : queryOne config store text params state = (.ok none, state)
  run : run config store text params state = (.ok ⟨none, 0⟩, state)
  unsent : sent config store text params state = []

/-- The raw calls fail for a reason, and leave the store alone. -/
structure Complains (reason : Reason) : Prop where
  query : query config store text params state = (.error (.unsupported reason), state)
  queryOne : queryOne config store text params state = (.error (.unsupported reason), state)
  run : run config store text params state = (.error (.unsupported reason), state)
  unsent : sent config store text params state = []

/-- The raw calls all leave the state that carrying out the statement leaves. -/
theorem leaves_execute :
    Leaves config store text params state (execute config store text params state).2 :=
  ⟨rfl, rfl, rfl, rfl⟩

/-- The policy has no say in what becomes of a statement. -/
theorem execute_withPolicy (policy : UnsupportedPolicy) :
    execute (config.withPolicy policy) store text params = execute config store text params := by
  unfold execute BoundStatement.dispatch
  simp only [Config.bind_withPolicy, BoundStatement.call?_withPolicy]

theorem query_eq : query config store text params state =
    ((execute config store text params state).1.bind (rowsOf config),
      (execute config store text params state).2) :=
  rfl

theorem queryOne_eq : queryOne config store text params state =
    (((execute config store text params state).1.bind (rowsOf config)).map List.head?,
      (execute config store text params state).2) :=
  rfl

theorem run_eq : run config store text params state =
    ((execute config store text params state).1.bind (changesOf config),
      (execute config store text params state).2) :=
  rfl

variable {config store text params state}

/-- What is not supported makes no request. -/
theorem request?_eq_none_of_unsupported {reason : Reason}
    (h : (execute config store text params state).1 = .ok (.unsupported reason)) :
    request? config text params = none := by
  unfold execute at h
  rw [request?]
  cases hbind : config.bind text params with
  | error other => rfl
  | ok bound =>
      cases hcall : bound.call? config with
      | none => simp [hcall]
      | some call =>
          rw [hbind] at h
          simp only [BoundStatement.dispatch, hcall] at h
          rw [Call.run_eq] at h
          -- a failure of the store is no outcome, and its answer is never read as this one
          cases hanswer : (store call.request state).1 with
          | error failure => simp [hanswer] at h
          | ok answer =>
              rw [hanswer] at h
              exact absurd h (BoundStatement.read_ne_unsupported hcall answer reason)

/-- A statement that makes no request leaves the store alone. -/
theorem state_execute_of_request? (h : request? config text params = none) :
    (execute config store text params state).2 = state := by
  unfold execute
  rw [request?] at h
  cases hbind : config.bind text params with
  | error reason => rfl
  | ok bound =>
      rw [hbind, Option.map_eq_none_iff] at h
      simp only [BoundStatement.dispatch, h]
      rfl

section Unsupported

variable {reason : Reason} (h : (execute config store text params state).1 =
  .ok (.unsupported reason))

include h

theorem execute_of_unsupported :
    execute config store text params state = (.ok (.unsupported reason), state) :=
  Prod.ext h (state_execute_of_request? (request?_eq_none_of_unsupported h))

theorem sent_of_unsupported : sent config store text params state = [] := by
  rw [sent_eq, request?_eq_none_of_unsupported h]
  rfl

/-- Under the lenient policy an unsupported statement is answered as if there were nothing. -/
theorem keepsSilent_of_lenient (hpolicy : config.unsupportedPolicy = .lenient) :
    KeepsSilent config store text params state where
  query := by
    rw [query_eq, execute_of_unsupported h]
    simp [Except.bind, rowsOf, onUnsupported, hpolicy]
  queryOne := by
    rw [queryOne_eq, execute_of_unsupported h]
    simp [Except.bind, Except.map, rowsOf, onUnsupported, hpolicy]
  run := by
    rw [run_eq, execute_of_unsupported h]
    simp [Except.bind, changesOf, onUnsupported, hpolicy, Changes.none]
  unsent := sent_of_unsupported h

/-- Under the strict policy an unsupported statement is answered by its reason. -/
theorem complains_of_strict (hpolicy : config.unsupportedPolicy = .strict) :
    Complains config store text params state reason where
  query := by
    rw [query_eq, execute_of_unsupported h]
    simp [Except.bind, rowsOf, onUnsupported, hpolicy]
  queryOne := by
    rw [queryOne_eq, execute_of_unsupported h]
    simp [Except.bind, Except.map, rowsOf, onUnsupported, hpolicy]
  run := by
    rw [run_eq, execute_of_unsupported h]
    simp [Except.bind, changesOf, onUnsupported, hpolicy]
  unsent := sent_of_unsupported h

end Unsupported

/-- The policy for statements that are not supported decides nothing else. Under settings that
differ in it only, a statement has the same outcome, and every raw call leaves the store in the same
state. Where the statement is supported, the raw calls answer alike, also when the store fails.
Where it is not, they keep silent under one policy and fail with its reason under the other, and
under neither is the store asked for anything. -/
theorem policy_decides_only_unsupported (config : Config) (store : Store σ) (text : String)
    (params : List Value) (state : σ) :
    execute (config.withPolicy .strict) store text params state =
        execute (config.withPolicy .lenient) store text params state ∧
      (∃ after, Leaves (config.withPolicy .lenient) store text params state after ∧
        Leaves (config.withPolicy .strict) store text params state after) ∧
      match (execute (config.withPolicy .lenient) store text params state).1 with
      | .ok (.unsupported reason) =>
          KeepsSilent (config.withPolicy .lenient) store text params state ∧
            Complains (config.withPolicy .strict) store text params state reason
      | _ =>
          query (config.withPolicy .strict) store text params state =
              query (config.withPolicy .lenient) store text params state ∧
            queryOne (config.withPolicy .strict) store text params state =
              queryOne (config.withPolicy .lenient) store text params state ∧
            run (config.withPolicy .strict) store text params state =
              run (config.withPolicy .lenient) store text params state := by
  have hsame : execute (config.withPolicy .strict) store text params state =
      execute (config.withPolicy .lenient) store text params state := by
    rw [execute_withPolicy, execute_withPolicy]
  refine ⟨hsame, ⟨_, leaves_execute _ _ _ _ _, hsame ▸ leaves_execute _ _ _ _ _⟩, ?_⟩
  simp only [query_eq, queryOne_eq, run_eq, hsame]
  cases houtcome : (execute (config.withPolicy .lenient) store text params state).1 with
  | error fault => exact ⟨rfl, rfl, rfl⟩
  | ok outcome =>
      cases outcome with
      | rows rows => exact ⟨rfl, rfl, rfl⟩
      | mutation id count => exact ⟨rfl, rfl, rfl⟩
      | unsupported reason =>
          exact ⟨keepsSilent_of_lenient houtcome rfl,
            complains_of_strict (hsame ▸ houtcome) rfl⟩

end Database

end ClosedSql
