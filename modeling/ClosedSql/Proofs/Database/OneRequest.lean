import ClosedSql.Proofs.Database.Calls
import ClosedSql.Proofs.Memory.Failures

/-!
# One request or none

A raw call on tables in memory makes one request if its statement can be bound, and none if it
cannot. The request is said here in full, field by field, for each shape of statement. When it
fails, the call fails with the same failure and makes no further request.
-/

namespace ClosedSql

/-- The request that a bound statement asks for. -/
inductive BoundStatement.Asks (bound : BoundStatement) : Request → Prop
  | select {table : String} (shape : bound.shape = .select table) :
      bound.Asks {
        table := table, action := .select ["*"], filters := bound.filter?.toList
        order := bound.order, limit := bound.limit
        counted := false, head := false, returning := false }
  | count {table : String} (shape : bound.shape = .count table) :
      bound.Asks {
        table := table, action := .select ["*"], filters := bound.filter?.toList
        order := none, limit := none
        counted := true, head := true, returning := false }
  | insert {table : String} {columns : List String} (shape : bound.shape = .insert table columns) :
      bound.Asks {
        table := table, action := .insert bound.assignments, filters := []
        order := none, limit := none
        counted := false, head := false, returning := true }
  | update {table : String} {columns : List String} (shape : bound.shape = .update table columns) :
      bound.Asks {
        table := table, action := .update bound.assignments, filters := bound.filter?.toList
        order := none, limit := none
        counted := false, head := false, returning := true }
  | delete {table : String} (shape : bound.shape = .delete table) :
      bound.Asks {
        table := table, action := .delete, filters := bound.filter?.toList
        order := none, limit := none
        counted := false, head := false, returning := true }

theorem Request.filter?_eq (request : Request) (filter : Option Filter) :
    request.filter? filter = { request with filters := request.filters ++ filter.toList } := by
  cases filter with
  | none => simp [Request.filter?]
  | some filter => rfl

namespace BoundStatement

variable {bound : BoundStatement} {request other : Request}

/-- The call of a bound statement makes the request that the statement asks for. -/
theorem Asks.exists_call (h : bound.Asks request) (config : Config) :
    ∃ call, bound.call? config = some call ∧ call.request = request := by
  unfold call?
  cases h with
  | select shape | count shape | update shape | delete shape =>
      rw [shape]
      refine ⟨_, rfl, ?_⟩
      simp only [Request.filter?_eq]
      rfl
  | insert shape =>
      rw [shape]
      exact ⟨_, rfl, rfl⟩

/-- A bound statement asks for one request only. -/
theorem Asks.unique (h : bound.Asks request) (hother : bound.Asks other) : other = request := by
  obtain ⟨call, hcall, rfl⟩ := h.exists_call {}
  obtain ⟨same, hsame, rfl⟩ := hother.exists_call {}
  rw [Option.some.inj (hsame.symm.trans hcall)]

/-- What was bound asks for a request, since it was recognized. -/
theorem exists_asks_of_bind {statement : Statement} {config : Config} {params : List Value}
    (h : statement.bind config params = .ok bound) : ∃ request, bound.Asks request := by
  obtain ⟨kept, -, -, -, rfl⟩ := Statement.bind_eq_ok_iff_numbered.1 h
  cases statement with
  | insert table columns values => exact ⟨_, .insert rfl⟩
  | update table assignments condition => exact ⟨_, .update rfl⟩
  | delete table condition => exact ⟨_, .delete rfl⟩
  | select table condition order limit => exact ⟨_, .select rfl⟩
  | count table label filter => exact ⟨_, .count rfl⟩

/-- What was bound asks for some request. -/
theorem exists_asks {config : Config} {text : String} {params : List Value}
    (h : config.bind text params = .ok bound) : ∃ request, bound.Asks request := by
  obtain ⟨statement, -, hbound⟩ := Config.bind_eq_ok_iff.1 h
  exact exists_asks_of_bind hbound

end BoundStatement

namespace Database

/-- On tables in memory a raw call whose statement cannot be bound changes nothing and gives the
reason. Any other makes the one request that its bound statement asks for: it leaves the store as
that request does, and fails as that request fails. -/
theorem one_request_or_none (config : Config) (now : Calendar.Instant) (memory : Memory)
    (text : String) (params : List Value) :
    match config.bind text params with
    | .error reason =>
        execute config (Memory.execute now) text params memory =
          (.ok (.unsupported reason), memory)
    | .ok bound => ∃ request, (∀ other, bound.Asks other ↔ other = request) ∧
        (execute config (Memory.execute now) text params memory).2 =
          (Memory.execute now request memory).2 ∧
        (execute config (Memory.execute now) text params memory).2.requests =
          memory.requests ++ [request] ∧
        ∀ failure, (Memory.execute now request memory).1 = .error failure →
          (execute config (Memory.execute now) text params memory).1 =
            .error (.store failure) := by
  cases hbind : config.bind text params with
  | error reason =>
      unfold execute
      rw [hbind]
      rfl
  | ok bound =>
      obtain ⟨request, hasks⟩ := BoundStatement.exists_asks hbind
      obtain ⟨call, hcall, rfl⟩ := hasks.exists_call config
      refine ⟨call.request, fun other => ⟨hasks.unique, fun hsame => hsame ▸ hasks⟩, ?_⟩
      have hmakes : config.Makes text params call := ⟨bound, hbind, hcall⟩
      rw [hmakes.execute, Call.run_eq]
      refine ⟨rfl, (Memory.served now call.request memory).takes.recorded, ?_⟩
      intro failure hfailure
      rw [hfailure]

end Database

end ClosedSql
