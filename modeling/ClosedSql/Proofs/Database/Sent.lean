import ClosedSql.Database

/-!
# Requests that are sent

What a raw call sends to its store is observed by a store that keeps a record of its requests and
otherwise serves them as before. A raw call sends the request of its bound statement, or nothing.
-/

namespace ClosedSql

variable {σ α : Type}

/-- The same store, with a record of its requests in their order. -/
def Store.recorded (store : Store σ) : Store (List Request × σ) := fun request state =>
  ((store request state.2).1, (state.1 ++ [request], (store request state.2).2))

theorem Call.run_eq (call : Call α) (store : Store σ) (state : σ) :
    call.run store state =
      (match (store call.request state).1 with
        | .ok answer => call.read answer
        | .error failure => .error (.store failure), (store call.request state).2) := by
  unfold Call.run
  change (match (store call.request state).1 with
    | .ok answer => (pure (call.read answer) : StateM σ _)
    | .error failure => pure (.error (.store failure))) (store call.request state).2 = _
  cases (store call.request state).1 with
  | error failure => rfl
  | ok answer => rfl

/-- A call whose request is answered reads the answer. -/
theorem Call.run_of_ok (call : Call α) {store : Store σ} {state after : σ} {answer : RowSet}
    (h : store call.request state = (.ok answer, after)) :
    call.run store state = (call.read answer, after) := by
  rw [run_eq, h]

theorem Call.fst_run_of_ok (call : Call α) {store : Store σ} {state : σ} {answer : RowSet}
    (h : (store call.request state).1 = .ok answer) :
    (call.run store state).1 = call.read answer := by
  rw [run_eq, h]

/-- A call sends its request and is answered as without a record. -/
theorem Call.run_recorded (call : Call α) (store : Store σ) (requests : List Request) (state : σ) :
    call.run store.recorded (requests, state) =
      ((call.run store state).1, (requests ++ [call.request], (call.run store state).2)) := by
  rw [Call.run_eq, Call.run_eq]
  rfl

/-- What is recorded of a call that is carried out is its request. -/
theorem BoundStatement.dispatch_recorded (bound : BoundStatement) (config : Config)
    (store : Store σ) (state : σ) :
    bound.dispatch config store.recorded ([], state) =
      ((bound.dispatch config store state).1,
        (((bound.call? config).map Call.request).toList,
          (bound.dispatch config store state).2)) := by
  unfold dispatch
  cases bound.call? config with
  | none => rfl
  | some call => exact call.run_recorded store [] state

namespace Database

variable (config : Config) (store : Store σ) (text : String) (params : List Value) (state : σ)

/-- The requests that a statement sends to a store. -/
def sent : List Request :=
  (execute config store.recorded text params ([], state)).2.1

def request? : Option Request :=
  match config.bind text params with
  | .ok bound => (bound.call? config).map Call.request
  | .error _ => none

/-- With a record, a statement has the same outcome and leaves the same state behind; what it
sends is its request, if it makes one. -/
theorem execute_recorded :
    execute config store.recorded text params ([], state) =
      ((execute config store text params state).1,
        ((request? config text params).toList, (execute config store text params state).2)) := by
  unfold execute request?
  cases config.bind text params with
  | error reason => rfl
  | ok bound =>
      exact bound.dispatch_recorded config store state

/-- A text sends the request it makes, or nothing. -/
theorem sent_eq : sent config store text params state = (request? config text params).toList := by
  rw [sent, execute_recorded]

end Database

end ClosedSql
