import ClosedSql.Proofs.Database.Sent
import ClosedSql.Proofs.Statement.Binding

/-!
# Calls that texts make

A text with parameters makes a call, if it is read and bound. Every method for raw calls runs that
call and differs from the others only in how it reads the outcome.
-/

namespace ClosedSql

variable {σ α β : Type}

namespace Call

def sent (call : Call α) (store : Store σ) (state : σ) : List Request :=
  (call.run store.recorded ([], state)).2.1

theorem sent_eq (call : Call α) (store : Store σ) (state : σ) :
    call.sent store state = [call.request] := by
  rw [sent, run_recorded]
  rfl

def andThen (call : Call α) (read : α → Except Fault β) : Call β :=
  ⟨call.request, fun answer => (call.read answer).bind read⟩

theorem request_andThen (call : Call α) (read : α → Except Fault β) :
    (call.andThen read).request = call.request :=
  rfl

theorem run_andThen (call : Call α) (read : α → Except Fault β) (store : Store σ) (state : σ) :
    (call.andThen read).run store state =
      ((call.run store state).1.bind read, (call.run store state).2) := by
  rw [run_eq, run_eq, request_andThen]
  cases (store call.request state).1 <;> rfl

end Call

def Config.Makes (config : Config) (text : String) (params : List Value) (call : Call Outcome) :
    Prop :=
  ∃ bound, config.bind text params = .ok bound ∧ bound.call? config = some call

namespace Config.Makes

variable {config : Config} {text : String} {params : List Value} {call : Call Outcome}

theorem of_ofText {statement : Statement} {kept : Option (Condition Slot)}
    (hread : Statement.ofText (config.normalize text) = .ok statement)
    (hkept : statement.keptCondition config.countPolicy = .ok kept)
    (hmismatch : statement.mismatch? kept.isSome params.length = none)
    (hliteral : kept.any Statement.isLiteral = false)
    (hcall : (statement.numbered kept params).call? config = some call) :
    config.Makes text params call := by
  have hbind : statement.bind config params = .ok (statement.numbered kept params) :=
    Statement.bind_eq_ok_iff_numbered.2
      ⟨kept, hkept, hmismatch, by rw [hliteral, Bool.and_false], rfl⟩
  exact ⟨_, Config.bind_eq_ok_iff.2 ⟨statement, hread, hbind⟩, hcall⟩

/-- A text that makes a call is carried out as that call. -/
theorem execute (h : config.Makes text params call) (store : Store σ) :
    Database.execute config store text params = call.run store := by
  obtain ⟨bound, hbind, hcall⟩ := h
  rw [Database.execute, hbind]
  change bound.dispatch config store = _
  rw [BoundStatement.dispatch, hcall]

theorem sent (h : config.Makes text params call) (store : Store σ) (state : σ) :
    Database.sent config store text params state = [call.request] := by
  rw [Database.sent, h.execute]
  exact call.sent_eq store state

theorem query (h : config.Makes text params call) (store : Store σ) :
    Database.query config store text params =
      (call.andThen (Database.rowsOf config)).run store := by
  funext state
  rw [Call.run_andThen, ← h.execute]
  rfl

theorem queryOne (h : config.Makes text params call) (store : Store σ) :
    Database.queryOne config store text params =
      (call.andThen fun outcome =>
        (Database.rowsOf config outcome).map List.head?).run store := by
  funext state
  have hfirst : Database.queryOne config store text params state =
      ((Database.query config store text params state).1.map List.head?,
        (Database.query config store text params state).2) := rfl
  rw [hfirst, h.query, Call.run_andThen, Call.run_andThen]
  cases (call.run store state).1 <;> rfl

theorem run (h : config.Makes text params call) (store : Store σ) :
    Database.run config store text params =
      (call.andThen (Database.changesOf config)).run store := by
  funext state
  rw [Call.run_andThen, ← h.execute]
  rfl

end Config.Makes

namespace BoundStatement

variable {bound : BoundStatement} {table : String} {columns : List String} {record : Record}

/-- The call of an insertion. -/
theorem call?_insert (config : Config) (hshape : bound.shape = .insert table columns)
    (hassignments : bound.assignments = record) :
    bound.call? config = some ⟨(Request.insert table record).returningRows, fun answer =>
      .ok (.mutation (answer.first?.bind fun row => row.get? config.idColumn) 1)⟩ := by
  subst hassignments
  rw [call?, hshape]

/-- The call of a change. -/
theorem call?_update (config : Config) (hshape : bound.shape = .update table columns)
    (hassignments : bound.assignments = record) {found : Option Filter}
    (hfilter : bound.filter? = found) :
    bound.call? config = some ⟨((Request.update table record).filter? found).returningRows,
      fun answer => .ok (.mutation none answer.rows.length)⟩ := by
  subst hassignments hfilter
  rw [call?, hshape]

/-- The call of a deletion. -/
theorem call?_delete (config : Config) (hshape : bound.shape = .delete table)
    {found : Option Filter} (hfilter : bound.filter? = found) :
    bound.call? config = some ⟨((Request.delete table).filter? found).returningRows,
      fun answer => .ok (.mutation none answer.rows.length)⟩ := by
  subst hfilter
  rw [call?, hshape]

/-- The call of a reading answers with rows. -/
theorem read_of_call? {config : Config} {call : Call Outcome}
    (hshape : bound.shape = .select table ∨ bound.shape = .count table)
    (hcall : bound.call? config = some call) (answer : RowSet) :
    ∃ rows, call.read answer = .ok (.rows rows) := by
  rw [call?] at hcall
  rcases hshape with hshape | hshape
  · rw [hshape] at hcall
    cases hcall
    exact ⟨_, rfl⟩
  · rw [hshape] at hcall
    cases hcall
    exact ⟨_, rfl⟩

end BoundStatement

end ClosedSql
