import ClosedSql.Proofs.Memory.Service
import ClosedSql.Server
import Mathlib.Data.List.Forall2

/-!
# Requests for no rows

A request may ask for no rows. Tables in memory then answer without rows, whether the number of rows
is wanted or not. For a server such a request is written without order and limit, and only where the
number is wanted is that all that is read; otherwise every row that the server replies with is part
of the answer.
-/

namespace ClosedSql

/-! ## Reading all rows -/

/-- Reading a list reads each of its members. -/
theorem forall₂_of_mapM {α β ε : Type} {f : α → Except ε β} {list : List α} {results : List β}
    (h : list.mapM f = .ok results) :
    List.Forall₂ (fun a b => f a = .ok b) list results := by
  induction list generalizing results with
  | nil =>
      obtain rfl := Except.ok.inj h
      exact .nil
  | cons a list ih =>
      rw [List.mapM_cons] at h
      cases hfirst : f a with
      | error failure =>
          rw [hfirst] at h
          cases h
      | ok b =>
          cases hrest : list.mapM f with
          | error failure =>
              rw [hfirst, hrest] at h
              cases h
          | ok rest =>
              rw [hfirst, hrest] at h
              obtain rfl := Except.ok.inj h
              exact .cons hfirst (ih hrest)

namespace Server

variable {now : Calendar.Instant} {request : Request} {server : Server} {answer : RowSet}

/-- An answer is what is read of the reply. -/
theorem read_of_execute (h : (server.execute now request).1 = .ok answer) :
    server.reply.read request = .ok answer := by
  unfold execute at h
  split at h
  · cases h
  · split at h
    · cases h
    · simp only at h
      split at h
      · cases h
      · exact h

end Server

namespace Reply

variable {request : Request} {reply : Reply} {answer : RowSet}

/-- Where the number of rows is all that is wanted, no row is read. -/
theorem rows_of_count (counted : request.counted = true) (head : request.head = true)
    (h : reply.read request = .ok answer) : answer.rows = [] := by
  rw [read, counted, head, Bool.and_self, if_pos rfl] at h
  cases hcount : reply.readCount with
  | error failure =>
      rw [hcount] at h
      cases h
  | ok count =>
      rw [hcount] at h
      obtain rfl := Except.ok.inj h
      rfl

/-- Where no number is wanted, every row is read. -/
theorem rows_of_not_counted (counted : request.counted = false)
    (h : reply.read request = .ok answer) :
    List.Forall₂ (fun row record => reply.readRow row = .ok record) reply.rows answer.rows := by
  rw [read, counted, Bool.false_and, if_neg Bool.false_ne_true] at h
  cases hrows : reply.rows.mapM reply.readRow with
  | error failure =>
      rw [hrows] at h
      cases h
  | ok records =>
      rw [hrows] at h
      obtain rfl := Except.ok.inj h
      exact forall₂_of_mapM hrows

end Reply

namespace Memory

/-- A selection that wants no rows gets none. -/
theorem rows_of_head {request : Request} {columns : List String} {now : Calendar.Instant}
    {memory : Memory} {answer : RowSet} (action : request.action = .select columns)
    (head : request.head = true) (h : (memory.execute now request).1 = .ok answer) :
    answer.rows = [] := by
  have hserved := served now request memory
  generalize memory.execute now request = outcome at hserved h
  cases hserved with
  | doomed | missing | refused => cases h
  | @answered table free found accepted =>
      obtain rfl := Except.ok.inj h
      rw [serve, action]
      exact if_pos head

end Memory

namespace Request

variable {request : Request} {columns : List String}

/-- A selection that wants no rows is answered without rows by all tables in memory, and by every
server if it wants their number. If it does not, a server's answer has every row of its reply. -/
theorem answered_without_rows (action : request.action = .select columns)
    (head : request.head = true) :
    (∀ now memory answer, (Memory.execute now request memory).1 = .ok answer → answer.rows = []) ∧
      ∀ now server answer, (Server.execute now request server).1 = .ok answer →
        (request.counted = true → answer.rows = []) ∧
          (request.counted = false →
            List.Forall₂ (fun row record => server.reply.readRow row = .ok record)
              server.reply.rows answer.rows) := by
  refine ⟨fun now memory answer => Memory.rows_of_head action head, ?_⟩
  intro now server answer hanswer
  have hread := Server.read_of_execute hanswer
  exact ⟨fun counted => Reply.rows_of_count counted head hread,
    fun counted => Reply.rows_of_not_counted counted hread⟩

/-- The notes that are ranked high, of which none is wanted. -/
def noHighRanks : Request :=
  ((Request.selectAll "notes").filter ⟨"rank", .ge, .int 5⟩).headOnly

/-- The number of the notes that are ranked high, and none of them. -/
def highRanks : Request :=
  (((Request.selectAll "notes").filter ⟨"rank", .ge, .int 5⟩).counting).headOnly

theorem answered_without_rows_highRanks :
    (highRanks.action = .select ["*"] ∧ highRanks.head = true ∧ highRanks.counted = true ∧
        (∀ now memory answer, (Memory.execute now highRanks memory).1 = .ok answer →
          answer.rows = []) ∧
        ∀ now server answer, (Server.execute now highRanks server).1 = .ok answer →
          (highRanks.counted = true → answer.rows = []) ∧
            (highRanks.counted = false →
              List.Forall₂ (fun row record => server.reply.readRow row = .ok record)
                server.reply.rows answer.rows)) ∧
      noHighRanks.action = .select ["*"] ∧ noHighRanks.head = true ∧ noHighRanks.counted = false ∧
        (∀ now memory answer, (Memory.execute now noHighRanks memory).1 = .ok answer →
          answer.rows = []) ∧
        ∀ now server answer, (Server.execute now noHighRanks server).1 = .ok answer →
          (noHighRanks.counted = true → answer.rows = []) ∧
            (noHighRanks.counted = false →
              List.Forall₂ (fun row record => server.reply.readRow row = .ok record)
                server.reply.rows answer.rows) :=
  ⟨⟨rfl, rfl, rfl, answered_without_rows rfl rfl⟩, rfl, rfl, rfl, answered_without_rows rfl rfl⟩

def oneTitle : Reply :=
  { Reply.empty with columns := [("title", .text)], rows := [[.datum (.text "a")]] }

/-- A selection that wants neither rows nor their number is answered without rows by tables in
memory, and with every row by a server. -/
theorem answered_with_rows :
    ((Memory.empty.withRows "notes" [.ofList [("title", .text "a")]]).execute ⟨0, 0⟩
        (Request.select "notes" ["title"]).headOnly).1 = .ok .empty ∧
      ((Server.start.prepare oneTitle).execute ⟨0, 0⟩
        (Request.select "notes" ["title"]).headOnly).1 =
          .ok (.ofRows [.ofList [("title", .text "a")]]) :=
  ⟨rfl, rfl⟩

end Request

end ClosedSql
