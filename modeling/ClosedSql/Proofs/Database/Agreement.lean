import ClosedSql.Proofs.Database.TextCalls
import ClosedSql.Proofs.Memory.Service

/-!
# Raw and structured calls agree

Each structured call has its counterpart among the texts. The two come to the same: the text is read
and bound to a call of the very request that the structured call makes, so every store is sent the
same and left in the same state, and what tables in memory answer is reported alike. A deletion
differs in one thing, since the raw one asks for the rows that it concerns.
-/

namespace ClosedSql

variable {α β : Type}

/-! ## What tables in memory answer -/

namespace Memory

/-- An insertion that succeeds is answered with the one row that was stored. -/
theorem rows_of_execute_insert {now : Calendar.Instant} {table : String} {record : Record}
    {memory : Memory} {answer : RowSet}
    (h : (execute now (Request.insert table record).returningRows memory).1 = .ok answer) :
    ∃ row, answer = .ofRows [row] := by
  have hserved := served now (Request.insert table record).returningRows memory
  generalize execute now (Request.insert table record).returningRows memory = outcome at h hserved
  cases hserved with
  | doomed _ => cases h
  | missing _ _ => cases h
  | refused _ _ _ => cases h
  | answered _ _ _ => exact ⟨_, (Except.ok.inj h).symm⟩

/-- Asking for the rows changes nothing in a table. -/
theorem serve_returningRows (idColumn : String) (now : Calendar.Instant) (request : Request)
    (table : Table) :
    (serve idColumn now request.returningRows table).2 = (serve idColumn now request table).2 := by
  obtain ⟨name, action, filters, order, limit, counted, head, returning⟩ := request
  cases action <;> rfl

/-- Asking for the rows that a request concerns changes nothing but the record of the request. -/
theorem execute_returningRows (now : Calendar.Instant) (request : Request) (memory : Memory) :
    (execute now request.returningRows memory).2 =
      { (execute now request memory).2 with
        requests := memory.requests ++ [request.returningRows] } := by
  have hrefusal : refusal? request.returningRows = refusal? request := rfl
  have htable : request.returningRows.table = request.table := rfl
  unfold execute
  cases memory.failures with
  | cons message rest => rfl
  | nil =>
      simp only [apply, hrefusal, htable]
      cases memory.tables.get? request.table with
      | none => rfl
      | some found =>
          cases refusal? request with
          | some failure => rfl
          | none => simp only [serve_returningRows]

/-- A request fails alike whether or not it asks for the rows that it concerns. -/
theorem outcome_returningRows (now : Calendar.Instant) (request : Request) (memory : Memory) :
    (∃ failure, (execute now request.returningRows memory).1 = .error failure ∧
        (execute now request memory).1 = .error failure) ∨
      ∃ rows answer, (execute now request.returningRows memory).1 = .ok rows ∧
        (execute now request memory).1 = .ok answer := by
  have hrefusal : refusal? request.returningRows = refusal? request := rfl
  have htable : request.returningRows.table = request.table := rfl
  unfold execute
  cases memory.failures with
  | cons message rest => exact .inl ⟨_, rfl, rfl⟩
  | nil =>
      simp only [apply, hrefusal, htable]
      cases memory.tables.get? request.table with
      | none => exact .inl ⟨_, rfl, rfl⟩
      | some found =>
          cases refusal? request with
          | some failure => exact .inl ⟨_, rfl, rfl⟩
          | none => exact .inr ⟨_, _, rfl, rfl⟩

end Memory

/-! ## Agreement -/

namespace Database

/-- A raw call comes to the same as a structured one. Every store is sent the same requests and left
in the same state, and what is reported of tables in memory goes together. -/
structure Agrees (method : {σ : Type} → Config → Store σ → String → List Value →
      StateM σ (Except Fault β)) (config : Config) (text : String) (params : List Value)
    (call : Call α) (report : Except Fault α → Except Fault β → Prop) : Prop where
  sends : ∀ {σ : Type} (store : Store σ) (state : σ),
    sent config store text params state = call.sent store state
  leaves : ∀ {σ : Type} (store : Store σ) (state : σ),
    (method config store text params state).2 = (call.run store state).2
  reports : ∀ (now : Calendar.Instant) (memory : Memory),
    report (call.run (Memory.execute now) memory).1
      (method config (Memory.execute now) text params memory).1

/-- The rows of a raw count go with the number of a structured one. -/
def CountReported (config : Config) (number : Except Fault Nat)
    (rows : Except Fault (List Record)) : Prop :=
  rows = number.map fun number => [config.countRow number]

/-- The id that a raw insertion reports is that of the row which a structured one gives back. -/
def InsertReported (config : Config) (row : Except Fault Record)
    (changes : Except Fault Changes) : Prop :=
  changes = row.map fun row => ⟨row.get? config.idColumn, 1⟩

/-- A raw change counts the rows that a structured one finds: none where there is no such row. -/
inductive UpdateReported (table : String) (id : Value) :
    Except Fault Record → Except Fault Changes → Prop
  | changed (row : Record) (more : Nat) : UpdateReported table id (.ok row) (.ok ⟨none, more + 1⟩)
  | absent : UpdateReported table id (.error (.noSuchRow table id.display)) (.ok ⟨none, 0⟩)
  | failed (failure : Failure) :
      UpdateReported table id (.error (.store failure)) (.error (.store failure))

/-- Of a deletion both report that it was carried out, and the raw one how many rows it
concerned. -/
inductive DeleteReported : Except Fault Unit → Except Fault Changes → Prop
  | deleted (count : Nat) : DeleteReported (.ok ()) (.ok ⟨none, count⟩)
  | failed (failure : Failure) : DeleteReported (.error (.store failure)) (.error (.store failure))

/-- A raw deletion comes to the same as a structured one, but that it asks for the rows. -/
structure DeleteAgrees (config : Config) (text : String) (params : List Value) (call : Call Unit) :
    Prop where
  sends : ∀ {σ : Type} (store : Store σ) (state : σ),
    sent config store text params state = (call.sent store state).map Request.returningRows
  leaves : ∀ (now : Calendar.Instant) (memory : Memory),
    (run config (Memory.execute now) text params memory).2 =
      { (call.run (Memory.execute now) memory).2 with
        requests := memory.requests ++ [call.request.returningRows] }
  reports : ∀ (now : Calendar.Instant) (memory : Memory),
    DeleteReported (call.run (Memory.execute now) memory).1
      (run config (Memory.execute now) text params memory).1

/-- Each structured call agrees with the raw call of its text. -/
structure CallsAgree (config : Config) (table column : String) (columns : List String)
    (value id : Value) (values : List Value) : Prop where
  all : Agrees query config (RawText.all table) [] (Call.all table) Eq
  get : Agrees queryOne config (RawText.get table config.idColumn) [id]
    (Call.get config table id) Eq
  find : Agrees query config (RawText.find table column) [value]
    (Call.find table (.ofList [(column, value)])) Eq
  count : Agrees query config (RawText.count table) [] (Call.count table none)
    (CountReported config)
  countWhere : Agrees query config (RawText.countWhere table column) [value]
    (Call.count table (config.counted (.ofList [(column, value)]))) (CountReported config)
  insert : Agrees run config (RawText.insert table columns) values
    (Call.insert table (.ofList (columns.zip values))) (InsertReported config)
  update : Agrees run config (RawText.update table columns config.idColumn) (values ++ [id])
    (Call.update config table id (.ofList (columns.zip values))) (UpdateReported table id)
  delete : DeleteAgrees config (RawText.delete table config.idColumn) [id]
    (Call.delete config table id)

/-- A raw call agrees with a call of the same request, where the answers do. -/
theorem agrees_of_run {method : {σ : Type} → Config → Store σ → String → List Value →
      StateM σ (Except Fault β)} {config : Config} {text : String} {params : List Value}
    {raw : Call Outcome} {read : Outcome → Except Fault β} {call : Call α}
    {report : Except Fault α → Except Fault β → Prop} (hmakes : config.Makes text params raw)
    (hmethod : ∀ {σ : Type} (store : Store σ),
      method config store text params = (raw.andThen read).run store)
    (hrequest : raw.request = call.request)
    (hfailed : ∀ failure, report (.error (.store failure)) (.error (.store failure)))
    (hreport : ∀ now memory answer, (Memory.execute now call.request memory).1 = .ok answer →
      report (call.read answer) ((raw.andThen read).read answer)) :
    Agrees method config text params call report where
  sends := by
    intro σ store state
    rw [hmakes.sent, call.sent_eq, hrequest]
  leaves := by
    intro σ store state
    rw [hmethod, Call.run_eq, Call.run_eq]
    exact congrArg (fun request => (store request state).2) hrequest
  reports := by
    intro now memory
    rw [hmethod, Call.run_eq, Call.run_eq, Call.request_andThen, hrequest]
    cases hanswer : (Memory.execute now call.request memory).1 with
    | error failure => exact hfailed failure
    | ok answer => exact hreport now memory answer hanswer

variable {config : Config} {table column : String} {columns : List String}
  {value id : Value} {values : List Value}

theorem agrees_insert (htable : IsPlainName table) (hne : columns ≠ []) (hdistinct : columns.Nodup)
    (hcolumns : ∀ column ∈ columns, IsPlainName column) (hlength : columns.length = values.length) :
    Agrees run config (RawText.insert table columns) values
      (Call.insert table (.ofList (columns.zip values))) (InsertReported config) := by
  have hmakes := config.makes_insert htable hne hdistinct hcolumns hlength
  refine agrees_of_run hmakes hmakes.run rfl (fun _ => rfl) ?_
  intro now memory answer hanswer
  obtain ⟨row, rfl⟩ := Memory.rows_of_execute_insert hanswer
  rfl

theorem agrees_update (htable : IsPlainName table) (hid : IsPlainName config.idColumn)
    (hne : columns ≠ []) (hdistinct : columns.Nodup)
    (hcolumns : ∀ column ∈ columns, IsPlainName column) (hlength : columns.length = values.length) :
    Agrees run config (RawText.update table columns config.idColumn) (values ++ [id])
      (Call.update config table id (.ofList (columns.zip values))) (UpdateReported table id) := by
  have hmakes : config.Makes _ (values ++ [id]) _ :=
    config.makes_update htable hid hne hdistinct hcolumns hlength
  refine agrees_of_run hmakes hmakes.run rfl .failed ?_
  rintro now memory ⟨rows, count⟩ -
  cases rows with
  | nil => exact .absent
  | cons row others => exact .changed row others.length

/-- A raw deletion agrees with the structured one up to the rows it asks for. -/
theorem deleteAgrees (htable : IsPlainName table) (hid : IsPlainName config.idColumn) :
    DeleteAgrees config (RawText.delete table config.idColumn) [id]
      (Call.delete config table id) := by
  have hmakes : config.Makes _ [id] _ := config.makes_delete htable hid
  constructor
  · intro σ store state
    rw [hmakes.sent, Call.sent_eq]
    rfl
  · intro now memory
    rw [hmakes.run, Call.run_eq, Call.run_eq]
    exact Memory.execute_returningRows now (Call.delete config table id).request memory
  · intro now memory
    rw [hmakes.run, Call.run_eq, Call.run_eq, Call.request_andThen]
    rcases Memory.outcome_returningRows now (Call.delete config table id).request memory with
      ⟨failure, hrows, hplain⟩ | ⟨rows, answer, hrows, hplain⟩
    · rw [hrows, hplain]
      exact .failed failure
    · rw [hrows, hplain]
      exact .deleted rows.rows.length

/-- Raw and structured calls agree, whatever plain names the table, the columns and the id have, and
whatever the values are. -/
theorem calls_agree (htable : IsPlainName table) (hid : IsPlainName config.idColumn)
    (hcolumn : IsPlainName column) (hne : columns ≠ []) (hdistinct : columns.Nodup)
    (hcolumns : ∀ column ∈ columns, IsPlainName column) (hlength : columns.length = values.length) :
    CallsAgree config table column columns value id values where
  all := agrees_of_run (config.makes_all htable) (config.makes_all htable).query rfl
    (fun _ => rfl) fun _ _ _ _ => rfl
  get := agrees_of_run (config.makes_get htable hid) (config.makes_get htable hid).queryOne rfl
    (fun _ => rfl) fun _ _ _ _ => rfl
  find := agrees_of_run (config.makes_find htable hcolumn)
    (config.makes_find htable hcolumn).query rfl (fun _ => rfl) fun _ _ _ _ => rfl
  count := agrees_of_run (config.makes_count htable) (config.makes_count htable).query rfl
    (fun _ => rfl) fun _ _ _ _ => rfl
  countWhere := agrees_of_run (config.makes_countWhere htable hcolumn)
    (config.makes_countWhere htable hcolumn).query rfl (fun _ => rfl) fun _ _ _ _ => rfl
  insert := agrees_insert htable hne hdistinct hcolumns hlength
  update := agrees_update htable hid hne hdistinct hcolumns hlength
  delete := deleteAgrees htable hid

/-- A table that is called like a keyword of counts, with an id column of its own and columns that
are not in order. -/
theorem calls_agree_uid :
    IsPlainName "Count" ∧ IsPlainName ({ idColumn := "uid" } : Config).idColumn ∧
      IsPlainName "note" ∧ ["title", "due"] ≠ [] ∧ ["title", "due"].Nodup ∧
      (∀ column ∈ ["title", "due"], IsPlainName column) ∧
      ["title", "due"].length = ([.text "x' OR 1 = 1", .null] : List Value).length ∧
      CallsAgree { idColumn := "uid" } "Count" "note" ["title", "due"] (.text "now()") (.int 0)
        [.text "x' OR 1 = 1", .null] := by
  have htable : IsPlainName "Count" := by decide
  have hid : IsPlainName ({ idColumn := "uid" } : Config).idColumn := by decide
  have hcolumn : IsPlainName "note" := by decide
  have hcolumns : ∀ column ∈ ["title", "due"], IsPlainName column := by decide
  have hdistinct : ["title", "due"].Nodup := by decide
  exact ⟨htable, hid, hcolumn, by decide, hdistinct, hcolumns, rfl,
    calls_agree htable hid hcolumn (by decide) hdistinct hcolumns rfl⟩

end Database

end ClosedSql
