import ClosedSql.Proofs.Database.Sent
import ClosedSql.Proofs.Memory.Counter

/-!
# Fresh ids

A row that is stored without an id gets the next one. After an orderly run no other row has it, so
the row is found again by the id that it got. Where a change has written an id, another row may be
found instead.
-/

namespace ClosedSql

namespace Memory

variable {memory : Memory} {name : String} {table : Table}

/-- An insertion into a table that is there stores the row at the end and answers with it. -/
theorem execute_insert (now : Calendar.Instant) (record : Record)
    (htable : memory.tables.get? name = some table) (hfailures : memory.failures = []) :
    execute now (Request.insert name record).returningRows memory =
      (.ok (.ofRows [(table.identify memory.idColumn (record.resolveNow now)).1]),
        { memory with
          requests := memory.requests ++ [(Request.insert name record).returningRows]
          tables := memory.tables.insert name
            (table.add memory.idColumn (record.resolveNow now)) }) := by
  exact execute_of_accepted hfailures htable rfl now

/-- The row with an id, where it is the last and no other has the id. -/
theorem execute_get (now : Calendar.Instant) (htable : memory.tables.get? name = some table)
    (hfailures : memory.failures = []) {column : String} {id : Int64} {row : Record}
    {front : List Record} (hrows : table.rows = front ++ [row])
    (hfront : ∀ other ∈ front, (Filter.equals column (.int id)).holds other = false)
    (hrow : (Filter.equals column (.int id)).holds row = true) :
    (execute now (((Request.selectAll name).filter (.equals column (.int id))).limitTo 1)
      memory).1 = .ok (.ofRows [row]) := by
  have hmatching : table.rows.filter (satisfies [Filter.equals column (.int id)]) = [row] := by
    have hnone : front.filter (Filter.equals column (.int id)).holds = [] := by
      rw [List.filter_eq_nil_iff]
      intro other hother
      rw [hfront other hother]
      decide
    rw [satisfies_singleton, hrows, List.filter_append, hnone, List.filter_cons_of_pos hrow]
    rfl
  rw [execute_of_accepted hfailures
    (show memory.tables.get? (((Request.selectAll name).filter (.equals column (.int id))).limitTo
      1).table = some table from htable) rfl]
  change Except.ok (Table.answer _ ["*"]
    (table.rows.filter (satisfies [Filter.equals column (.int id)]))) = _
  rw [hmatching]
  rfl

variable {record : Record}

/-- Where no row has an id above the highest, a row that comes without an id gets one that no other
row has; so it is found again by the id that it got. -/
theorem get_insert_of_counts (h : memory.Counts) (htable : memory.tables.get? name = some table)
    (hfailures : memory.failures = []) (hroom : table.lastId < Int64.maxValue)
    (hrecord : record.get? memory.idColumn = none) {config : Config}
    (hconfig : config.idColumn = memory.idColumn) (now later : Calendar.Instant) :
    ∃ id row after, (Call.insert name record).run (execute now) memory = (.ok row, after) ∧
      row = (record.resolveNow now).insert memory.idColumn (.int id) ∧
      after.rows name = table.rows ++ [row] ∧
      (∀ other ∈ table.rows, (Filter.equals memory.idColumn (.int id)).holds other = false) ∧
      ((Call.get config name (.int id)).run (execute later) after).1 = .ok (some row) := by
  have hunset : (record.resolveNow now).get? memory.idColumn = none := by
    rw [Record.resolveNow, NameMap.get?_mapValues, hrecord, Option.map_none]
  have hidentify := table.identify_of_none hunset
  have hcounts : table.Counts memory.idColumn := by
    have hfound := h name
    rwa [Memory.table, htable] at hfound
  have hfresh : ∀ other ∈ table.rows,
      (Filter.equals memory.idColumn (.int (table.lastId + 1))).holds other = false := by
    intro other hother
    apply hcounts.fresh other hother
    rw [Int64.lt_iff_toInt_lt, Table.toInt_lastId_add_one hroom]
    omega
  let row := (record.resolveNow now).insert memory.idColumn (.int (table.lastId + 1))
  let after : Memory := { memory with
    requests := memory.requests ++ [(Request.insert name record).returningRows]
    tables := memory.tables.insert name (table.add memory.idColumn (record.resolveNow now)) }
  have hrows : (table.add memory.idColumn (record.resolveNow now)).rows = table.rows ++ [row] := by
    rw [Table.add, hidentify]
  have hafter : after.tables.get? name =
      some (table.add memory.idColumn (record.resolveNow now)) := by
    rw [NameMap.get?_insert, if_pos rfl]
  have hown : (Filter.equals memory.idColumn (.int (table.lastId + 1))).holds row = true := by
    refine Filter.holds_equals_iff.2 ⟨.int (table.lastId + 1), ?_, ?_⟩
    · rw [NameMap.get?_insert, if_pos rfl]
    · simp [Value.compare?]
  refine ⟨table.lastId + 1, row, after, ?_, rfl, ?_, hfresh, ?_⟩
  · have hstored := execute_insert now record htable hfailures
    rw [hidentify] at hstored
    exact (Call.insert name record).run_of_ok hstored
  · rw [rows, Memory.table, hafter]
    exact hrows
  · have hget := execute_get later hafter hfailures hrows hfresh hown
    rw [← hconfig] at hget
    exact Call.fst_run_of_ok (Call.get config name (.int (table.lastId + 1))) hget

/-- Ids that a table assigns are fresh, as long as the ids that rows come with can be taken note of
and no change writes an id: after every such run a row that is stored without an id is found again
by the id that it got. -/
theorem get_insert_of_orderly {idColumn : String} {events : List Event}
    (horderly : (empty.withIdColumn idColumn).isOrderly events = true)
    (htable : ((empty.withIdColumn idColumn).run events).tables.get? name = some table)
    (hfailures : ((empty.withIdColumn idColumn).run events).failures = [])
    (hroom : table.lastId < Int64.maxValue) (hrecord : record.get? idColumn = none)
    {config : Config} (hconfig : config.idColumn = idColumn) (now later : Calendar.Instant) :
    ∃ id row after,
      (Call.insert name record).run (execute now) ((empty.withIdColumn idColumn).run events) =
        (.ok row, after) ∧
      row = (record.resolveNow now).insert idColumn (.int id) ∧
      after.rows name = table.rows ++ [row] ∧
      (∀ other ∈ table.rows, (Filter.equals idColumn (.int id)).holds other = false) ∧
      ((Call.get config name (.int id)).run (execute later) after).1 = .ok (some row) := by
  have hcounts := (counts_withIdColumn idColumn).run horderly
  have hcolumn : ((empty.withIdColumn idColumn).run events).idColumn = idColumn :=
    idColumn_run _ _
  have hget := get_insert_of_counts hcounts htable hfailures hroom (by rwa [hcolumn])
    (by rwa [hcolumn]) now later
  rwa [hcolumn] at hget

def mixedRun : List Event :=
  [.create "notes", .seed "notes" (.ofList [("title", .text "a")]),
    .seed "notes" (.ofList [("id", .text " 12 "), ("title", .text "b")]),
    .serve ⟨0, 0⟩ (.insert "notes" (.ofList [("id", .text "now()")])),
    .serve ⟨0, 0⟩ ((Request.update "notes" (.ofList [("title", .null)])).filter
      (.equals "id" (.int 12))),
    .serve ⟨0, 0⟩ ((Request.delete "notes").filter (.equals "id" (.int 1))),
    .serve ⟨0, 0⟩ (.insert "notes" (.ofList [("id", .float (.ofInt (-3)))]))]

theorem get_insert_of_orderly_mixed :
    (empty.withIdColumn "id").isOrderly mixedRun = true ∧
      ((empty.withIdColumn "id").run mixedRun).failures = [] ∧
      ({} : Config).idColumn = "id" ∧
      ∃ table, ((empty.withIdColumn "id").run mixedRun).tables.get? "notes" = some table ∧
        table.lastId < Int64.maxValue ∧
        ∃ id row after,
          (Call.insert "notes" (.ofList [("title", .text "c")])).run (execute ⟨0, 0⟩)
              ((empty.withIdColumn "id").run mixedRun) = (.ok row, after) ∧
            row = (Record.resolveNow ⟨0, 0⟩ (.ofList [("title", .text "c")])).insert "id"
              (.int id) ∧
            after.rows "notes" = table.rows ++ [row] ∧
            (∀ other ∈ table.rows, (Filter.equals "id" (.int id)).holds other = false) ∧
            ((Call.get {} "notes" (.int id)).run (execute ⟨1, 0⟩) after).1 = .ok (some row) := by
  have horderly : (empty.withIdColumn "id").isOrderly mixedRun = true := by decide +kernel
  have hfailures : ((empty.withIdColumn "id").run mixedRun).failures = [] := by decide +kernel
  have hroom : (((empty.withIdColumn "id").run mixedRun).tables.get? "notes").any
      (fun table => decide (table.lastId < Int64.maxValue)) = true := by
    decide +kernel
  cases htable : ((empty.withIdColumn "id").run mixedRun).tables.get? "notes" with
  | none =>
      rw [htable] at hroom
      cases hroom
  | some table =>
      rw [htable] at hroom
      have hlast : table.lastId < Int64.maxValue := of_decide_eq_true hroom
      exact ⟨horderly, hfailures, rfl, table, rfl, hlast,
        get_insert_of_orderly horderly htable hfailures hlast rfl rfl ⟨0, 0⟩ ⟨1, 0⟩⟩

/-- Where a change writes an id, the next row that is stored gets the same one, and what is found by
it is the other row. -/
theorem get_insert_of_changed_id :
    ∃ memory, memory = (empty.withIdColumn "id").run
        [.seed "notes" (.ofList [("title", .text "a")]),
          .serve ⟨0, 0⟩ ((Request.update "notes" (.ofList [("id", .int 2)])).filter
            (.equals "id" (.int 1)))] ∧
      ((Call.insert "notes" (.ofList [("title", .text "b")])).run (execute ⟨0, 0⟩) memory).1 =
        .ok (.ofList [("id", .int 2), ("title", .text "b")]) ∧
      ((Call.get {} "notes" (.int 2)).run (execute ⟨0, 0⟩)
        ((Call.insert "notes" (.ofList [("title", .text "b")])).run (execute ⟨0, 0⟩)
          memory).2).1 = .ok (some (.ofList [("id", .int 2), ("title", .text "a")])) := by
  refine ⟨_, rfl, ?_, ?_⟩
  · rfl
  · rfl

end Memory

end ClosedSql
