import ClosedSql.Proofs.Database.MutationSafety
import ClosedSql.Proofs.Statement.Slots

/-!
# Every column gets its own value

In the SQL of an insertion or a change the columns stand in the order of their names, whatever their
order in the text. The parameter at the place of a column is the value that the text gives that very
column, and the last parameter of a change or a deletion is the value its condition compares with.
-/

namespace ClosedSql

/-! ## SQL with numbered columns -/

namespace SqlPart

def insertion (table : String) (placed : List (String × Nat)) : List SqlPart :=
  [fixed "INSERT INTO ", name table, fixed " ("] ++
    separated ", " (placed.map fun column => [name column.1]) ++ [fixed ") VALUES ("] ++
    separated ", " (placed.map fun column => [param column.2]) ++ [fixed ")"]

def setting (table : String) (placed : List (String × Nat)) : List SqlPart :=
  [fixed "UPDATE ", name table, fixed " SET "] ++
    separated ", " (placed.map fun column => [name column.1, fixed " = ", param column.2])

def comparison (column : String) (op : CompareOp) (number : Nat) : List SqlPart :=
  [fixed " WHERE ", name column, fixed (" " ++ op.symbol ++ " "), param number]

def deletion (table : String) : List SqlPart :=
  [fixed "DELETE FROM ", name table]

def rowsWanted : List SqlPart :=
  [fixed " RETURNING *"]

end SqlPart

/-- The columns of a statement are placed once each, and the parameter at the place of a column is
the value that the statement gives it. -/
structure Statement.Places (statement : Statement) (params : List Value) (query : Query)
    (placed : List (String × Nat)) : Prop where
  distinct : statement.columns.Nodup
  once : (placed.map Prod.fst).Perm statement.columns
  paired : ∀ column number, (column, number) ∈ placed → 0 < number ∧
    ∃ value, statement.given? params column = some value ∧
      query.params[number - 1]? = some value

/-- The last parameter is the value that the condition of a statement compares with. -/
structure Statement.Compares (statement : Statement) (params : List Value) (query : Query)
    (number : Nat) : Prop where
  last : number = query.params.length
  positive : 0 < number
  value : ∃ value, statement.valueAt? params statement.values.length = some value ∧
    query.params[number - 1]? = some value

/-- How a statement that changes rows is written with its parameters. -/
inductive Statement.Written (params : List Value) (query : Query) : Statement → Prop
  | insert {table : String} {columns : List String} {values : List Slot}
      {placed : List (String × Nat)}
      (text : query.text = SqlPart.join (SqlPart.insertion table placed ++ SqlPart.rowsWanted))
      (places : (Statement.insert table columns values).Places params query placed) :
      Written params query (.insert table columns values)
  | update {table : String} {assignments : List (String × Slot)} {condition : Condition Slot}
      {placed : List (String × Nat)} {number : Nat}
      (text : query.text = SqlPart.join (SqlPart.setting table placed ++
        SqlPart.comparison condition.column condition.op number ++ SqlPart.rowsWanted))
      (places : (Statement.update table assignments condition).Places params query placed)
      (compares : (Statement.update table assignments condition).Compares params query number) :
      Written params query (.update table assignments condition)
  | delete {table : String} {condition : Condition Slot} {number : Nat}
      (text : query.text = SqlPart.join (SqlPart.deletion table ++
        SqlPart.comparison condition.column condition.op number ++ SqlPart.rowsWanted))
      (compares : (Statement.delete table condition).Compares params query number) :
      Written params query (.delete table condition)

/-! ## Places of a record -/

/-- The columns of a record with the numbers of their parameters. -/
def Record.placed (record : Record) : List (String × Nat) :=
  record.names.zipIdx 1

theorem Record.map_fst_placed (record : Record) : record.placed.map Prod.fst = record.names :=
  List.zipIdx_map_fst 1 record.names

/-- The parameter at the place of a column is the column's value in the record. -/
theorem Record.mem_placed_iff {record : Record} {column : String} {number : Nat} :
    (column, number) ∈ record.placed ↔
      1 ≤ number ∧ ∃ value, record.entries[number - 1]? = some (column, value) := by
  rw [placed, List.mk_mem_zipIdx_iff_le_and_getElem?_sub, NameMap.names, List.getElem?_map]
  simp [Option.map_eq_some_iff]

namespace Request

open SqlPart

/-- An insertion is written with the columns of its record in their places. -/
theorem actionParts_insert {table : String} {record : Record} (h : record.isEmpty = false) :
    (Request.insert table record).actionParts = insertion table record.placed := by
  have hcolumns : record.names.map (fun column => [name column]) =
      record.placed.map fun column => [name column.1] := by
    rw [← record.map_fst_placed, List.map_map]
    rfl
  have hnumbers : (List.range record.size).map (fun index => [param (index + 1)]) =
      record.placed.map fun column => [param column.2] := by
    have hsnd : record.placed.map Prod.snd = (List.range record.size).map (1 + ·) := by
      rw [Record.placed, List.zipIdx_map_snd, List.range'_eq_map_range, NameMap.names,
        List.length_map, NameMap.size]
    have hmap := congrArg (List.map fun number => [param number]) hsnd
    rw [List.map_map, List.map_map] at hmap
    simpa [Function.comp_def, Nat.add_comm] using hmap.symm
  change (if record.isEmpty then _ else _) = _
  rw [h, insertion, ← hcolumns, ← hnumbers]
  rfl

/-- A change is written with the columns of its record in their places. -/
theorem actionParts_update (table : String) (values : Record) :
    (Request.update table values).actionParts = setting table values.placed := by
  rw [setting, Record.placed, List.zipIdx_succ, List.map_map]
  rfl

/-- An insertion as SQL. -/
theorem toQuery_insert {table : String} {record : Record} (h : record.isEmpty = false) :
    (Request.insert table record).returningRows.toQuery =
      .ok ⟨join (insertion table record.placed ++ rowsWanted), record.entries.map Prod.snd⟩ := by
  have hparts : (Request.insert table record).returningRows.parts =
      (Request.insert table record).actionParts ++ [] ++ rowsWanted := rfl
  have hparams : (Request.insert table record).returningRows.params =
      record.entries.map Prod.snd ++ [] := rfl
  rw [actionParts_insert h, List.append_nil] at hparts
  rw [List.append_nil] at hparams
  rw [← hparts, ← hparams]
  rfl

/-- A change with one filter as SQL. -/
theorem toQuery_update {table : String} {values : Record} {found : Option Filter} {filter : Filter}
    (hfound : found = some filter) (h : values.isEmpty = false) :
    ((Request.update table values).filter? found).returningRows.toQuery =
      .ok ⟨join (setting table values.placed ++
          comparison filter.column filter.op (values.entries.length + 1) ++ rowsWanted),
        values.entries.map Prod.snd ++ [filter.operand]⟩ := by
  subst hfound
  have hcondition : ((Request.update table values).filter filter).returningRows.conditionParts =
      comparison filter.column filter.op ((values.entries.map Prod.snd).length + 1) :=
    conditionParts_of_filters rfl
  rw [List.length_map] at hcondition
  rw [← actionParts_update, ← hcondition, toQuery]
  exact if_neg (Bool.eq_false_iff.1 h)

/-- A deletion with one filter as SQL. -/
theorem toQuery_delete {table : String} {found : Option Filter} {filter : Filter}
    (hfound : found = some filter) :
    ((Request.delete table).filter? found).returningRows.toQuery =
      .ok ⟨join (deletion table ++ comparison filter.column filter.op 1 ++ rowsWanted),
        [filter.operand]⟩ := by
  subst hfound
  rfl

end Request

namespace Statement

variable {statement : Statement} {params : List Value} {query : Query}

theorem columns_numbered (statement : Statement) (kept : Option (Condition Slot))
    (params : List Value) : (statement.numbered kept params).columns = statement.columns := by
  cases statement <;> rfl

/-- The columns of a statement with the values they are bound to. -/
theorem map_fst_assigned (hlength : statement.columns.length = statement.values.length)
    (kept : Option (Condition Slot)) (params : List Value)
    (resolve : Operand → Value) :
    (((statement.numbered kept params).columns.zip (statement.numbered kept params).values).map
      fun pair => (pair.1, resolve pair.2)).map Prod.fst = statement.columns := by
  rw [List.map_map, columns_numbered]
  change (statement.columns.zip (numberSlots 0 statement.values)).map Prod.fst = _
  exact List.map_fst_zip (Nat.le_of_eq (hlength.trans (length_numberSlots 0 _).symm))

theorem isEmpty_assignments (hlength : statement.columns.length = statement.values.length)
    (hcolumns : statement.columns ≠ []) (kept : Option (Condition Slot)) (params : List Value) :
    (statement.numbered kept params).assignments.isEmpty = false := by
  apply NameMap.isEmpty_ofList
  intro hnil
  have hfst := map_fst_assigned hlength kept params (statement.numbered kept params).resolve
  rw [hnil] at hfst
  exact hcolumns hfst.symm

/-- The record of a statement holds what the statement gives its columns. -/
theorem given?_of_mem_assignments (hdistinct : statement.columns.Nodup)
    (hparams : placeholdersIn statement.slots ≤ params.length) {column : String} {value : Value}
    (h : (column, value) ∈
      (statement.numbered statement.condition? params).assignments.entries) :
    statement.given? params column = some value := by
  obtain ⟨⟨name, operand⟩, hpair, heq⟩ := List.mem_map.1 (NameMap.mem_of_mem_ofList h)
  cases heq
  obtain ⟨place, hplace⟩ := List.getElem?_of_mem hpair
  obtain ⟨hcolumn, hoperand⟩ := List.getElem?_zip_eq_some.1 hplace
  rw [columns_numbered] at hcolumn
  obtain ⟨hlt, hname⟩ := List.getElem?_eq_some_iff.1 hcolumn
  -- no name occurs twice, so the place of the pair is the only place of its column
  have hidx : statement.columns.idxOf? name = some place := by
    rw [List.idxOf?_eq_some_iff]
    refine ⟨hlt, hname, fun other hother heq => ?_⟩
    exact List.pairwise_iff_getElem.1 hdistinct other place _ hlt hother (heq.trans hname.symm)
  have hoperands : (statement.numbered statement.condition? params).operands[place]? =
      some operand := by
    rw [BoundStatement.operands, List.getElem?_append_left]
    · exact hoperand
    · exact (List.getElem?_eq_some_iff.1 hoperand).1
  rw [given?, hidx, Option.bind_some, valueAt?_of_operands hparams hoperands]

/-- Each column stands beside the number of its own parameter. -/
theorem places_of_params (hdistinct : statement.columns.Nodup)
    (hlength : statement.columns.length = statement.values.length)
    (hparams : placeholdersIn statement.slots ≤ params.length) {rest : List Value}
    (hquery : query.params =
      (statement.numbered statement.condition? params).assignments.entries.map Prod.snd ++ rest) :
    statement.Places params query
      (statement.numbered statement.condition? params).assignments.placed where
  distinct := hdistinct
  once := by
    have hnames := map_fst_assigned hlength statement.condition? params
      (statement.numbered statement.condition? params).resolve
    rw [Record.map_fst_placed]
    have hperm := NameMap.names_ofList_perm (hnames ▸ hdistinct)
    rwa [hnames] at hperm
  paired := by
    intro column number hplaced
    obtain ⟨hnumber, value, hentry⟩ := Record.mem_placed_iff.1 hplaced
    refine ⟨hnumber, value, given?_of_mem_assignments hdistinct hparams
      (List.mem_of_getElem? hentry), ?_⟩
    rw [hquery, List.getElem?_append_left]
    · rw [List.getElem?_map, hentry]
      rfl
    · rw [List.length_map]
      exact (List.getElem?_eq_some_iff.1 hentry).1

/-- The last parameter is the one the condition compares with. -/
theorem compares_of_params {condition : Condition Slot} {front : List Value} {value : Value}
    (hcondition : statement.condition? = some condition)
    (hparams : placeholdersIn statement.slots ≤ params.length)
    (hvalue : (statement.numbered statement.condition? params).filter? =
      some ⟨condition.column, condition.op, value⟩)
    (hquery : query.params = front ++ [value]) {number : Nat}
    (hnumber : number = front.length + 1) :
    statement.Compares params query number where
  last := by simp [hquery, hnumber]
  positive := hnumber ▸ Nat.succ_pos _
  value := by
    have hpredicate : (statement.numbered statement.condition? params).predicate =
        some (numberCondition (placeholdersIn statement.values) condition) := by
      rw [hcondition]
      rfl
    -- the operand of the condition comes right after those of the columns
    have hlast : statement.values.length =
        (statement.numbered statement.condition? params).values.length :=
      (length_numberSlots 0 statement.values).symm
    have hoperands : (statement.numbered statement.condition? params).operands[
        statement.values.length]? =
          some (numberCondition (placeholdersIn statement.values) condition).operand := by
      rw [BoundStatement.operands, hlast, List.getElem?_append_right (Nat.le_refl _), hpredicate,
        Nat.sub_self]
      rfl
    rw [BoundStatement.filter?, hpredicate] at hvalue
    have hresolve := congrArg Condition.operand (Option.some.inj hvalue)
    refine ⟨_, valueAt?_of_operands hparams hoperands, ?_⟩
    rw [hquery, hnumber, Nat.add_sub_cancel, List.getElem?_concat_length]
    exact congrArg some hresolve.symm

end Statement

/-! ## SQL of changing statements -/

/-- Whether statements of the category change rows. -/
def Shape.changesRows : Shape → Bool
  | .insert _ _ | .update _ _ | .delete _ => true
  | .select _ | .count _ | .unrecognized _ => false

namespace Statement

variable {text table : String} {statement : Statement} {params : List Value}

theorem columns_ne_nil {columns : List String} {values : List Slot}
    (h : ofText text = .ok (.insert table columns values)) : columns ≠ [] := by
  obtain ⟨front, last, -, hform, -⟩ := sentence_iff.1 (ofTokens_eq_ok_iff.1 h)
  cases hform with
  | insert _ _ _ columnList =>
      cases columnList with
      | intro => simp

/-- No statement that changes rows names a column twice. -/
theorem nodup_columns (h : ofText text = .ok statement) : statement.columns.Nodup := by
  obtain ⟨front, last, -, hform, -⟩ := sentence_iff.1 (ofTokens_eq_ok_iff.1 h)
  cases hform with
  | insert _ _ _ _ distinct => exact distinct
  | update _ _ _ _ distinct => exact distinct
  | delete | select | count => exact List.nodup_nil

theorem placeholders_of_changesRows (h : statement.shape.changesRows = true) :
    statement.placeholders = placeholdersIn statement.slots := by
  rw [placeholders, slots, placeholdersIn, placeholdersIn, List.count_append]
  cases statement with
  | insert | update | delete => rfl
  | select | count => cases h

/-- Where statements that change rows are bound, every column has a value and every placeholder its
parameter. -/
theorem lengths_of_mismatch? (h : statement.shape.changesRows = true) {filtered : Bool}
    {count : Nat} (hmismatch : statement.mismatch? filtered count = none) :
    statement.columns.length = statement.values.length ∧ count = statement.placeholders := by
  cases statement with
  | insert table columns values =>
      simp only [mismatch?] at hmismatch
      split at hmismatch
      · cases hmismatch
      · next hlength =>
          split at hmismatch
          · cases hmismatch
          · next hcount => exact ⟨Decidable.not_not.1 hlength, Decidable.not_not.1 hcount⟩
  | update table assignments condition =>
      exact ⟨by simp [columns, values], by simpa [mismatch?] using hmismatch⟩
  | delete table condition => exact ⟨rfl, by simpa [mismatch?] using hmismatch⟩
  | select | count => cases h

/-- The tokens of a statement hold the terms of its slots, if all its placeholders are slots. -/
theorem spells_of_ofText (hread : ofText text = .ok statement)
    (h : statement.placeholders = placeholdersIn statement.slots) :
    Spells (Token.ofText text) statement.slots := by
  obtain ⟨front, last, htokens, hform, hlast⟩ := sentence_iff.1 (ofTokens_eq_ok_iff.1 hread)
  have hspells := spells_form hform h
  rw [htokens, ← List.append_nil statement.slots]
  refine hspells.append (.none ?_)
  rcases hlast with rfl | rfl <;> simp

theorem spells_of_changesRows (hread : ofText text = .ok statement)
    (h : statement.shape.changesRows = true) : Spells (Token.ofText text) statement.slots :=
  spells_of_ofText hread (placeholders_of_changesRows h)

/-- The call of a statement that changes rows is written with every value in its place. -/
theorem exists_written (config : Config) (hread : ofText text = .ok statement)
    (h : statement.shape.changesRows = true)
    (hmismatch : statement.mismatch? statement.condition?.isSome params.length = none) :
    ∃ call query, (statement.numbered statement.condition? params).call? config = some call ∧
      call.request.toQuery = .ok query ∧ statement.Written params query := by
  have hdistinct := nodup_columns hread
  obtain ⟨hlength, hcount⟩ := lengths_of_mismatch? h hmismatch
  have hparams : placeholdersIn statement.slots ≤ params.length :=
    Nat.le_of_eq ((placeholders_of_changesRows h).symm.trans hcount.symm)
  cases statement with
  | insert table columns values =>
      have hnonempty := isEmpty_assignments hlength (columns_ne_nil hread) none params
      refine ⟨_, _, rfl, Request.toQuery_insert hnonempty, .insert rfl ?_⟩
      exact places_of_params hdistinct hlength hparams (List.append_nil _).symm
  | update table assignments condition =>
      obtain ⟨value, -, hfilter⟩ := @filter?_numbered _ condition _ hcount
      have hnonempty := isEmpty_assignments_numbered hread (some condition) params
      exact ⟨_, _, rfl, Request.toQuery_update hfilter hnonempty,
        .update rfl (places_of_params hdistinct hlength hparams rfl)
          (compares_of_params rfl hparams hfilter rfl (by rw [List.length_map]))⟩
  | delete table condition =>
      obtain ⟨value, -, hfilter⟩ := @filter?_numbered _ condition _ hcount
      exact ⟨_, _, rfl, Request.toQuery_delete hfilter,
        .delete rfl (compares_of_params rfl hparams hfilter (List.nil_append _).symm rfl)⟩
  | select | count => cases h

end Statement

/-- In the SQL of a statement that changes rows each of its columns stands once, beside the number
of a parameter that is the value which the text gives that column; and the number in the condition
is that of the last parameter, which is the value of the condition. -/
theorem Config.written_of_bind {config : Config} {text : String} {params : List Value}
    {bound : BoundStatement} (h : config.bind text params = .ok bound)
    (hchanges : bound.shape.changesRows = true) :
    ∃ statement call query, Statement.ofText (config.normalize text) = .ok statement ∧
      statement.shape = bound.shape ∧
      Spells (Token.ofText (config.normalize text)) statement.slots ∧
      bound.call? config = some call ∧ call.request.toQuery = .ok query ∧
      statement.Written params query := by
  obtain ⟨statement, hread, hbound⟩ := Config.bind_eq_ok_iff.1 h
  obtain ⟨kept, hkept, hmismatch, -, rfl⟩ := Statement.bind_eq_ok_iff_numbered.1 hbound
  -- only a count may drop its condition, and a count changes nothing
  have hcondition : kept = statement.condition? := by
    cases statement with
    | insert | update | delete => cases hkept; rfl
    | select | count => cases hchanges
  subst hcondition
  obtain ⟨call, query, hcall, hquery, hwritten⟩ :=
    Statement.exists_written config hread hchanges hmismatch
  exact ⟨statement, call, query, hread, rfl, Statement.spells_of_changesRows hread hchanges, hcall,
    hquery, hwritten⟩

/-- A change that sets its columns out of order, one of them to a literal between two
placeholders. -/
theorem Config.written_of_bind_update : ∃ bound : BoundStatement,
    ({} : Config).bind
        "UPDATE notes SET title = ?, due = CURRENT_TIMESTAMP, body = ? WHERE id <> ?;"
        [.text "t", .null, .int 7] = .ok bound ∧
      bound.shape.changesRows = true ∧
      ∃ statement call query, Statement.ofText (({} : Config).normalize
          "UPDATE notes SET title = ?, due = CURRENT_TIMESTAMP, body = ? WHERE id <> ?;") =
            .ok statement ∧
        statement.shape = bound.shape ∧
        Spells (Token.ofText (({} : Config).normalize
          "UPDATE notes SET title = ?, due = CURRENT_TIMESTAMP, body = ? WHERE id <> ?;"))
            statement.slots ∧
        bound.call? {} = some call ∧ call.request.toQuery = .ok query ∧
        statement.Written [.text "t", .null, .int 7] query := by
  have hchanges : (({} : Config).bind
      "UPDATE notes SET title = ?, due = CURRENT_TIMESTAMP, body = ? WHERE id <> ?;"
      [.text "t", .null, .int 7]).toOption.map (fun bound => bound.shape.changesRows) =
        some true := by
    decide +kernel
  cases hbind : ({} : Config).bind
      "UPDATE notes SET title = ?, due = CURRENT_TIMESTAMP, body = ? WHERE id <> ?;"
      [.text "t", .null, .int 7] with
  | error reason =>
      rw [hbind] at hchanges
      cases hchanges
  | ok bound =>
      rw [hbind] at hchanges
      have hshape : bound.shape.changesRows = true := Option.some.inj hchanges
      exact ⟨bound, rfl, hshape, Config.written_of_bind hbind hshape⟩

end ClosedSql
