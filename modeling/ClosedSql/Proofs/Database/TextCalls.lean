import ClosedSql.Proofs.Database.Calls
import ClosedSql.Proofs.Sql.Pairing
import ClosedSql.Proofs.Statement.Slots
import ClosedSql.Proofs.Statement.Texts

/-!
# Calls of the usual texts

A text with parameters makes a call, if it is read and bound. The texts of the usual calls make
calls whose requests are known in full: the parameters stand in them under the names of the text.
-/

namespace ClosedSql

namespace Statement

/-- The placeholders of an insertion are numbered in the order of its columns. -/
theorem numberSlots_askedValues (first : Nat) (columns : List String) :
    numberSlots first (askedValues columns) = (List.range' first columns.length).map .param := by
  induction columns generalizing first with
  | nil => rfl
  | cons column columns ih =>
      rw [List.length_cons, List.range'_succ, List.map_cons, ← ih]
      rfl

theorem placeholdersIn_askedValues (columns : List String) :
    placeholdersIn (askedValues columns) = columns.length := by
  rw [askedValues, List.map_const', placeholdersIn, List.count_replicate_self]

/-- A statement that takes each value from a parameter gives its columns the first parameters. -/
theorem assignments_asked {statement : Statement} {columns : List String}
    {params values : List Value} (rest : List Value) (hcolumns : statement.columns = columns)
    (hvalues : statement.values = askedValues columns) (hparams : params = values ++ rest)
    (hlength : columns.length = values.length) (kept : Option (Condition Slot)) :
    (statement.numbered kept params).assignments = .ofList (columns.zip values) := by
  have hresolved : (statement.numbered kept params).values.map
      (statement.numbered kept params).resolve = values := by
    change (numberSlots 0 statement.values).map _ = _
    rw [hvalues, numberSlots_askedValues, List.map_map]
    apply List.ext_getElem
    · rw [List.length_map, List.length_range', hlength]
    · intro place _ hplace
      simp [BoundStatement.resolve, numbered, hparams, List.getElem?_append_left hplace, hplace]
  have hzip : ((statement.numbered kept params).columns.zip
      (statement.numbered kept params).values).map
        (fun pair => (pair.1, (statement.numbered kept params).resolve pair.2)) =
          columns.zip values := by
    rw [columns_numbered, hcolumns, ← hresolved, List.zip_map_right]
    rfl
  rw [BoundStatement.assignments, hzip]

end Statement

namespace Config

variable {config : Config} {table column : String} {columns : List String}
  {value id : Value} {values : List Value}

theorem makes_all (htable : IsPlainName table) :
    config.Makes (RawText.all table) [] ⟨.selectAll table, fun answer => .ok (.rows answer.rows)⟩ :=
  .of_ofText (Statement.ofText_all config htable) rfl rfl rfl rfl

theorem makes_get (htable : IsPlainName table) (hid : IsPlainName config.idColumn) :
    config.Makes (RawText.get table config.idColumn) [id]
      ⟨((Request.selectAll table).filter (.equals config.idColumn id)).limitTo 1,
        fun answer => .ok (.rows answer.rows)⟩ :=
  .of_ofText (Statement.ofText_get config htable hid) rfl rfl rfl rfl

theorem makes_find (htable : IsPlainName table) (hcolumn : IsPlainName column) :
    config.Makes (RawText.find table column) [value]
      ⟨(Request.selectAll table).matching (.ofList [(column, value)]),
        fun answer => .ok (.rows answer.rows)⟩ :=
  .of_ofText (Statement.ofText_find config htable hcolumn) rfl rfl rfl rfl

def countRow (config : Config) (number : Nat) : Record :=
  NameMap.empty.insert config.countAlias (.int (Int64.ofNat number))

theorem makes_count (htable : IsPlainName table) :
    config.Makes (RawText.count table) []
      ⟨(Request.selectAll table).counting.headOnly,
        fun answer => .ok (.rows [config.countRow answer.total])⟩ :=
  .of_ofText (Statement.ofText_count config htable)
    (by rw [Statement.keptCondition]) rfl rfl rfl

def counted (config : Config) (conditions : Record) : Option Record :=
  match config.countPolicy with
  | .apply => some conditions
  | .ignore => none

theorem makes_countWhere (htable : IsPlainName table) (hcolumn : IsPlainName column) :
    config.Makes (RawText.countWhere table column) [value]
      ⟨(Call.count table (config.counted (.ofList [(column, value)]))).request,
        fun answer => .ok (.rows [config.countRow answer.total])⟩ := by
  have hread := Statement.ofText_countWhere config htable hcolumn
  rw [counted]
  cases hpolicy : config.countPolicy with
  | apply => exact .of_ofText hread (by rw [hpolicy]; rfl) rfl rfl rfl
  | ignore => exact .of_ofText hread (by rw [hpolicy]; rfl) rfl rfl rfl

theorem makes_insert (htable : IsPlainName table) (hne : columns ≠ []) (hdistinct : columns.Nodup)
    (hcolumns : ∀ column ∈ columns, IsPlainName column) (hlength : columns.length = values.length) :
    config.Makes (RawText.insert table columns) values
      ⟨(Request.insert table (.ofList (columns.zip values))).returningRows, fun answer =>
        .ok (.mutation (answer.first?.bind fun row => row.get? config.idColumn) 1)⟩ := by
  have hplain := Statement.isPlain_insert htable hne hdistinct hcolumns
  have hread := Statement.ofText_insert config htable hne hdistinct hcolumns
  have hassignments := @Statement.assignments_asked
    (.insert table columns (Statement.askedValues columns)) columns _ values [] rfl rfl
    (List.append_nil values).symm hlength none
  refine .of_ofText hread rfl (Statement.mismatch?_of_length hplain _ ?_) rfl
    (BoundStatement.call?_insert config rfl hassignments)
  rw [← hlength]
  exact (Statement.placeholdersIn_askedValues columns).symm

theorem makes_update (htable : IsPlainName table) (hid : IsPlainName config.idColumn)
    (hne : columns ≠ []) (hdistinct : columns.Nodup)
    (hcolumns : ∀ column ∈ columns, IsPlainName column) (hlength : columns.length = values.length) :
    config.Makes (RawText.update table columns config.idColumn) (values ++ [id])
      ⟨((Request.update table (.ofList (columns.zip values))).filter
          (.equals config.idColumn id)).returningRows,
        fun answer => .ok (.mutation none answer.rows.length)⟩ := by
  have hplain := Statement.isPlain_update htable hid hne hdistinct hcolumns
  have hread := Statement.ofText_update config htable hid hne hdistinct hcolumns
  have hnames : (Statement.askedColumns columns).map Prod.fst = columns := by
    simp [Statement.askedColumns, Function.comp_def]
  have hslots : (Statement.askedColumns columns).map Prod.snd = Statement.askedValues columns := by
    rw [Statement.askedColumns, List.map_map]
    rfl
  have hcount : (values ++ [id]).length =
      (Statement.update table (Statement.askedColumns columns)
        (Statement.asked config.idColumn)).placeholders := by
    change _ = Statement.placeholdersIn ((Statement.askedColumns columns).map Prod.snd) + 1
    rw [hslots, Statement.placeholdersIn_askedValues, hlength, List.length_append]
    rfl
  have hassignments := @Statement.assignments_asked (.update table (Statement.askedColumns columns)
    (Statement.asked config.idColumn)) columns _ values [id] hnames hslots rfl hlength
    (some (Statement.asked config.idColumn))
  obtain ⟨value, hvalue, hfilter⟩ := Statement.filter?_numbered hcount
  have hlast : value = id := by
    simpa [Slot.value?, Statement.asked] using hvalue.symm
  rw [hlast] at hfilter
  exact .of_ofText hread rfl (Statement.mismatch?_of_length hplain _ hcount) rfl
    (BoundStatement.call?_update config rfl hassignments hfilter)

theorem makes_delete (htable : IsPlainName table) (hid : IsPlainName config.idColumn) :
    config.Makes (RawText.delete table config.idColumn) [id]
      ⟨(Call.delete config table id).request.returningRows,
        fun answer => .ok (.mutation none answer.rows.length)⟩ :=
  .of_ofText (Statement.ofText_delete config htable hid) rfl rfl rfl rfl

end Config

end ClosedSql
