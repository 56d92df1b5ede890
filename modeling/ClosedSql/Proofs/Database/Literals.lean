import ClosedSql.Proofs.Database.Calls
import ClosedSql.Proofs.Memory.Service
import ClosedSql.Proofs.Statement.Comparison

/-!
# Literals and parameters

A selection may give the value that it compares with as a literal or as a parameter. Both select the
same rows, unless the literal is a zero or one that is taken for a truth value. A truth value
compares as its integer does with everything but a text, which does not compare with it at all, so
that the literal then selects all rows of the parameter but those with a text in the column.
-/

namespace ClosedSql

/-! ## Comparing with a truth value -/

namespace Value

def isText : Value → Bool
  | text _ => true
  | _ => false

/-- A truth value compares as its integer, except with a text. -/
theorem compare?_bool (value : Value) (truth : Bool) :
    value.compare? (.bool truth) =
      if value.isText then none else value.compare? (.int (ofBit truth)) := by
  cases value with
  | bool other => cases other <;> cases truth <;> decide
  | text content =>
      have hfloats : compareAsFloats? (text content) (bool truth) = none := by
        rw [compareAsFloats?]
        cases (text content).toFloat? <;> rfl
      rw [isText, if_pos rfl, ← hfloats]
      rfl
  | _ => rfl

end Value

def Record.hasText (column : String) (row : Record) : Bool :=
  (row.get? column).any Value.isText

/-- A truth value accepts the rows that its integer accepts, but for those with a text. -/
theorem Filter.holds_bool (column : String) (op : CompareOp) (truth : Bool) (row : Record) :
    Filter.holds ⟨column, op, .bool truth⟩ row =
      (!row.hasText column && Filter.holds ⟨column, op, .int (Value.ofBit truth)⟩ row) := by
  unfold Filter.holds Record.hasText
  cases row.get? column with
  | none => rfl
  | some value =>
      simp only [Option.bind_some, Option.any_some, Value.compare?_bool]
      cases value.isText with
      | true => rfl
      | false => simp

/-! ## Selections on tables in memory -/

/-- The outcome without the rows that have a text in a column. -/
def Outcome.withoutTexts (column : String) : Outcome → Outcome
  | rows found => rows (found.filter fun row => !row.hasText column)
  | outcome => outcome

def Call.selection (table : String) (filter : Filter) : Call Outcome :=
  ⟨(Request.selectAll table).filter filter, fun answer => .ok (.rows answer.rows)⟩

/-- The filter says the same at any time if its value does not ask for the current one. -/
theorem Filter.resolveNow_of_not {filter : Filter} (h : filter.operand.asksForNow = false)
    (now : Calendar.Instant) : filter.resolveNow now = filter := by
  rw [Filter.resolveNow, Value.resolveNow, h, if_neg Bool.false_ne_true]

/-- What a selection comes to. -/
theorem Memory.fst_run_selection {filter : Filter} (h : filter.operand.asksForNow = false)
    (now : Calendar.Instant) (table : String) (memory : Memory) :
    ((Call.selection table filter).run (Memory.execute now) memory).1 =
      match memory.failures, memory.tables.get? table with
      | message :: _, _ => .error (.store (.ordered message))
      | [], none => .error (.store (.noSuchTable table))
      | [], some found => .ok (.rows (found.rows.filter filter.holds)) := by
  rw [Call.run_eq]
  have hserved := served now (Call.selection table filter).request memory
  generalize memory.execute now (Call.selection table filter).request = outcome at hserved ⊢
  cases hserved with
  | doomed due => rw [due]
  | missing free absent =>
      rw [free, show memory.tables.get? table = none from absent]
      rfl
  | refused free found refusal => cases refusal
  | @answered selected free found accepted =>
      have hrows : (serve memory.idColumn now (Call.selection table filter).request selected).1 =
          ⟨(selected.rows.filter (satisfies [filter.resolveNow now])).map (Table.project ["*"]),
            none⟩ := rfl
      have hproject : Table.project ["*"] = id := rfl
      rw [free, show memory.tables.get? table = some selected from found, hrows, hproject,
        List.map_id, satisfies_singleton, Filter.resolveNow_of_not h]
      rfl

/-! ## The text -/

namespace Database

variable {table column : String} {symbol : OpSymbol} {operand : Token} {value : Value}

/-- What the text of a selection with one comparison comes to, given what the operand is taken
for. -/
theorem execute_comparison {σ : Type} (htable : Text.isIdentifier table.toList = true)
    (hcolumn : Text.isIdentifier column.toList = true) (hregular : operand.Regular)
    (hparen : operand ≠ .leftParen) (hword : ∀ text, operand ≠ .word text) {slot : Slot}
    (hslot : Statement.operand [Statement.readAs symbol operand] = .ok (slot, []))
    {params : List Value}
    (hvalue : slot = .literal value ∨ slot = .placeholder ∧ params = [value]) (store : Store σ) :
    execute {} store (RawText.comparison table column symbol operand) params =
      if IsPlainName table ∧ IsPlainName column then
        (Call.selection table ⟨column, symbol.op, value⟩).run store
      else pure (.ok (.unsupported .notRecognized)) := by
  have hread := Statement.ofText_comparison htable hcolumn hregular hparen hword hslot
  split
  · next hplain =>
      rw [if_pos hplain] at hread
      have hmakes : ({} : Config).Makes (RawText.comparison table column symbol operand) params
          (Call.selection table ⟨column, symbol.op, value⟩) := by
        rcases hvalue with rfl | ⟨rfl, rfl⟩
        · exact ⟨_, Config.bind_eq_ok_iff.2 ⟨_, hread, rfl⟩, rfl⟩
        · exact ⟨_, Config.bind_eq_ok_iff.2 ⟨_, hread, rfl⟩, rfl⟩
      exact hmakes.execute store
  · next hplain =>
      rw [if_neg hplain] at hread
      rw [execute, Config.bind, hread]

/-- The text with a placeholder selects by its parameter. -/
theorem execute_comparison_placeholder {σ : Type} (htable : Text.isIdentifier table.toList = true)
    (hcolumn : Text.isIdentifier column.toList = true) (store : Store σ) :
    execute {} store (RawText.comparison table column symbol .placeholder) [value] =
      if IsPlainName table ∧ IsPlainName column then
        (Call.selection table ⟨column, symbol.op, value⟩).run store
      else pure (.ok (.unsupported .notRecognized)) := by
  have hslot : Statement.operand [Statement.readAs symbol .placeholder] = .ok (.placeholder, []) := by
    rw [Statement.readAs]
    split
    · rfl
    · rfl
  have hregular : Token.placeholder.Regular := .mark rfl
  exact execute_comparison htable hcolumn hregular (by decide) (by simp) hslot (.inr ⟨rfl, rfl⟩) store

/-- A selection comes to the same at any time. -/
theorem fst_run_selection_congr (h : value.asksForNow = false) (op : CompareOp)
    (now later : Calendar.Instant) (memory : Memory) :
    ((Call.selection table ⟨column, op, value⟩).run (Memory.execute now) memory).1 =
      ((Call.selection table ⟨column, op, value⟩).run (Memory.execute later) memory).1 := by
  rw [Memory.fst_run_selection h, Memory.fst_run_selection h]

/-- A selection by a truth value leaves out the rows that the integer of that truth value finds by a
text. -/
theorem fst_run_selection_bool (truth : Bool) (op : CompareOp) (now later : Calendar.Instant)
    (memory : Memory) :
    ((Call.selection table ⟨column, op, .bool truth⟩).run (Memory.execute now) memory).1 =
      ((Call.selection table ⟨column, op, .int (Value.ofBit truth)⟩).run
        (Memory.execute later) memory).1.map (Outcome.withoutTexts column) := by
  have hholds : Filter.holds ⟨column, op, .bool truth⟩ = fun row =>
      !row.hasText column && Filter.holds ⟨column, op, .int (Value.ofBit truth)⟩ row :=
    funext (Filter.holds_bool column op truth)
  rw [Memory.fst_run_selection rfl, Memory.fst_run_selection rfl, hholds]
  cases memory.failures with
  | cons message rest => rfl
  | nil =>
      cases memory.tables.get? table with
      | none => rfl
      | some found =>
          have hfilter := @List.filter_filter _ (fun row : Record => !row.hasText column)
            (Filter.holds ⟨column, op, .int (Value.ofBit truth)⟩) found.rows
          exact congrArg (Except.ok ∘ Outcome.rows) hfilter.symm

/-- A literal selects what a parameter with its value selects, at whatever time each is carried out.
Only where the literal is taken for a truth value are the rows with a text in the column left
out. -/
theorem execute_literal {token : Token} (hliteral : Statement.Literal token value)
    (hnow : value.asksForNow = false) (htable : Text.isIdentifier table.toList = true)
    (hcolumn : Text.isIdentifier column.toList = true) (symbol : OpSymbol)
    (now later : Calendar.Instant) (memory : Memory) :
    (execute {} (Memory.execute now) (RawText.comparison table column symbol token) [] memory).1 =
      (execute {} (Memory.execute later) (RawText.comparison table column symbol .placeholder)
        [value] memory).1.map
          (if Statement.standsForTruth symbol token then Outcome.withoutTexts column else id) := by
  have hparen : token ≠ .leftParen := by
    rintro rfl
    cases hliteral
  have hword : ∀ text, token ≠ .word text := by
    rintro text rfl
    cases hliteral
  rw [execute_comparison_placeholder htable hcolumn]
  cases htruth : Statement.standsForTruth symbol token with
  | false =>
      rw [execute_comparison htable hcolumn hliteral.regular hparen hword
        (hliteral.operand_readAs htruth) (.inl rfl)]
      split
      · rw [fst_run_selection_congr hnow _ now later, if_neg Bool.false_ne_true, Except.map_id]
        rfl
      · rfl
  | true =>
      obtain ⟨truth, rfl, hslot⟩ := hliteral.operand_of_standsForTruth htruth
      rw [execute_comparison htable hcolumn hliteral.regular hparen hword hslot (.inl rfl)]
      split
      · rw [fst_run_selection_bool truth _ now later, if_pos rfl]
      · rfl

def threeOnes : Memory :=
  Memory.empty.withRows "t"
    [.ofList [("c", .int 1)], .ofList [("c", .text "1")], .ofList [("c", .bool true)]]

/-- A one after an equals sign finds the integer and the truth value but not the text. -/
theorem execute_literal_one :
    Statement.Literal (.number "1") (.int 1) ∧ (Value.int 1).asksForNow = false ∧
      Text.isIdentifier "t".toList = true ∧ Text.isIdentifier "c".toList = true ∧
      (execute {} (Memory.execute ⟨0, 0⟩) "SELECT * FROM t WHERE c = 1" [] threeOnes).1 =
        (execute {} (Memory.execute ⟨5, 0⟩) "SELECT * FROM t WHERE c = ?" [.int 1]
          threeOnes).1.map (Outcome.withoutTexts "c") ∧
      (execute {} (Memory.execute ⟨0, 0⟩) "SELECT * FROM t WHERE c = 1" [] threeOnes).1.toOption =
        some (.rows [.ofList [("c", .int 1), ("id", .int 1)],
          .ofList [("c", .bool true), ("id", .int 3)]]) := by
  have hliteral : Statement.Literal (.number "1") (.int 1) :=
    .int (.natural (by decide)) (by decide)
  have htext : RawText.comparison "t" "c" .equals (.number "1") =
      "SELECT * FROM t WHERE c = 1" := by decide
  have hasked : RawText.comparison "t" "c" .equals .placeholder =
      "SELECT * FROM t WHERE c = ?" := by decide
  have hagree := execute_literal hliteral rfl (by decide : Text.isIdentifier "t".toList = true)
    (by decide : Text.isIdentifier "c".toList = true) .equals ⟨0, 0⟩ ⟨5, 0⟩ threeOnes
  rw [htext, hasked, if_pos (by decide)] at hagree
  exact ⟨hliteral, rfl, by decide, by decide, hagree, by decide +kernel⟩

/-- The parameter finds the text as well. -/
theorem execute_literal_ne :
    ¬∀ {token : Token} {value : Value}, Statement.Literal token value →
      value.asksForNow = false → ∀ {table column : String},
      Text.isIdentifier table.toList = true → Text.isIdentifier column.toList = true →
      ∀ (symbol : OpSymbol) (now later : Calendar.Instant) (memory : Memory),
        (execute {} (Memory.execute now) (RawText.comparison table column symbol token) []
          memory).1 =
        (execute {} (Memory.execute later) (RawText.comparison table column symbol .placeholder)
          [value] memory).1 := by
  intro hall
  have hliteral : Statement.Literal (.number "1") (.int 1) :=
    .int (.natural (by decide)) (by decide)
  have hagree := hall hliteral rfl (by decide : Text.isIdentifier "t".toList = true)
    (by decide : Text.isIdentifier "c".toList = true) .equals ⟨0, 0⟩ ⟨0, 0⟩ threeOnes
  have hliteralRows : (execute {} (Memory.execute ⟨0, 0⟩)
      (RawText.comparison "t" "c" .equals (.number "1")) [] threeOnes).1.toOption =
        some (.rows [.ofList [("c", .int 1), ("id", .int 1)],
          .ofList [("c", .bool true), ("id", .int 3)]]) := by
    decide +kernel
  have hparamRows : (execute {} (Memory.execute ⟨0, 0⟩)
      (RawText.comparison "t" "c" .equals .placeholder) [.int 1] threeOnes).1.toOption =
        some (.rows [.ofList [("c", .int 1), ("id", .int 1)],
          .ofList [("c", .text "1"), ("id", .int 2)],
          .ofList [("c", .bool true), ("id", .int 3)]]) := by
    decide +kernel
  rw [hagree, hparamRows] at hliteralRows
  exact absurd hliteralRows (by decide)

end Database

end ClosedSql
