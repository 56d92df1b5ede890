import ClosedSql.Proofs.Statement.Forms
import ClosedSql.Proofs.Statement.Holes

/-!
# Reading stops at a hole

A statement is read from left to right, so up to a hole it is read in one way, whatever stands in
the hole. Where that is no operand, no form goes on; only a count takes it for a condition beyond
one comparison, which cannot be applied.
-/

namespace ClosedSql.Statement

open Grammar

/-! ## Lists and conditions -/

section Stuck

variable {rest : List Token} (hstuck : operand rest = .error .notRecognized)

include hstuck

/-- A condition is stuck where its operand is. -/
theorem condition_stuck {token : Token} {column : String} (columnName : Name token column)
    (symbol : OpSymbol) :
    condition (token :: .operator symbol :: rest) = .error .notRecognized := by
  rw [condition, name_eq_ok_iff.2 ⟨token, rfl, columnName⟩, ok_bind]
  dsimp only
  rw [hstuck]
  rfl

/-- An assignment is stuck where its operand is. -/
theorem assignment_stuck {token : Token} {column : String} (columnName : Name token column) :
    assignment (token :: .operator .equals :: rest) = .error .notRecognized := by
  rw [assignment, name?_eq_some_iff.2 columnName, hstuck]

/-- Operands are stuck where one of them is. -/
theorem moreOperands_stuck {lead : List Token} {earlier : List Slot}
    (hlead : Leading Term lead earlier) :
    moreOperands (.comma :: (lead ++ rest)) = .error .notRecognized := by
  induction hlead with
  | nil =>
      rw [moreOperands_comma, List.nil_append, hstuck]
      rfl
  | @cons term others slot _ head _ ih =>
      rw [moreOperands_comma, List.append_assoc, operand_of_term head, ok_bind, List.cons_append,
        ih]
      rfl

/-- Assignments are stuck where one of them is. -/
theorem moreAssignments_stuck {token : Token} {column : String} (columnName : Name token column)
    {lead : List Token} {earlier : List (String × Slot)} (hlead : Leading Assignment lead earlier)
    {columns : List String} (hfresh : Fresh columns (earlier.map Prod.fst)) :
    moreAssignments columns (.comma :: (lead ++ token :: .operator .equals :: rest)) =
      .error .notRecognized := by
  induction hlead generalizing columns with
  | nil =>
      rw [moreAssignments_comma, List.nil_append, assignment_stuck hstuck columnName]
      rfl
  | @cons set others assigned _ head _ ih =>
      obtain ⟨hnew, hfresh⟩ := fresh_cons_iff.1 hfresh
      rw [moreAssignments_comma, List.append_assoc, assignment_eq_ok_iff.2 ⟨set, rfl, head⟩,
        ok_bind, if_neg (by simpa using hnew), List.cons_append, ih hfresh]
      rfl

end Stuck

/-! ## Forms -/

/-- The tokens are not recognized, be it only when they are bound: they are a count whose condition
is beyond one comparison, but combines none. -/
def Refused (tokens : List Token) : Prop :=
  ofTokens tokens = .error .notRecognized ∨
    ∃ table label count, ofTokens tokens = .ok (.count table label (.beyond .notRecognized count))

section Verb

variable {verb : Token}

theorem ofTokens_insert (h : Keyword "insert" verb) (rest : List Token) :
    ofTokens (verb :: rest) = insertForm rest := by
  have hselect : verb.isKeyword "select" = false := not_isKeyword h (by decide)
  have hinsert : verb.isKeyword "insert" = true := h
  rw [ofTokens.eq_def]
  simp only [hselect, hinsert, if_neg Bool.false_ne_true, if_pos]

theorem ofTokens_update (h : Keyword "update" verb) (rest : List Token) :
    ofTokens (verb :: rest) = updateForm rest := by
  have hselect : verb.isKeyword "select" = false := not_isKeyword h (by decide)
  have hinsert : verb.isKeyword "insert" = false := not_isKeyword h (by decide)
  have hupdate : verb.isKeyword "update" = true := h
  rw [ofTokens.eq_def]
  simp only [hselect, hinsert, hupdate, if_neg Bool.false_ne_true, if_pos]

theorem ofTokens_delete (h : Keyword "delete" verb) (rest : List Token) :
    ofTokens (verb :: rest) = deleteForm rest := by
  have hselect : verb.isKeyword "select" = false := not_isKeyword h (by decide)
  have hinsert : verb.isKeyword "insert" = false := not_isKeyword h (by decide)
  have hupdate : verb.isKeyword "update" = false := not_isKeyword h (by decide)
  have hdelete : verb.isKeyword "delete" = true := h
  rw [ofTokens.eq_def]
  simp only [hselect, hinsert, hupdate, hdelete, if_neg Bool.false_ne_true, if_pos]

end Verb

section Forms

variable {front back tokens : List Token}

theorem keyword_of {text : String} {token : Token} (h : Keyword text token) (rest : List Token) :
    keyword text (token :: rest) = .ok rest :=
  keyword_eq_ok_iff.2 ⟨token, rfl, h⟩

theorem name_of {text : String} {token : Token} (h : Name token text) (rest : List Token) :
    name (token :: rest) = .ok (text, rest) :=
  name_eq_ok_iff.2 ⟨token, rfl, h⟩

theorem updateForm_stuck {name set where_ : Token} {table : String} {setTokens : List Token}
    {assignments : List (String × Slot)} (tableName : Name name table) (setWord : Keyword "set" set)
    (setList : Several Assignment setTokens assignments)
    (distinct : (assignments.map Prod.fst).Nodup) (whereWord : Keyword "where" where_)
    (hstuck : condition tokens = .error .notRecognized) :
    updateForm (name :: set :: (setTokens ++ where_ :: tokens)) = .error .notRecognized := by
  cases setList with
  | @intro first more assigned others head tail =>
      have hmore : moreAssignments [assigned.1] (more ++ where_ :: tokens) =
          .ok (others, where_ :: tokens) :=
        moreAssignments_eq_ok_iff.2 ⟨more, rfl, tail, fresh_singleton_iff.2 distinct,
          listEnds_keyword whereWord _⟩
      rw [updateForm, name_of tableName, ok_bind]
      dsimp only
      rw [keyword_of setWord, ok_bind, List.append_assoc, assignment_eq_ok_iff.2 ⟨first, rfl, head⟩,
        ok_bind]
      dsimp only
      rw [hmore, ok_bind]
      dsimp only
      rw [keyword_of whereWord, ok_bind, hstuck]
      rfl

theorem deleteForm_stuck {from_ name where_ : Token} {table : String}
    (fromWord : Keyword "from" from_) (tableName : Name name table)
    (whereWord : Keyword "where" where_) (hstuck : condition tokens = .error .notRecognized) :
    deleteForm (from_ :: name :: where_ :: tokens) = .error .notRecognized := by
  rw [deleteForm, keyword_of fromWord, ok_bind, name_of tableName, ok_bind]
  dsimp only
  rw [keyword_of whereWord, ok_bind, hstuck]
  rfl

theorem selectForm_stuck {from_ name where_ : Token} {table : String}
    (fromWord : Keyword "from" from_) (tableName : Name name table)
    (whereWord : Keyword "where" where_) (hstuck : condition tokens = .error .notRecognized) :
    selectForm (.star :: from_ :: name :: where_ :: tokens) = .error .notRecognized := by
  rw [selectForm, mark_eq_ok_iff.2 rfl, ok_bind, keyword_of fromWord, ok_bind, name_of tableName,
    ok_bind]
  dsimp only
  rw [whereClause, if_pos (startsWith_iff.2 ⟨_, _, rfl, whereWord⟩), List.drop_one, List.tail_cons,
    hstuck]
  rfl

/-- A count goes on, with a condition that is not read. -/
theorem countForm_where {from_ name where_ : Token} {table : String} {labelTokens : List Token}
    {label : Option String} (labelled : Label labelTokens label) (fromWord : Keyword "from" from_)
    (tableName : Name name table) (whereWord : Keyword "where" where_)
    (hstuck : condition tokens = .error .notRecognized) :
    countForm (.star :: .rightParen :: (labelTokens ++ from_ :: name :: where_ :: tokens)) =
      (beyondCondition tokens).map (.count table label) := by
  have hfrom : startsWith "from" (from_ :: name :: where_ :: tokens) = true :=
    startsWith_iff.2 ⟨_, _, rfl, fromWord⟩
  rw [countForm, mark_eq_ok_iff.2 rfl, ok_bind, mark_eq_ok_iff.2 rfl, ok_bind,
    countLabel_complete labelled hfrom, ok_bind]
  dsimp only
  rw [keyword_of fromWord, ok_bind, name_of tableName, ok_bind]
  dsimp only
  rw [if_pos (startsWith_iff.2 ⟨_, _, rfl, whereWord⟩), List.drop_one, List.tail_cons, countFilter,
    hstuck]

/-- A condition that combines none is either blocked or beyond one comparison. -/
theorem beyondCondition_of_plain
    (h : ∀ token ∈ tokens, token.isKeyword "and" = false ∧ token.isKeyword "or" = false) :
    beyondCondition tokens = .error .notRecognized ∨
      ∃ count, beyondCondition tokens = .ok (.beyond .notRecognized count) := by
  obtain ⟨last, happend, -⟩ := exists_dropSemicolon tokens
  have hplain : (dropSemicolon tokens).any (fun token =>
      token.isKeyword "and" || token.isKeyword "or") = false := by
    rw [List.any_eq_false]
    intro token hmem
    have hkept : token ∈ tokens := by
      rw [happend]
      exact List.mem_append_left _ hmem
    simp [h token hkept]
  rw [beyondCondition, hplain]
  dsimp only
  split
  · exact .inl rfl
  · exact .inr ⟨_, rfl⟩

theorem insertForm_stuck {into name values : Token} {table : String}
    {columnTokens leadTokens : List Token} {columns : List String} {earlier : List Slot}
    (intoWord : Keyword "into" into) (tableName : Name name table)
    (columnList : Several Column columnTokens columns) (distinct : columns.Nodup)
    (valuesWord : Keyword "values" values) (lead : Leading Term leadTokens earlier)
    (hstuck : operand tokens = .error .notRecognized) :
    insertForm (into :: name :: .leftParen :: (columnTokens ++ .rightParen :: values ::
      .leftParen :: (leadTokens ++ tokens))) = .error .notRecognized := by
  cases columnList with
  | @intro first more column others head tail =>
  cases head with
  | @name token column columnName =>
      have hmore : moreNames [column] (more ++ .rightParen :: values :: .leftParen ::
          (leadTokens ++ tokens)) = .ok (column :: others, .rightParen :: values :: .leftParen ::
            (leadTokens ++ tokens)) :=
        moreNames_eq_ok_iff.2 ⟨more, others, rfl, rfl, tail, fresh_singleton_iff.2 distinct,
          by simp [ListEnds]⟩
      rw [insertForm, keyword_of intoWord, ok_bind, name_of tableName, ok_bind]
      dsimp only
      rw [mark_eq_ok_iff.2 rfl, ok_bind, List.append_assoc, List.singleton_append,
        name_of columnName, ok_bind]
      dsimp only
      rw [hmore, ok_bind]
      dsimp only
      rw [mark_eq_ok_iff.2 rfl, ok_bind, keyword_of valuesWord, ok_bind, mark_eq_ok_iff.2 rfl,
        ok_bind]
      cases lead with
      | nil =>
          rw [List.nil_append, hstuck]
          rfl
      | cons head tail =>
          rw [List.append_assoc, operand_of_term head, ok_bind]
          dsimp only
          rw [List.cons_append, moreOperands_stuck hstuck tail]
          rfl

theorem updateForm_setting {name set token : Token} {table column : String}
    {leadTokens : List Token} {earlier : List (String × Slot)} (tableName : Name name table)
    (setWord : Keyword "set" set) (lead : Leading Assignment leadTokens earlier)
    (distinct : (earlier.map Prod.fst).Nodup) (columnName : Name token column)
    (hstuck : operand tokens = .error .notRecognized) :
    updateForm (name :: set :: (leadTokens ++ token :: .operator .equals :: tokens)) =
      .error .notRecognized := by
  rw [updateForm, name_of tableName, ok_bind]
  dsimp only
  rw [keyword_of setWord, ok_bind]
  cases lead with
  | nil =>
      rw [List.nil_append, assignment_stuck hstuck columnName]
      rfl
  | @cons first _ assigned _ head tail =>
      rw [List.append_assoc, assignment_eq_ok_iff.2 ⟨first, rfl, head⟩, ok_bind]
      dsimp only
      rw [List.cons_append,
        moreAssignments_stuck hstuck columnName tail (fresh_singleton_iff.2 distinct)]
      rfl

end Forms

/-! ## Holes -/

section Refused

variable {front back tokens : List Token}

/-- A statement is refused where its condition is stuck. -/
theorem refused_of_condition {fill : Condition Slot → Statement}
    (h : ConditionHole front back fill)
    (hstuck : condition (tokens ++ back) = .error .notRecognized)
    (hplain : ∀ token ∈ tokens, token.isKeyword "and" = false ∧ token.isKeyword "or" = false) :
    Refused (front ++ (tokens ++ back)) := by
  cases h with
  | update updateWord tableName setWord setList distinct whereWord ending =>
      refine .inl ?_
      have hform := updateForm_stuck tableName setWord setList distinct whereWord hstuck
      rw [← ofTokens_update updateWord] at hform
      simpa using hform
  | delete deleteWord fromWord tableName whereWord ending =>
      exact .inl ((ofTokens_delete deleteWord _).trans
        (deleteForm_stuck fromWord tableName whereWord hstuck))
  | select selectWord fromWord tableName whereWord orderClause limitClause ending =>
      refine .inl ((ofTokens_select selectWord ?_).trans
        (selectForm_stuck fromWord tableName whereWord hstuck))
      rintro second tail ⟨⟩
      cases fromWord
  | @count _ _ _ _ _ table labelTokens last label selectWord countWord labelled fromWord tableName
      whereWord ending =>
      have hlast : ∀ token ∈ back,
          token.isKeyword "and" = false ∧ token.isKeyword "or" = false := by
        rcases ending with rfl | rfl <;> simp [Token.isKeyword]
      have hform := countForm_where labelled fromWord tableName whereWord hstuck
      rw [← ofTokens_count selectWord countWord] at hform
      rcases beyondCondition_of_plain (List.forall_mem_append.2 ⟨hplain, hlast⟩) with
        hbeyond | ⟨count, hbeyond⟩
      · rw [hbeyond] at hform
        exact .inl (by simpa [Except.map] using hform)
      · rw [hbeyond] at hform
        exact .inr ⟨table, label, count, by simpa [Except.map] using hform⟩

/-- Where no operand stands in a hole, the tokens are refused. -/
theorem refused_of_hole {fill : Slot → Statement} (h : ValueHole front back fill)
    (hstuck : operand (tokens ++ back) = .error .notRecognized)
    (hplain : ∀ token ∈ tokens, token.isKeyword "and" = false ∧ token.isKeyword "or" = false) :
    Refused (front ++ (tokens ++ back)) := by
  cases h with
  | value insertWord intoWord tableName columnList distinct valuesWord lead tail ending =>
      have hform := insertForm_stuck intoWord tableName columnList distinct valuesWord lead hstuck
      rw [← ofTokens_insert insertWord] at hform
      exact .inl (by simpa using hform)
  | setting updateWord tableName setWord lead columnName tail distinct whereWord predicate ending =>
      have hform := updateForm_setting tableName setWord lead (List.nodup_append.1 distinct).1
        columnName hstuck
      rw [← ofTokens_update updateWord] at hform
      exact .inl (by simpa using hform)
  | @compared front _ _ token _ hole columnName symbol =>
      have hwords : ∀ other ∈ token :: .operator symbol :: tokens,
          other.isKeyword "and" = false ∧ other.isKeyword "or" = false := by
        rw [List.forall_mem_cons, List.forall_mem_cons]
        exact ⟨⟨not_keyword_of_name columnName (by decide),
          not_keyword_of_name columnName (by decide)⟩, ⟨rfl, rfl⟩, hplain⟩
      have hrefused := refused_of_condition hole (condition_stuck hstuck columnName symbol) hwords
      simpa using hrefused

end Refused

end ClosedSql.Statement
