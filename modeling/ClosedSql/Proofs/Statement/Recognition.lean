import ClosedSql.Proofs.Statement.Clauses

/-!
# Reading accepts the grammar

The five forms are put together from what their parts read. Soundness goes from the readers to a
derivation, completeness from a derivation to the readers, and the first word of a statement tells
the forms apart. A text is read as a statement exactly when its tokens derive that statement.
-/

namespace ClosedSql.Statement

open Grammar

/-! ## Forms -/

/-- A sentence is a form with an ending. -/
theorem sentence_iff {tokens : List Token} {statement : Statement} :
    Sentence tokens statement ↔
      ∃ front last, tokens = front ++ last ∧ Form front statement ∧ Ending last := by
  constructor
  · intro h
    cases h with
    | bare form => exact ⟨tokens, [], by simp, form, .inl rfl⟩
    | closed form => exact ⟨_, [.semicolon], rfl, form, .inr rfl⟩
  · rintro ⟨front, last, rfl, hform, rfl | rfl⟩
    · rw [List.append_nil]
      exact .bare hform
    · exact .closed hform

theorem insertForm_sound {verb : Token} {tokens : List Token} {statement : Statement}
    (hverb : Keyword "insert" verb) (h : insertForm tokens = .ok statement) :
    Sentence (verb :: tokens) statement := by
  simp only [insertForm, bind_eq_ok_iff, Prod.exists, keyword_eq_ok_iff, mark_eq_ok_iff,
    name_eq_ok_iff, moreNames_eq_ok_iff, operand_eq_ok_iff, moreOperands_eq_ok_iff,
    finish_eq_ok_iff] at h
  obtain ⟨_, ⟨into, rfl, hinto⟩, table, _, ⟨name, rfl, hname⟩, _, rfl, column, _,
    ⟨first, rfl, hfirst⟩, columns, _, ⟨columnTokens, others, rfl, rfl, hcolumns, hfresh, -⟩, _, rfl,
    _, ⟨values, rfl, hvalues⟩, _, rfl, slot, _, ⟨value, rfl, hslot⟩, slots, _,
    ⟨valueTokens, rfl, hslots, -⟩, last, rfl, rfl, hlast⟩ := h
  refine sentence_iff.2 ⟨_, last, ?_, .insert hverb hinto hname (.intro (.name hfirst) hcolumns)
    (fresh_singleton_iff.1 hfresh) hvalues (.intro hslot hslots), hlast⟩
  simp

theorem insertForm_complete {into name values : Token} {table : String}
    {columnTokens valueTokens last : List Token} {columns : List String} {slots : List Slot}
    (hinto : Keyword "into" into) (hname : Name name table)
    (hcolumns : Several Column columnTokens columns) (hdistinct : columns.Nodup)
    (hvalues : Keyword "values" values) (hslots : Several Term valueTokens slots)
    (hlast : Ending last) :
    insertForm (into :: name :: .leftParen :: (columnTokens ++ .rightParen :: values ::
      .leftParen :: (valueTokens ++ .rightParen :: last))) =
      .ok (.insert table columns slots) := by
  cases hcolumns with
  | @intro _ moreColumns column others head tail =>
      cases head with
      | @name first _ hfirst =>
          cases hslots with
          | @intro value moreValues slot slots hslot hmore =>
              have hends : ∀ rest, ListEnds (.rightParen :: rest) := by simp [ListEnds]
              simp only [insertForm, bind_eq_ok_iff, Prod.exists, keyword_eq_ok_iff,
                mark_eq_ok_iff, name_eq_ok_iff, moreNames_eq_ok_iff, operand_eq_ok_iff,
                moreOperands_eq_ok_iff, finish_eq_ok_iff]
              exact ⟨_, ⟨into, rfl, hinto⟩, table, _, ⟨name, rfl, hname⟩, _, rfl, column, _,
                ⟨first, rfl, hfirst⟩, _, _, ⟨moreColumns, others, rfl, rfl, tail,
                fresh_singleton_iff.2 hdistinct, hends _⟩, _, rfl, _, ⟨values, rfl, hvalues⟩, _,
                rfl, slot, _, ⟨value, List.append_assoc _ _ _, hslot⟩, slots, _,
                ⟨moreValues, rfl, hmore, hends _⟩, _, rfl, rfl, hlast⟩

theorem updateForm_sound {verb : Token} {tokens : List Token} {statement : Statement}
    (hverb : Keyword "update" verb) (h : updateForm tokens = .ok statement) :
    Sentence (verb :: tokens) statement := by
  simp only [updateForm, bind_eq_ok_iff, Prod.exists, keyword_eq_ok_iff, name_eq_ok_iff,
    assignment_eq_ok_iff, moreAssignments_eq_ok_iff, condition_eq_ok_iff, finish_eq_ok_iff] at h
  obtain ⟨table, _, ⟨name, rfl, hname⟩, _, ⟨set, rfl, hset⟩, column, slot, _,
    ⟨first, rfl, hfirst⟩, others, _, ⟨more, rfl, hmore, hfresh, -⟩, _,
    ⟨where_, rfl, hwhere⟩, found, last, ⟨front, rfl, hpredicate, -⟩, rfl, hlast⟩ := h
  refine sentence_iff.2 ⟨_, last, ?_, .update hverb hname hset (.intro hfirst hmore)
    (fresh_singleton_iff.1 hfresh) hwhere hpredicate, hlast⟩
  simp

theorem updateForm_complete {name set where_ : Token} {table : String}
    {setTokens found last : List Token} {assignments : List (String × Slot)}
    {condition : Condition Slot} (hname : Name name table) (hset : Keyword "set" set)
    (hassignments : Several Assignment setTokens assignments)
    (hdistinct : (assignments.map Prod.fst).Nodup) (hwhere : Keyword "where" where_)
    (hpredicate : Predicate found condition) (hlast : Ending last) :
    updateForm (name :: set :: (setTokens ++ where_ :: (found ++ last))) =
      .ok (.update table assignments condition) := by
  cases hassignments with
  | @intro first more assignment others head tail =>
      simp only [updateForm, bind_eq_ok_iff, Prod.exists, keyword_eq_ok_iff, name_eq_ok_iff,
        assignment_eq_ok_iff, moreAssignments_eq_ok_iff, condition_eq_ok_iff, finish_eq_ok_iff]
      exact ⟨table, _, ⟨name, rfl, hname⟩, _, ⟨set, rfl, hset⟩, assignment.1, assignment.2, _,
        ⟨first, List.append_assoc _ _ _, head⟩, others, _,
        ⟨more, rfl, tail, fresh_singleton_iff.2 hdistinct, listEnds_keyword hwhere _⟩, _,
        ⟨where_, rfl, hwhere⟩,
        condition, last, ⟨found, rfl, hpredicate, complete_ending hlast⟩, rfl, hlast⟩

theorem deleteForm_sound {verb : Token} {tokens : List Token} {statement : Statement}
    (hverb : Keyword "delete" verb) (h : deleteForm tokens = .ok statement) :
    Sentence (verb :: tokens) statement := by
  simp only [deleteForm, bind_eq_ok_iff, Prod.exists, keyword_eq_ok_iff, name_eq_ok_iff,
    condition_eq_ok_iff, finish_eq_ok_iff] at h
  obtain ⟨_, ⟨from_, rfl, hfrom⟩, table, _, ⟨name, rfl, hname⟩, _, ⟨where_, rfl, hwhere⟩, found,
    last, ⟨front, rfl, hpredicate, -⟩, rfl, hlast⟩ := h
  exact sentence_iff.2 ⟨_, last, rfl, .delete hverb hfrom hname hwhere hpredicate, hlast⟩

theorem deleteForm_complete {from_ name where_ : Token} {table : String}
    {found last : List Token} {condition : Condition Slot} (hfrom : Keyword "from" from_)
    (hname : Name name table) (hwhere : Keyword "where" where_)
    (hpredicate : Predicate found condition) (hlast : Ending last) :
    deleteForm (from_ :: name :: where_ :: (found ++ last)) = .ok (.delete table condition) := by
  simp only [deleteForm, bind_eq_ok_iff, Prod.exists, keyword_eq_ok_iff, name_eq_ok_iff,
    condition_eq_ok_iff, finish_eq_ok_iff]
  exact ⟨_, ⟨from_, rfl, hfrom⟩, table, _, ⟨name, rfl, hname⟩, _, ⟨where_, rfl, hwhere⟩,
    condition, last, ⟨found, rfl, hpredicate, complete_ending hlast⟩, rfl, hlast⟩

theorem selectForm_sound {verb : Token} {tokens : List Token} {statement : Statement}
    (hverb : Keyword "select" verb) (h : selectForm tokens = .ok statement) :
    Sentence (verb :: tokens) statement := by
  simp only [selectForm, bind_eq_ok_iff, Prod.exists, keyword_eq_ok_iff, mark_eq_ok_iff,
    name_eq_ok_iff, finish_eq_ok_iff] at h
  obtain ⟨_, rfl, _, ⟨from_, rfl, hfrom⟩, table, _, ⟨name, rfl, hname⟩, found, _, hwhere, order,
    _, horder, limit, last, hlimit, rfl, hlast⟩ := h
  obtain ⟨whereTokens, rfl, hfound⟩ := whereClause_sound hwhere
  obtain ⟨orderTokens, rfl, hordered⟩ := orderClause_sound horder
  obtain ⟨limitTokens, rfl, hlimited⟩ := limitClause_sound hlimit
  refine sentence_iff.2
    ⟨_, last, ?_, .select hverb hfrom hname hfound hordered hlimited, hlast⟩
  simp

theorem selectForm_complete {from_ name : Token} {table : String}
    {found orderTokens limitTokens last : List Token} {condition : Option (Condition Slot)}
    {order : Option OrderBy} {limit : Option UInt64} (hfrom : Keyword "from" from_)
    (hname : Name name table) (hwhere : WhereClause found condition)
    (horder : OrderClause orderTokens order) (hlimit : LimitClause limitTokens limit)
    (hlast : Ending last) :
    selectForm (.star :: from_ :: name :: (found ++ (orderTokens ++ (limitTokens ++ last)))) =
      .ok (.select table condition order limit) := by
  -- a clause ends where the next one begins, and each begins with a word of its own
  have hafterOrder : ∀ text : String, Text.lower "limit".toList ≠ Text.lower text.toList →
      startsWith text (limitTokens ++ last) = false :=
    fun text => startsWith_limit hlimit (startsWith_ending hlast text)
  have hafterWhere : ∀ text : String, Text.lower "limit".toList ≠ Text.lower text.toList →
      Text.lower "order".toList ≠ Text.lower text.toList →
      startsWith text (orderTokens ++ (limitTokens ++ last)) = false :=
    fun text hne => startsWith_order horder (hafterOrder text hne)
  simp only [selectForm, bind_eq_ok_iff, Prod.exists, keyword_eq_ok_iff, mark_eq_ok_iff,
    name_eq_ok_iff, finish_eq_ok_iff]
  exact ⟨_, rfl, _, ⟨from_, rfl, hfrom⟩, table, _, ⟨name, rfl, hname⟩, condition, _,
    whereClause_complete hwhere (hafterWhere "where" (by decide) (by decide))
      ⟨hafterWhere "and" (by decide) (by decide), hafterWhere "or" (by decide) (by decide)⟩,
    order, _, orderClause_complete horder (hafterOrder "order" (by decide))
      (hafterOrder "asc" (by decide)) (hafterOrder "desc" (by decide)),
    limit, last, limitClause_complete hlimit (startsWith_ending hlast "limit"), rfl, hlast⟩

theorem countForm_sound {verb count : Token} {tokens : List Token} {statement : Statement}
    (hverb : Keyword "select" verb) (hcount : Keyword "count" count)
    (h : countForm tokens = .ok statement) :
    Sentence (verb :: count :: .leftParen :: tokens) statement := by
  simp only [countForm, bind_eq_ok_iff, Prod.exists, keyword_eq_ok_iff, mark_eq_ok_iff,
    name_eq_ok_iff] at h
  obtain ⟨_, rfl, _, rfl, label, _, hlabel, _, ⟨from_, rfl, hfrom⟩, table, rest,
    ⟨name, rfl, hname⟩, h⟩ := h
  obtain ⟨labelTokens, rfl, hlabelled⟩ := countLabel_sound hlabel
  split at h
  · next hwhere =>
      obtain ⟨where_, tail, rfl, hword⟩ := startsWith_iff.1 hwhere
      obtain ⟨front, last, filter, htail, hlast, hcondition, rfl⟩ := countFilter_sound h
      rw [List.drop_one, List.tail_cons] at htail
      subst htail
      refine sentence_iff.2 ⟨_, last, ?_, .count hverb hcount hlabelled hfrom hname
        (.present hword hcondition), hlast⟩
      simp
  · obtain ⟨rfl, hlast⟩ := finish_eq_ok_iff.1 h
    refine sentence_iff.2 ⟨_, rest, ?_, .count hverb hcount hlabelled hfrom hname .absent, hlast⟩
    simp

theorem countForm_complete {from_ name : Token} {table : String}
    {labelTokens found last : List Token} {label : Option String} {filter : CountFilter}
    (hlabel : Label labelTokens label) (hfrom : Keyword "from" from_) (hname : Name name table)
    (hclause : CountClause found filter) (hlast : Ending last) :
    countForm (.star :: .rightParen :: (labelTokens ++ from_ :: name :: (found ++ last))) =
      .ok (.count table label filter) := by
  simp only [countForm, bind_eq_ok_iff, Prod.exists, keyword_eq_ok_iff, mark_eq_ok_iff,
    name_eq_ok_iff]
  refine ⟨_, rfl, _, rfl, label, _,
    countLabel_complete hlabel (startsWith_iff.2 ⟨_, _, rfl, hfrom⟩), _, ⟨from_, rfl, hfrom⟩,
    table, _, ⟨name, rfl, hname⟩, ?_⟩
  cases hclause with
  | absent =>
      rw [List.nil_append, startsWith_ending hlast "where"]
      exact finish_eq_ok_iff.2 ⟨rfl, hlast⟩
  | present keyword condition =>
      rw [List.cons_append, if_pos (startsWith_iff.2 ⟨_, _, rfl, keyword⟩)]
      exact countFilter_complete condition hlast

/-! ## Statements -/

/-- Whatever is read is a sentence of the grammar. -/
theorem ofTokens_sound {tokens : List Token} {statement : Statement}
    (h : ofTokens tokens = .ok statement) : Sentence tokens statement := by
  rw [ofTokens.eq_def] at h
  split at h
  · cases h
  · next verb rest =>
      split at h
      · next hselect =>
          split at h
          · next second tail =>
              split at h
              · next hcount => exact countForm_sound hselect hcount h
              · exact selectForm_sound hselect h
          · exact selectForm_sound hselect h
      · split at h
        · next hinsert => exact insertForm_sound hinsert h
        · split at h
          · next hupdate => exact updateForm_sound hupdate h
          · split at h
            · next hdelete => exact deleteForm_sound hdelete h
            · cases h

/-- Every sentence of the grammar is read. -/
theorem ofTokens_complete {tokens : List Token} {statement : Statement}
    (h : Sentence tokens statement) : ofTokens tokens = .ok statement := by
  obtain ⟨front, last, rfl, hform, hlast⟩ := sentence_iff.1 h
  cases hform with
  | insert insertWord intoWord tableName columnList distinct valuesWord valueList =>
      have hform := insertForm_complete intoWord tableName columnList distinct valuesWord
        valueList hlast
      have hselect : Token.isKeyword "select" _ = false := not_isKeyword insertWord (by decide)
      have hinsert : Token.isKeyword "insert" _ = true := insertWord
      simpa [ofTokens, hselect, hinsert] using hform
  | update updateWord tableName setWord setList distinct whereWord predicate =>
      have hform := updateForm_complete tableName setWord setList distinct whereWord predicate
        hlast
      have hselect : Token.isKeyword "select" _ = false := not_isKeyword updateWord (by decide)
      have hinsert : Token.isKeyword "insert" _ = false := not_isKeyword updateWord (by decide)
      have hupdate : Token.isKeyword "update" _ = true := updateWord
      simpa [ofTokens, hselect, hinsert, hupdate] using hform
  | delete deleteWord fromWord tableName whereWord predicate =>
      have hform := deleteForm_complete fromWord tableName whereWord predicate hlast
      have hselect : Token.isKeyword "select" _ = false := not_isKeyword deleteWord (by decide)
      have hinsert : Token.isKeyword "insert" _ = false := not_isKeyword deleteWord (by decide)
      have hupdate : Token.isKeyword "update" _ = false := not_isKeyword deleteWord (by decide)
      have hdelete : Token.isKeyword "delete" _ = true := deleteWord
      simpa [ofTokens, hselect, hinsert, hupdate, hdelete] using hform
  | @select _ from_ _ _ _ _ _ _ _ _ selectWord fromWord tableName whereClause orderClause
      limitClause =>
      have hform := selectForm_complete fromWord tableName whereClause orderClause limitClause
        hlast
      have hselect : Token.isKeyword "select" _ = true := selectWord
      -- what follows the star is a word, so this is no count
      cases from_ with
      | word word => simpa [ofTokens, hselect] using hform
      | _ => cases fromWord
  | count selectWord countWord labelled fromWord tableName countClause =>
      have hform := countForm_complete labelled fromWord tableName countClause hlast
      have hselect : Token.isKeyword "select" _ = true := selectWord
      have hcount : Token.isKeyword "count" _ = true := countWord
      simpa [ofTokens, hselect, hcount] using hform

/-- The reader accepts the sentences of the grammar and nothing else. -/
theorem ofTokens_eq_ok_iff {tokens : List Token} {statement : Statement} :
    ofTokens tokens = .ok statement ↔ Sentence tokens statement :=
  ⟨ofTokens_sound, ofTokens_complete⟩

/-- No tokens derive two statements. -/
theorem sentence_unique {tokens : List Token} {statement other : Statement}
    (h : Sentence tokens statement) (hother : Sentence tokens other) : other = statement := by
  have hread := ofTokens_complete hother
  rw [ofTokens_complete h] at hread
  cases hread
  rfl

/-- A text is read as a statement exactly when its tokens derive the statement in the grammar, and
then they derive no other one. -/
theorem ofText_eq_ok_iff_sentence (text : String) (statement : Statement) :
    (ofText text = .ok statement ↔ Sentence (Token.ofText text) statement) ∧
      (Sentence (Token.ofText text) statement →
        ∀ other, Sentence (Token.ofText text) other → other = statement) := by
  constructor
  · rw [ofText]
    exact ofTokens_eq_ok_iff
  · intro h other hother
    exact sentence_unique h hother

end ClosedSql.Statement
