import ClosedSql.Proofs.Statement.Recognition
import ClosedSql.Proofs.Statement.Slots
import ClosedSql.Proofs.Token.Splitting

/-!
# Places of values in a statement

Each question mark that stands for a value leaves a hole in its statement: the tokens before it, the
tokens after it, and the statement that any other value in its place makes. Whatever is no value
leaves the reader stuck there, since it comes to the hole before it has looked at anything behind
it.
-/

namespace ClosedSql.Grammar

/-! ## Lists around an item -/

section Lists

variable {α : Type} {item : List Token → α → Prop}

/-- Any number of items, each before a comma. -/
inductive Leading (item : List Token → α → Prop) : List Token → List α → Prop
  | nil : Leading item [] []
  | cons {tokens rest : List Token} {value : α} {values : List α} (head : item tokens value)
      (tail : Leading item rest values) :
      Leading item (tokens ++ .comma :: rest) (value :: values)

variable {lead tokens rest left right : List Token} {earlier later values : List α} {value : α}

theorem Several.further (h : Several item tokens values) :
    Further item (.comma :: tokens) values := by
  cases h with
  | intro head tail => exact .cons head tail

/-- A list is put together around an item. -/
theorem Leading.several (h : Leading item lead earlier) (head : item tokens value)
    (tail : Further item rest later) :
    Several item (lead ++ (tokens ++ rest)) (earlier ++ value :: later) := by
  induction h with
  | nil =>
      rw [List.nil_append]
      exact .intro head tail
  | cons hfirst _ ih =>
      rw [List.append_assoc, List.cons_append]
      exact .intro hfirst ih.further

/-- A question mark in a list is in one of its items. -/
theorem Several.exists_hole (h : Several item (left ++ .placeholder :: right) values) :
    ∃ lead earlier front back value rest later, Leading item lead earlier ∧
      item (front ++ .placeholder :: back) value ∧ Further item rest later ∧
      left = lead ++ front ∧ right = back ++ rest ∧ values = earlier ++ value :: later := by
  generalize happend : left ++ .placeholder :: right = all at h
  cases h with
  | @intro first others value values head tail =>
  induction tail generalizing first value left with
  | nil =>
      rw [List.append_nil] at happend
      subst happend
      exact ⟨[], [], left, right, value, [], [], .nil, head, .nil, rfl, by simp, rfl⟩
  | @cons second others next values hnext tail ih =>
      rcases Layout.append_eq_append_cons happend.symm with ⟨more, rfl, hmore⟩ | ⟨more, rfl, rfl⟩
      · cases more with
        | nil => cases hmore
        | cons token more =>
            obtain ⟨rfl, hrest⟩ := List.cons.inj hmore
            obtain ⟨lead, earlier, front, back, found, rest, later, hlead, hitem, hlater, rfl, rfl,
              hvalues⟩ := ih hnext hrest.symm
            exact ⟨_, _, front, back, found, rest, later, .cons head hlead, hitem, hlater,
              by simp, rfl, by rw [hvalues]; rfl⟩
      · exact ⟨[], [], left, more, value, _, _, .nil, head, .cons hnext tail, rfl, rfl, rfl⟩

end Lists

/-! ## Items -/

section Items

variable {front back : List Token}

theorem Term.exists_hole {slot : Slot} (h : Term (front ++ .placeholder :: back) slot) :
    front = [] ∧ back = [] ∧ slot = .placeholder := by
  have hmem : Token.placeholder ∈ front ++ .placeholder :: back := by simp
  cases slot with
  | literal value => exact absurd hmem (List.count_eq_zero.1 h.count_placeholder)
  | placeholder =>
      generalize happend : front ++ .placeholder :: back = tokens at h
      cases h
      cases front with
      | nil =>
          cases happend
          exact ⟨rfl, rfl, rfl⟩
      | cons token front => simp at happend

/-- A placeholder in an assignment is its value. -/
theorem Assignment.exists_hole {assigned : String × Slot}
    (h : Assignment (front ++ .placeholder :: back) assigned) :
    ∃ token column, front = [token, .operator .equals] ∧ back = [] ∧
      assigned = (column, .placeholder) ∧ Name token column := by
  generalize happend : front ++ .placeholder :: back = tokens at h
  cases h with
  | @set token column value slot name operand =>
      have hplain : Token.placeholder ∉ [token, .operator .equals] := by
        simpa using name.ne_placeholder.symm
      obtain ⟨more, rfl, rfl⟩ := Layout.append_eq_append_cons_of_not_mem happend.symm hplain
      obtain ⟨rfl, rfl, rfl⟩ := operand.exists_hole
      exact ⟨token, column, List.append_nil _, rfl, rfl, name⟩

/-- A question mark in a list of values is one of them. -/
theorem Several.exists_value {slots : List Slot}
    (h : Several Term (front ++ .placeholder :: back) slots) :
    ∃ earlier later, Leading Term front earlier ∧ Further Term back later ∧
      slots = earlier ++ .placeholder :: later := by
  obtain ⟨lead, earlier, inner, outer, slot, rest, later, hlead, operand, htail, rfl, rfl, rfl⟩ :=
    h.exists_hole
  obtain ⟨rfl, rfl, rfl⟩ := operand.exists_hole
  exact ⟨earlier, later, by rwa [List.append_nil], htail, rfl⟩

/-- A question mark in a list of assignments is the value of one of them. -/
theorem Several.exists_assignment {assignments : List (String × Slot)}
    (h : Several Assignment (front ++ .placeholder :: back) assignments) :
    ∃ lead token column earlier later, front = lead ++ [token, .operator .equals] ∧
      Leading Assignment lead earlier ∧ Name token column ∧ Further Assignment back later ∧
      assignments = earlier ++ (column, .placeholder) :: later := by
  obtain ⟨lead, earlier, inner, outer, assigned, rest, later, hlead, item, htail, rfl, rfl, rfl⟩ :=
    h.exists_hole
  obtain ⟨token, column, rfl, rfl, rfl, columnName⟩ := item.exists_hole
  exact ⟨lead, token, column, earlier, later, rfl, hlead, columnName, htail, rfl⟩

/-- A placeholder in a condition is its operand. -/
theorem Predicate.exists_hole {condition : Condition Slot}
    (h : Predicate (front ++ .placeholder :: back) condition) :
    ∃ token column symbol, front = [token, .operator symbol] ∧ back = [] ∧
      condition = ⟨column, symbol.op, .placeholder⟩ ∧ Name token column := by
  generalize happend : front ++ .placeholder :: back = tokens at h
  cases h with
  | @compare token column symbol value slot name operand =>
      have hplain : Token.placeholder ∉ [token, .operator symbol] := by
        simpa using name.ne_placeholder.symm
      obtain ⟨more, rfl, rfl⟩ := Layout.append_eq_append_cons_of_not_mem happend.symm hplain
      obtain ⟨rfl, rfl, rfl⟩ := operand.exists_hole
      exact ⟨token, column, symbol, List.append_nil _, rfl, rfl, name⟩

end Items

/-! ## Holes of a statement -/

/-- The tokens before and after the condition of a statement, and the statement that a condition
makes between them. -/
inductive ConditionHole : List Token → List Token → (Condition Slot → Statement) → Prop
  | update {update name set where_ : Token} {table : String} {setTokens last : List Token}
      {assignments : List (String × Slot)} (updateWord : Keyword "update" update)
      (tableName : Name name table) (setWord : Keyword "set" set)
      (setList : Several Assignment setTokens assignments)
      (distinct : (assignments.map Prod.fst).Nodup) (whereWord : Keyword "where" where_)
      (ending : Statement.Ending last) :
      ConditionHole (update :: name :: set :: (setTokens ++ [where_])) last
        (.update table assignments)
  | delete {delete from_ name where_ : Token} {table : String} {last : List Token}
      (deleteWord : Keyword "delete" delete) (fromWord : Keyword "from" from_)
      (tableName : Name name table) (whereWord : Keyword "where" where_)
      (ending : Statement.Ending last) :
      ConditionHole [delete, from_, name, where_] last (.delete table)
  | select {select from_ name where_ : Token} {table : String}
      {orderTokens limitTokens last : List Token} {order : Option OrderBy} {limit : Option UInt64}
      (selectWord : Keyword "select" select) (fromWord : Keyword "from" from_)
      (tableName : Name name table) (whereWord : Keyword "where" where_)
      (orderClause : OrderClause orderTokens order) (limitClause : LimitClause limitTokens limit)
      (ending : Statement.Ending last) :
      ConditionHole [select, .star, from_, name, where_] (orderTokens ++ (limitTokens ++ last))
        (fun condition => .select table (some condition) order limit)
  | count {select count from_ name where_ : Token} {table : String} {labelTokens last : List Token}
      {label : Option String} (selectWord : Keyword "select" select)
      (countWord : Keyword "count" count) (labelled : Label labelTokens label)
      (fromWord : Keyword "from" from_) (tableName : Name name table)
      (whereWord : Keyword "where" where_) (ending : Statement.Ending last) :
      ConditionHole (select :: count :: .leftParen :: .star :: .rightParen ::
        (labelTokens ++ [from_, name, where_])) last
        (fun condition => .count table label (.single condition))

/-- The tokens before and after a value of a statement, and the statement that a value makes between
them. -/
inductive ValueHole : List Token → List Token → (Slot → Statement) → Prop
  | value {insert into name values : Token} {table : String}
      {columnTokens leadTokens restTokens last : List Token} {columns : List String}
      {earlier later : List Slot}
      (insertWord : Keyword "insert" insert) (intoWord : Keyword "into" into)
      (tableName : Name name table) (columnList : Several Column columnTokens columns)
      (distinct : columns.Nodup) (valuesWord : Keyword "values" values)
      (lead : Leading Term leadTokens earlier) (tail : Further Term restTokens later)
      (ending : Statement.Ending last) :
      ValueHole (insert :: into :: name :: .leftParen :: (columnTokens ++ .rightParen :: values ::
        .leftParen :: leadTokens)) (restTokens ++ .rightParen :: last)
        (fun slot => .insert table columns (earlier ++ slot :: later))
  | setting {update name set token where_ : Token} {table column : String}
      {leadTokens restTokens found last : List Token} {earlier later : List (String × Slot)}
      {condition : Condition Slot} (updateWord : Keyword "update" update)
      (tableName : Name name table) (setWord : Keyword "set" set)
      (lead : Leading Assignment leadTokens earlier) (columnName : Name token column)
      (tail : Further Assignment restTokens later)
      (distinct : (earlier.map Prod.fst ++ column :: later.map Prod.fst).Nodup)
      (whereWord : Keyword "where" where_) (predicate : Predicate found condition)
      (ending : Statement.Ending last) :
      ValueHole (update :: name :: set :: (leadTokens ++ [token, .operator .equals]))
        (restTokens ++ where_ :: (found ++ last))
        (fun slot => .update table (earlier ++ (column, slot) :: later) condition)
  | compared {front back : List Token} {fill : Condition Slot → Statement} {token : Token}
      {column : String} (hole : ConditionHole front back fill) (columnName : Name token column)
      (symbol : OpSymbol) :
      ValueHole (front ++ [token, .operator symbol]) back
        (fun slot => fill ⟨column, symbol.op, slot⟩)

section Filled

variable {front back : List Token}

/-- Any condition in the place of one makes a statement. -/
theorem ConditionHole.sentence {fill : Condition Slot → Statement}
    (h : ConditionHole front back fill) {tokens : List Token} {condition : Condition Slot}
    (predicate : Predicate tokens condition) :
    Sentence (front ++ (tokens ++ back)) (fill condition) := by
  refine Statement.sentence_iff.2 ?_
  cases h with
  | update updateWord tableName setWord setList distinct whereWord ending =>
      exact ⟨_, _, by simp, .update updateWord tableName setWord setList distinct whereWord
        predicate, ending⟩
  | delete deleteWord fromWord tableName whereWord ending =>
      exact ⟨_, _, by simp, .delete deleteWord fromWord tableName whereWord predicate, ending⟩
  | select selectWord fromWord tableName whereWord orderClause limitClause ending =>
      exact ⟨_, _, by simp, .select selectWord fromWord tableName (.present whereWord predicate)
        orderClause limitClause, ending⟩
  | count selectWord countWord labelled fromWord tableName whereWord ending =>
      exact ⟨_, _, by simp, .count selectWord countWord labelled fromWord tableName
        (.present whereWord (.single predicate)), ending⟩

/-- Any term may stand in a hole. -/
theorem ValueHole.sentence {fill : Slot → Statement} (h : ValueHole front back fill)
    {term : List Token} {slot : Slot} (operand : Term term slot) :
    Sentence (front ++ (term ++ back)) (fill slot) := by
  cases h with
  | value insertWord intoWord tableName columnList distinct valuesWord lead tail ending =>
      refine Statement.sentence_iff.2 ⟨_, _, ?_, .insert insertWord intoWord tableName columnList
        distinct valuesWord (lead.several operand tail), ending⟩
      simp
  | setting updateWord tableName setWord lead columnName tail distinct whereWord predicate ending =>
      have hlist := lead.several (.set columnName operand) tail
      refine Statement.sentence_iff.2 ⟨_, _, ?_, .update updateWord tableName setWord hlist ?_
        whereWord predicate, ending⟩
      · simp
      · simpa using distinct
  | compared hole columnName symbol =>
      have hsentence := hole.sentence (.compare columnName operand : Predicate _ ⟨_, symbol.op, _⟩)
      simpa using hsentence

end Filled

/-! ## Question marks are holes -/

section Found

variable {left right : List Token}

/-- A question mark in a condition leaves a hole in the statement around it. -/
theorem ConditionHole.exists_valueHole (front : List Token) {where_ : Token}
    {back found : List Token} {fill : Condition Slot → Statement}
    (h : ConditionHole (front ++ [where_]) back fill) (whereWord : Keyword "where" where_)
    {condition : Condition Slot} (predicate : Predicate found condition)
    (happend : [where_] ++ found = left ++ .placeholder :: right) :
    ∃ put, ValueHole (front ++ left) (right ++ back) put ∧ put .placeholder = fill condition := by
  obtain ⟨more, rfl, rfl⟩ := Layout.append_eq_append_cons_of_not_mem happend
    (by simpa using whereWord.ne_placeholder.symm)
  obtain ⟨token, column, symbol, rfl, rfl, rfl, columnName⟩ := predicate.exists_hole
  exact ⟨_, by simpa using ValueHole.compared h columnName symbol, rfl⟩

theorem placeholder_not_mem_of_spells {tokens : List Token} (h : Spells tokens []) :
    Token.placeholder ∉ tokens :=
  List.count_eq_zero.1 h.count_placeholder

section Forms

variable {table : String} {last : List Token} (ending : Statement.Ending last)

include ending

theorem exists_valueHole_insert {insert into name values : Token}
    {columnTokens valueTokens : List Token} {columns : List String} {slots : List Slot}
    (insertWord : Keyword "insert" insert) (intoWord : Keyword "into" into)
    (tableName : Name name table) (columnList : Several Column columnTokens columns)
    (distinct : columns.Nodup) (valuesWord : Keyword "values" values)
    (valueList : Several Term valueTokens slots)
    (happend : left ++ .placeholder :: right = insert :: into :: name :: .leftParen ::
      (columnTokens ++ .rightParen :: values :: .leftParen :: (valueTokens ++ [.rightParen]))) :
    ∃ fill, ValueHole left (right ++ last) fill ∧
      fill .placeholder = .insert table columns slots := by
  have hcolumns : Token.placeholder ∉ columnTokens := by
    have hspells := Spells.several (fun _ => []) Statement.spells_column columnList
    rw [List.flatMap_eq_nil_iff.2 (by simp)] at hspells
    exact placeholder_not_mem_of_spells hspells
  have hplain : Token.placeholder ∉ insert :: into :: name :: .leftParen ::
      (columnTokens ++ [.rightParen, values, .leftParen]) := by
    simp [insertWord.ne_placeholder.symm, intoWord.ne_placeholder.symm,
      tableName.ne_placeholder.symm, valuesWord.ne_placeholder.symm, hcolumns]
  have hsplit : insert :: into :: name :: .leftParen ::
      (columnTokens ++ [.rightParen, values, .leftParen]) ++ (valueTokens ++ [.rightParen]) =
        left ++ .placeholder :: right := by simp [happend]
  obtain ⟨more, rfl, hvalues⟩ := Layout.append_eq_append_cons_of_not_mem hsplit hplain
  rcases Layout.append_eq_append_cons hvalues with ⟨_, -, hclosing⟩ | ⟨rest, rfl, rfl⟩
  · have hmem : Token.placeholder ∈ [.rightParen] := by simp [hclosing]
    simp at hmem
  · obtain ⟨earlier, later, lead, tail, rfl⟩ := valueList.exists_value
    refine ⟨fun slot => .insert table columns (earlier ++ slot :: later), ?_, rfl⟩
    simpa using ValueHole.value insertWord intoWord tableName columnList distinct valuesWord
      lead tail ending

theorem exists_valueHole_update {update name set where_ : Token} {setTokens found : List Token}
    {assignments : List (String × Slot)} {condition : Condition Slot}
    (updateWord : Keyword "update" update) (tableName : Name name table)
    (setWord : Keyword "set" set) (setList : Several Assignment setTokens assignments)
    (distinct : (assignments.map Prod.fst).Nodup) (whereWord : Keyword "where" where_)
    (predicate : Predicate found condition)
    (happend : left ++ .placeholder :: right = update :: name :: set ::
      (setTokens ++ where_ :: found)) :
    ∃ fill, ValueHole left (right ++ last) fill ∧
      fill .placeholder = .update table assignments condition := by
  have hplain : Token.placeholder ∉ [update, name, set] := by
    simp [updateWord.ne_placeholder.symm, tableName.ne_placeholder.symm,
      setWord.ne_placeholder.symm]
  have hsplit : [update, name, set] ++ (setTokens ++ where_ :: found) =
      left ++ .placeholder :: right := happend.symm
  obtain ⟨more, rfl, htail⟩ := Layout.append_eq_append_cons_of_not_mem hsplit hplain
  rcases Layout.append_eq_append_cons htail with ⟨rest, rfl, hfound⟩ | ⟨rest, rfl, rfl⟩
  · exact ConditionHole.exists_valueHole (update :: name :: set :: setTokens)
      (.update updateWord tableName setWord setList distinct whereWord ending) whereWord
      predicate hfound
  · obtain ⟨leadTokens, token, column, earlier, later, rfl, lead, columnName, tail, rfl⟩ :=
      setList.exists_assignment
    refine ⟨fun slot => .update table (earlier ++ (column, slot) :: later) condition, ?_, rfl⟩
    simpa using ValueHole.setting updateWord tableName setWord lead columnName tail
      (by simpa using distinct) whereWord predicate ending

theorem exists_valueHole_select {select from_ name : Token}
    {found orderTokens limitTokens : List Token} {condition : Option (Condition Slot)}
    {order : Option OrderBy} {limit : Option UInt64} (selectWord : Keyword "select" select)
    (fromWord : Keyword "from" from_) (tableName : Name name table)
    (whereClause : WhereClause found condition) (orderClause : OrderClause orderTokens order)
    (limitClause : LimitClause limitTokens limit)
    (happend : left ++ .placeholder :: right = select :: .star :: from_ :: name ::
      (found ++ (orderTokens ++ limitTokens))) :
    ∃ fill, ValueHole left (right ++ last) fill ∧
      fill .placeholder = .select table condition order limit := by
  have hplain : Token.placeholder ∉ [select, .star, from_, name] := by
    simp [selectWord.ne_placeholder.symm, fromWord.ne_placeholder.symm,
      tableName.ne_placeholder.symm]
  have hclauses : Token.placeholder ∉ orderTokens ++ limitTokens :=
    placeholder_not_mem_of_spells ((Statement.spells_orderClause orderClause).append
      (Statement.spells_limitClause limitClause))
  have hsplit : [select, .star, from_, name] ++ (found ++ (orderTokens ++ limitTokens)) =
      left ++ .placeholder :: right := happend.symm
  obtain ⟨more, rfl, htail⟩ := Layout.append_eq_append_cons_of_not_mem hsplit hplain
  rcases Layout.append_eq_append_cons htail with ⟨rest, rfl, hrest⟩ | ⟨rest, rfl, rfl⟩
  · refine absurd ?_ hclauses
    rw [hrest]
    exact List.mem_append_right _ List.mem_cons_self
  · generalize hfound : more ++ .placeholder :: rest = found at whereClause
    cases whereClause with
    | absent => simp at hfound
    | @present where_ tokens condition whereWord predicate =>
        obtain ⟨fill, hole, hfill⟩ := ConditionHole.exists_valueHole [select, .star, from_, name]
          (.select selectWord fromWord tableName whereWord orderClause limitClause ending)
          whereWord predicate hfound.symm
        exact ⟨fill, by simpa using hole, hfill⟩

theorem exists_valueHole_count {select count from_ name : Token} {labelTokens found : List Token}
    {label : Option String} {filter : CountFilter} {kept : Option (Condition Slot)}
    (selectWord : Keyword "select" select) (countWord : Keyword "count" count)
    (labelled : Label labelTokens label) (fromWord : Keyword "from" from_)
    (tableName : Name name table) (countClause : CountClause found filter)
    (hkept : (Statement.count table label filter).keptCondition .apply = .ok kept)
    (happend : left ++ .placeholder :: right = select :: count :: .leftParen :: .star ::
      .rightParen :: (labelTokens ++ from_ :: name :: found)) :
    ∃ fill, ValueHole left (right ++ last) fill ∧
      fill .placeholder = .count table label filter := by
  have hlabel := placeholder_not_mem_of_spells (Statement.spells_label labelled)
  have hplain : Token.placeholder ∉ select :: count :: .leftParen :: .star :: .rightParen ::
      (labelTokens ++ [from_, name]) := by
    simp [selectWord.ne_placeholder.symm, countWord.ne_placeholder.symm,
      fromWord.ne_placeholder.symm, tableName.ne_placeholder.symm, hlabel]
  have hsplit : select :: count :: .leftParen :: .star :: .rightParen ::
      (labelTokens ++ [from_, name]) ++ found = left ++ .placeholder :: right := by
    simp [happend]
  obtain ⟨more, rfl, htail⟩ := Layout.append_eq_append_cons_of_not_mem hsplit hplain
  cases countClause with
  | absent => simp at htail
  | @present where_ tokens filter whereWord condition =>
      cases condition with
      | combined | other => cases hkept
      | single predicate =>
          have hole : ConditionHole ((select :: count :: .leftParen :: .star :: .rightParen ::
              (labelTokens ++ [from_, name])) ++ [where_]) last
              (fun condition => .count table label (.single condition)) := by
            simpa using ConditionHole.count selectWord countWord labelled fromWord tableName
              whereWord ending
          exact hole.exists_valueHole _ whereWord predicate htail

/-- Every question mark of a statement whose condition is kept leaves a hole. -/
theorem Form.exists_valueHole {statement : Statement} {kept : Option (Condition Slot)}
    (h : Form (left ++ .placeholder :: right) statement)
    (hkept : statement.keptCondition .apply = .ok kept) :
    ∃ fill, ValueHole left (right ++ last) fill ∧ fill .placeholder = statement := by
  generalize happend : left ++ .placeholder :: right = tokens at h
  cases h with
  | insert insertWord intoWord tableName columnList distinct valuesWord valueList =>
      exact exists_valueHole_insert ending insertWord intoWord tableName columnList distinct
        valuesWord valueList happend
  | update updateWord tableName setWord setList distinct whereWord predicate =>
      exact exists_valueHole_update ending updateWord tableName setWord setList distinct whereWord
        predicate happend
  | @delete delete from_ name where_ _ found _ deleteWord fromWord tableName whereWord predicate =>
      have hplain : Token.placeholder ∉ [delete, from_, name] := by
        simp [deleteWord.ne_placeholder.symm, fromWord.ne_placeholder.symm,
          tableName.ne_placeholder.symm]
      have hsplit : [delete, from_, name] ++ (where_ :: found) = left ++ .placeholder :: right :=
        happend.symm
      obtain ⟨more, rfl, hfound⟩ := Layout.append_eq_append_cons_of_not_mem hsplit hplain
      exact ConditionHole.exists_valueHole [delete, from_, name]
        (.delete deleteWord fromWord tableName whereWord ending) whereWord predicate hfound
  | select selectWord fromWord tableName whereClause orderClause limitClause =>
      exact exists_valueHole_select ending selectWord fromWord tableName whereClause orderClause
        limitClause happend
  | count selectWord countWord labelled fromWord tableName countClause =>
      exact exists_valueHole_count ending selectWord countWord labelled fromWord tableName
        countClause hkept happend

end Forms

end Found

/-- A question mark of a statement whose condition is kept leaves a hole. -/
theorem Sentence.exists_valueHole {left right : List Token} {statement : Statement}
    {kept : Option (Condition Slot)} (h : Sentence (left ++ .placeholder :: right) statement)
    (hkept : statement.keptCondition .apply = .ok kept) :
    ∃ fill, ValueHole left right fill ∧ fill .placeholder = statement := by
  obtain ⟨tokens, last, happend, form, ending⟩ := Statement.sentence_iff.1 h
  have hlast : Token.placeholder ∉ last := by
    rcases ending with rfl | rfl <;> simp
  rcases Layout.append_eq_append_cons happend.symm with ⟨more, -, rfl⟩ | ⟨more, rfl, rfl⟩
  · exact absurd (by simp) hlast
  · exact form.exists_valueHole ending hkept

/-! ## The tokens around a hole -/

/-- How a statement depends on one of its values, and the values that come before it. -/
inductive Place : (Slot → Statement) → List Slot → Prop
  | value (table : String) (columns : List String) (earlier later : List Slot) :
      Place (fun slot => .insert table columns (earlier ++ slot :: later)) earlier
  | setting (table : String) (earlier : List (String × Slot)) (column : String)
      (later : List (String × Slot)) (condition : Condition Slot) :
      Place (fun slot => .update table (earlier ++ (column, slot) :: later) condition)
        (earlier.map Prod.snd)
  | change (table : String) (assignments : List (String × Slot)) (column : String)
      (op : CompareOp) :
      Place (fun slot => .update table assignments ⟨column, op, slot⟩) (assignments.map Prod.snd)
  | deletion (table column : String) (op : CompareOp) :
      Place (fun slot => .delete table ⟨column, op, slot⟩) []
  | selection (table column : String) (op : CompareOp) (order : Option OrderBy)
      (limit : Option UInt64) :
      Place (fun slot => .select table (some ⟨column, op, slot⟩) order limit) []
  | count (table : String) (label : Option String) (column : String) (op : CompareOp) :
      Place (fun slot => .count table label (.single ⟨column, op, slot⟩)) []

section Around

variable {front back : List Token}

/-- The tokens that a value stands behind. -/
inductive Opening : Token → Prop
  | comma : Opening .comma
  | paren : Opening .leftParen
  | operator (symbol : OpSymbol) : Opening (.operator symbol)

theorem Leading.eq_nil_or_comma {α : Type} {item : List Token → α → Prop} {lead : List Token}
    {earlier : List α} (h : Leading item lead earlier) :
    lead = [] ∨ ∃ first, lead = first ++ [.comma] := by
  induction h with
  | nil => exact .inl rfl
  | @cons tokens rest _ _ _ _ ih =>
      refine .inr ?_
      rcases ih with rfl | ⟨first, rfl⟩
      · exact ⟨tokens, rfl⟩
      · exact ⟨tokens ++ .comma :: first, by simp⟩

/-- Before a hole there is a token that a value stands behind. -/
theorem ValueHole.exists_opening {fill : Slot → Statement} (h : ValueHole front back fill) :
    ∃ first token, front = first ++ [token] ∧ Opening token := by
  cases h with
  | @value insert into name values _ columnTokens _ _ _ _ _ _ _ _ _ _ _ _ lead =>
      rcases lead.eq_nil_or_comma with rfl | ⟨first, rfl⟩
      · exact ⟨insert :: into :: name :: .leftParen :: (columnTokens ++ [.rightParen, values]),
          _, by simp, .paren⟩
      · exact ⟨insert :: into :: name :: .leftParen :: (columnTokens ++ .rightParen :: values ::
          .leftParen :: first), _, by simp, .comma⟩
  | @setting update name set token _ _ _ leadTokens =>
      exact ⟨update :: name :: set :: (leadTokens ++ [token]), .operator .equals, by simp,
        .operator _⟩
  | @compared front _ _ token _ hole columnName symbol =>
      exact ⟨front ++ [token], .operator symbol, by simp, .operator _⟩

theorem Keyword.not_quotedText {text : String} {token : Token} (h : Keyword text token)
    (content : String) : token ≠ .quotedText content := by
  rintro rfl
  cases h

theorem Further.head? {α : Type} {item : List Token → α → Prop} {tokens : List Token}
    {values : List α} (h : Further item tokens values) {rest : List Token} {content : String}
    (hrest : rest.head? ≠ some (.quotedText content)) :
    (tokens ++ rest).head? ≠ some (.quotedText content) := by
  cases h with
  | nil => exact hrest
  | cons => simp

theorem Ending.head? {rest : List Token} (h : Statement.Ending rest) (content : String) :
    rest.head? ≠ some (.quotedText content) := by
  rcases h with rfl | rfl <;> simp

/-- No text in quotes stands directly behind a hole. -/
theorem ConditionHole.head? {fill : Condition Slot → Statement} (h : ConditionHole front back fill)
    (content : String) : back.head? ≠ some (.quotedText content) := by
  cases h with
  | update _ _ _ _ _ _ ending | delete _ _ _ _ ending | count _ _ _ _ _ _ ending =>
      exact Ending.head? ending content
  | select _ _ _ _ orderClause limitClause ending =>
      cases orderClause with
      | present orderWord => simpa using orderWord.not_quotedText content
      | absent =>
          cases limitClause with
          | present keyword => simpa using keyword.not_quotedText content
          | absent => exact Ending.head? ending content

/-- No text in quotes follows the place of a value directly. -/
theorem ValueHole.head? {fill : Slot → Statement} (h : ValueHole front back fill)
    (content : String) : back.head? ≠ some (.quotedText content) := by
  cases h with
  | value _ _ _ _ _ _ _ tail => exact tail.head? (by simp)
  | setting _ _ _ _ _ tail _ whereWord =>
      exact tail.head? (by simpa using whereWord.not_quotedText content)
  | compared hole => exact hole.head? content

theorem Leading.spells {α : Type} {item : List Token → α → Prop} (slot : α → Slot)
    (hitem : ∀ {tokens x}, item tokens x → Spells tokens [slot x]) {lead : List Token}
    {earlier : List α} (h : Leading item lead earlier) : Spells lead (earlier.map slot) := by
  induction h with
  | nil => exact .done
  | cons head _ ih => exact (hitem head).append (.other (by simp) ih)

/-- The operand of a condition is a place for a value. -/
theorem ConditionHole.exists_place {fill : Condition Slot → Statement}
    (h : ConditionHole front back fill) (column : String) (op : CompareOp) :
    ∃ values, Place (fun slot => fill ⟨column, op, slot⟩) values ∧ Spells front values := by
  cases h with
  | @update _ _ _ _ table _ _ assignments updateWord tableName setWord setList _ whereWord =>
      have hassignments :=
        Spells.several (fun assigned => [assigned.2]) Statement.spells_assignment setList
      rw [← List.map_eq_flatMap] at hassignments
      have htail := hassignments.append (.other whereWord.ne_placeholder .done)
      rw [List.append_nil] at htail
      exact ⟨_, .change table assignments column op, .other updateWord.ne_placeholder
        (.other tableName.ne_placeholder (.other setWord.ne_placeholder htail))⟩
  | delete deleteWord fromWord tableName whereWord =>
      exact ⟨[], .deletion _ column op, .other deleteWord.ne_placeholder
        (.other fromWord.ne_placeholder (.other tableName.ne_placeholder
          (.other whereWord.ne_placeholder .done)))⟩
  | select selectWord fromWord tableName whereWord =>
      exact ⟨[], .selection _ column op _ _, .other selectWord.ne_placeholder (.other (by simp)
        (.other fromWord.ne_placeholder (.other tableName.ne_placeholder
          (.other whereWord.ne_placeholder .done))))⟩
  | count selectWord countWord labelled fromWord tableName whereWord =>
      exact ⟨[], .count _ _ column op, .other selectWord.ne_placeholder
        (.other countWord.ne_placeholder (.other (by simp) (.other (by simp) (.other (by simp)
          ((Statement.spells_label labelled).append (.other fromWord.ne_placeholder
            (.other tableName.ne_placeholder (.other whereWord.ne_placeholder .done))))))))⟩

/-- The slots before a hole are those of the tokens before it. -/
theorem ValueHole.exists_place {fill : Slot → Statement} (h : ValueHole front back fill) :
    ∃ earlier, Place fill earlier ∧ Spells front earlier := by
  have hoperator : ∀ symbol, Token.operator symbol ≠ .placeholder := by simp
  cases h with
  | @value _ _ _ _ _ _ leadTokens _ _ _ earlier later insertWord intoWord tableName columnList _
      valuesWord lead =>
      have hcolumns := Spells.several (fun _ => []) Statement.spells_column columnList
      rw [List.flatMap_eq_nil_iff.2 (by simp)] at hcolumns
      have hlead : Spells leadTokens (earlier.map id) := lead.spells id Spells.single
      rw [List.map_id] at hlead
      refine ⟨earlier, .value _ _ earlier later, ?_⟩
      exact .other insertWord.ne_placeholder (.other intoWord.ne_placeholder
        (.other tableName.ne_placeholder (.other (by simp) (hcolumns.append
          (.other (by simp) (.other valuesWord.ne_placeholder (.other (by simp) hlead)))))))
  | @setting _ _ _ _ _ _ _ _ _ _ _ earlier later condition updateWord tableName setWord lead
      columnName =>
      have hlead := (lead.spells Prod.snd Statement.spells_assignment).append
        (.other columnName.ne_placeholder (.other (hoperator .equals) .done))
      rw [List.append_nil] at hlead
      exact ⟨_, .setting _ earlier _ later condition, .other updateWord.ne_placeholder
        (.other tableName.ne_placeholder (.other setWord.ne_placeholder hlead))⟩
  | @compared _ _ _ _ column hole columnName symbol =>
      obtain ⟨values, hplace, hspells⟩ := hole.exists_place column symbol.op
      have hfront := hspells.append
        (.other columnName.ne_placeholder (.other (hoperator symbol) .done))
      rw [List.append_nil] at hfront
      exact ⟨values, hplace, hfront⟩

end Around

end ClosedSql.Grammar
