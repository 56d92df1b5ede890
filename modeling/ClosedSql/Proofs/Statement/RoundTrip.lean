import ClosedSql.Proofs.Statement.Binding
import ClosedSql.Proofs.Statement.Canonical
import ClosedSql.Proofs.Statement.Recognition

/-!
# Writing and reading a statement

A plain statement is read back from its canonical text. Normalizing leaves the text as it is,
since its layout holds no dialect literal; the tokens are those that were written; they derive the
statement in the grammar; and binding numbers the placeholders in the order of the text.
-/

namespace ClosedSql

open Text Grammar

/-! ## The derivation of a plain statement -/

/-- A plain name is a name of the grammar. -/
theorem name_of_isPlain {name : String} (h : IsPlainName name) : Name (.word name) name :=
  .word h.free

theorem term_of_isPlain {slot : Slot} (h : slot.IsPlain) : Term [slot.token] slot := by
  cases slot with
  | placeholder => exact .placeholder
  | literal value =>
      cases value with
      | null => exact .null rfl
      | bool b =>
          cases b with
          | false => exact .false rfl
          | true => exact .true rfl
      | text content => exact .text content
      | int n => exact .integer (integral_toString n.toInt)
      | float x => exact absurd h id

theorem predicate_of_isPlain {condition : Condition Slot} (h : condition.IsPlain) :
    Predicate condition.tokens condition := by
  have hcompare : Predicate condition.tokens
      ⟨condition.column, condition.op.spelling.op, condition.operand⟩ :=
    .compare (name_of_isPlain h.1) (term_of_isPlain h.2)
  rwa [CompareOp.op_spelling] at hcompare

/-- Items with commas between them are a list of the grammar. -/
theorem several_separated {α : Type} {item : α → List Token} {R : List Token → α → Prop}
    {items : List α} (hne : items ≠ []) (h : ∀ x ∈ items, R (item x) x) :
    Several R (separated item items) items := by
  have further : ∀ others : List α, (∀ x ∈ others, R (item x) x) →
      Further R (others.flatMap fun other => .comma :: item other) others := by
    intro others hothers
    induction others with
    | nil => exact .nil
    | cons other others ih =>
        obtain ⟨hother, hrest⟩ := List.forall_mem_cons.1 hothers
        exact .cons hother (ih hrest)
  cases items with
  | nil => exact absurd rfl hne
  | cons first others =>
      obtain ⟨hfirst, hothers⟩ := List.forall_mem_cons.1 h
      exact .intro hfirst (further others hothers)

namespace Statement

theorem whereClause_of_isPlain {found : Option (Condition Slot)}
    (h : ∀ condition ∈ found, condition.IsPlain) : WhereClause (whereTokens found) found := by
  cases found with
  | none => exact .absent
  | some condition => exact .present rfl (predicate_of_isPlain (h condition rfl))

theorem orderClause_of_isPlain {order : Option OrderBy}
    (h : ∀ by_ ∈ order, IsPlainName by_.column) : OrderClause (orderTokens order) order := by
  cases order with
  | none => exact .absent
  | some order =>
      obtain ⟨column, ascending⟩ := order
      have hname := name_of_isPlain (h _ rfl)
      cases ascending with
      | true =>
          have hdirection : Direction [.word "ASC"] true := .ascending rfl
          exact .present rfl rfl hname hdirection
      | false =>
          have hdirection : Direction [.word "DESC"] false := .descending rfl
          exact .present rfl rfl hname hdirection

theorem limitClause_tokens (limit : Option UInt64) : LimitClause (limitTokens limit) limit := by
  cases limit with
  | none => exact .absent
  | some limit =>
      refine .present rfl ?_
      rw [Nat.toString_eq_repr, Nat.toList_repr]
      exact natural_toDigits limit.toNat

theorem label_of_isPlain {label : Option String} (h : ∀ name ∈ label, IsPlainName name) :
    Label (labelTokens label) label := by
  cases label with
  | none => exact .absent
  | some name => exact .named rfl (name_of_isPlain (h name rfl))

/-- The tokens of a plain statement derive it. -/
theorem form_of_isPlain {statement : Statement} (h : statement.IsPlain) :
    Form statement.tokens statement := by
  cases statement with
  | insert table columns values =>
      obtain ⟨htable, hne, hlength, hdistinct, hcolumns, hvalues⟩ := h
      have hvaluesNe : values ≠ [] := by
        rintro rfl
        exact hne (List.eq_nil_of_length_eq_zero hlength)
      have hcolumnList :
          Several Column (separated (fun column => [.word column]) columns) columns := by
        refine several_separated hne fun column hcolumn => ?_
        exact .name (name_of_isPlain (hcolumns column hcolumn))
      exact .insert rfl rfl (name_of_isPlain htable) hcolumnList hdistinct rfl
        (several_separated hvaluesNe fun value hvalue => term_of_isPlain (hvalues value hvalue))
  | update table assignments condition =>
      obtain ⟨htable, hne, hdistinct, hassignments, hcondition⟩ := h
      have hset : Several Assignment (separated
          (fun pair => [.word pair.1, .operator .equals, pair.2.token]) assignments)
          assignments := by
        refine several_separated hne fun pair hpair => ?_
        obtain ⟨hname, hvalue⟩ := hassignments pair hpair
        exact .set (name_of_isPlain hname) (term_of_isPlain hvalue)
      exact .update rfl (name_of_isPlain htable) rfl hset hdistinct rfl
        (predicate_of_isPlain hcondition)
  | delete table condition =>
      exact .delete rfl rfl (name_of_isPlain h.1) rfl (predicate_of_isPlain h.2)
  | select table condition order limit =>
      obtain ⟨htable, hcondition, horder⟩ := h
      exact .select rfl rfl (name_of_isPlain htable) (whereClause_of_isPlain hcondition)
        (orderClause_of_isPlain horder) (limitClause_tokens limit)
  | count table label filter =>
      obtain ⟨htable, hlabel, hfilter⟩ := h
      have hclause : CountClause (whereTokens (count table label filter).condition?) filter := by
        cases filter with
        | none => exact .absent
        | single condition => exact .present rfl (.single (predicate_of_isPlain hfilter))
        | beyond => exact absurd hfilter id
      exact .count rfl rfl (label_of_isPlain hlabel) rfl (name_of_isPlain htable) hclause

/-- A plain statement is read from its canonical text. -/
theorem ofText_normalize_print (config : Config) {statement : Statement} (h : statement.IsPlain) :
    ofText (config.normalize statement.print) = .ok statement := by
  have hcanonical := canonical_tokens h
  rw [ofText, print, ofText_normalize_layout config hcanonical.regular (hcanonical.ordinary none)]
  exact ofTokens_complete (.bare (form_of_isPlain h))

end Statement

/-! ## Binding -/

namespace Statement

/-- What binding makes of a statement: the statement again, with its placeholders numbered from
zero on in the order of the text. -/
structure Binds (statement : Statement) (params : List Value) (bound : BoundStatement) : Prop where
  shape : bound.shape = statement.shape
  values : bound.values.map Operand.slot = statement.values
  predicate : (bound.predicate.map fun condition =>
    (⟨condition.column, condition.op, condition.operand.slot⟩ : Condition Slot)) =
      statement.condition?
  numbering : bound.operands.filterMap Operand.number? = List.range statement.placeholders
  params : bound.params = params
  order : bound.order = statement.order?
  limit : bound.limit = statement.limit?
  countLabel : bound.countLabel = statement.label?

theorem conditionPlaceholders_of_isPlain {statement : Statement} (h : statement.IsPlain) :
    statement.conditionPlaceholders =
      placeholdersIn (statement.condition?.map Condition.operand).toList := by
  cases statement with
  | insert table columns values => rfl
  | update table assignments condition => rfl
  | delete table condition => rfl
  | select table condition order limit => cases condition <;> rfl
  | count table label filter =>
      cases filter with
      | none => rfl
      | single condition => rfl
      | beyond => exact absurd h.2.2 id

/-- The condition of a plain statement is kept. -/
theorem keptCondition_of_isPlain {statement : Statement} (h : statement.IsPlain) :
    statement.keptCondition .apply = .ok statement.condition? := by
  cases statement with
  | insert table columns values => rfl
  | update table assignments condition => rfl
  | delete table condition => rfl
  | select table condition order limit => rfl
  | count table label filter =>
      cases filter with
      | none => rfl
      | single condition => rfl
      | beyond => exact absurd h.2.2 id

/-- Parameters for all placeholders match a plain statement. -/
theorem mismatch?_of_length {statement : Statement} (h : statement.IsPlain) (filtered : Bool)
    {params : Nat} (hparams : params = statement.placeholders) :
    statement.mismatch? filtered params = none := by
  subst hparams
  cases statement with
  | insert table columns values => simp [mismatch?, h.2.2.1]
  | update table assignments condition => simp [mismatch?]
  | delete table condition => simp [mismatch?]
  | select table condition order limit => simp [mismatch?]
  | count table label filter => simp [mismatch?]

/-- A plain statement is bound with all of its placeholders numbered. -/
theorem bind_of_isPlain {statement : Statement} (h : statement.IsPlain) {params : List Value}
    (hparams : params.length = statement.placeholders) :
    statement.bind {} params = .ok (statement.numbered statement.condition? params) :=
  bind_eq_ok_iff_numbered.2 ⟨statement.condition?, keptCondition_of_isPlain h,
    mismatch?_of_length h _ hparams, rfl, rfl⟩

theorem binds_numbered {statement : Statement} (h : statement.IsPlain) (params : List Value) :
    statement.Binds params (statement.numbered statement.condition? params) where
  shape := rfl
  values := map_slot_numberSlots 0 statement.values
  predicate := by
    rw [numbered]
    cases statement.condition? with
    | none => rfl
    | some condition =>
        obtain ⟨column, op, operand⟩ := condition
        cases operand <;> rfl
  numbering := by
    rw [operands_numbered, numbers_numberSlots, placeholders, conditionPlaceholders_of_isPlain h,
      List.range_eq_range', placeholdersIn, List.count_append]
    rfl
  params := rfl
  order := rfl
  limit := rfl
  countLabel := rfl

end Statement

/-- A plain statement is what its canonical text means: under the default settings, normalizing,
reading and binding the text give the statement back, with its placeholders numbered in the order
of the text. -/
theorem Config.bind_print {statement : Statement} (h : statement.IsPlain) {params : List Value}
    (hparams : params.length = statement.placeholders) :
    ∃ bound, ({} : Config).bind statement.print params = .ok bound ∧
      statement.Binds params bound := by
  rw [Config.bind, Statement.ofText_normalize_print {} h]
  exact ⟨_, Statement.bind_of_isPlain h hparams, Statement.binds_numbered h params⟩

/-- The text of a change that names a table after a call, sets a column to a text with quotes and
literals in it, and compares with a placeholder. -/
theorem Config.bind_print_update : ∃ (statement : Statement) (params : List Value),
    statement.print =
        "UPDATE datetime SET c1 = ?, note = 'it''s 1, CURRENT_TIMESTAMP', n = -10 WHERE id <> ?" ∧
      statement.IsPlain ∧ params.length = statement.placeholders ∧
      ∃ bound, ({} : Config).bind statement.print params = .ok bound ∧
        statement.Binds params bound := by
  have hplain : (Statement.update "datetime" [("c1", .placeholder),
      ("note", .literal (.text "it's 1, CURRENT_TIMESTAMP")), ("n", .literal (.int (-10)))]
      ⟨"id", .ne, .placeholder⟩).IsPlain := by
    decide
  exact ⟨_, [.int 7, .null], by decide, hplain, rfl, Config.bind_print hplain rfl⟩

end ClosedSql
