import ClosedSql.Proofs.Sql.Pairing

/-!
# Every placeholder gets its own parameter

The question marks of a text get the numbers from zero on, in the order in which they are read, and
there is a parameter for each of these numbers. The operands of the columns are as many as the
columns, so none is left out or moved to another column when they are paired. Only a count may drop
its condition, and then it has no operands at all.
-/

namespace ClosedSql

open Grammar

/-- Read from the left, tokens hold the terms of some operands. The question marks among them, and
no other token, are parameters, and their numbers go up by one from a first one. -/
inductive Receives : Nat → List Token → List Operand → Prop
  | done {next : Nat} : Receives next [] []
  | other {next : Nat} {token : Token} {rest : List Token} {operands : List Operand}
      (plain : token ≠ .placeholder) (tail : Receives next rest operands) :
      Receives next (token :: rest) operands
  | param {next : Nat} {rest : List Token} {operands : List Operand}
      (tail : Receives (next + 1) rest operands) :
      Receives next (.placeholder :: rest) (.param next :: operands)
  | literal {next : Nat} {term rest : List Token} {value : Value} {operands : List Operand}
      (operand : Term term (.literal value)) (tail : Receives next rest operands) :
      Receives next (term ++ rest) (.literal value :: operands)

/-- Slots that are numbered one after the other receive their parameters. -/
theorem Spells.receives {tokens : List Token} {slots : List Slot} (h : Spells tokens slots)
    (next : Nat) : Receives next tokens (Statement.numberSlots next slots) := by
  induction h generalizing next with
  | done => exact .done
  | other plain _ ih => exact .other plain (ih next)
  | @slot term rest slot slots operand _ ih =>
      cases slot with
      | literal value => exact .literal operand (ih next)
      | placeholder =>
          cases operand with
          | placeholder => exact .param (ih (next + 1))

/-- What is bound has the parameters that it needs. -/
structure BoundStatement.Supplied (bound : BoundStatement) (config : Config) (tokens : List Token)
    (params : List Value) : Prop where
  /-- The question marks are numbered in the order of the text, unless the condition of a count is
  dropped and no operand is left. -/
  received : Receives 0 tokens bound.operands ∨
    config.countPolicy = .ignore ∧ (∃ table, bound.shape = .count table) ∧ bound.operands = []
  /-- The numbers go up from zero, and none of them is beyond the parameters. -/
  numbers : ∃ count ≤ params.length, bound.operands.filterMap Operand.number? = List.range count
  /-- So a parameter is never taken for an absent value for want of it. -/
  resolved : ∀ index, .param index ∈ bound.operands →
    ∃ value, params[index]? = some value ∧ bound.resolve (.param index) = value
  /-- What changes rows has as many question marks as there are parameters. -/
  exact : bound.shape.changesRows = true → tokens.count .placeholder = params.length
  /-- Each column has one operand, and no column stands twice. -/
  paired : bound.values.length = bound.columns.length ∧ bound.columns.Nodup
  /-- The record has the columns of the statement and no others. -/
  columns : bound.assignments.names.Perm bound.columns
  /-- Each column has the value of its own operand. -/
  assigned : ∀ (place : Nat) (column : String) (operand : Operand),
    bound.columns[place]? = some column → bound.values[place]? = some operand →
      bound.assignments.get? column = some (bound.resolve operand)

namespace Statement

variable {statement : Statement} {kept : Option (Condition Slot)} {params : List Value}

/-- Either the condition is kept and every placeholder is a slot, or the condition of a count is
dropped. -/
theorem keptCondition_cases {policy : CountPolicy}
    (h : statement.keptCondition policy = .ok kept) :
    kept = statement.condition? ∧ statement.placeholders = placeholdersIn statement.slots ∨
      policy = .ignore ∧ (∃ table, statement.shape = .count table) ∧ kept = none := by
  cases statement with
  | insert | update | delete =>
      cases h
      exact .inl ⟨rfl, placeholders_of_changesRows rfl⟩
  | select table found order limit =>
      cases h
      refine .inl ⟨rfl, ?_⟩
      cases kept with
      | none => rfl
      | some condition =>
          simp [placeholders, slots, values, conditionPlaceholders, condition?, placeholdersIn]
  | count table label filter =>
      cases filter with
      | none =>
          cases h
          exact .inl ⟨rfl, rfl⟩
      | single condition =>
          cases policy with
          | ignore =>
              cases h
              exact .inr ⟨rfl, ⟨table, rfl⟩, rfl⟩
          | apply =>
              cases h
              exact .inl ⟨rfl, by simp [placeholders, slots, values, conditionPlaceholders,
                condition?, placeholdersIn]⟩
      | beyond reason count =>
          cases policy with
          | ignore =>
              cases h
              exact .inr ⟨rfl, ⟨table, rfl⟩, rfl⟩
          | apply => cases h

/-- There are parameters for all slots of a statement whose condition is kept. -/
theorem placeholdersIn_slots_le
    (hslots : statement.placeholders = placeholdersIn statement.slots)
    (h : statement.mismatch? statement.condition?.isSome params.length = none) :
    placeholdersIn statement.slots ≤ params.length := by
  rw [← hslots]
  cases hchanges : statement.shape.changesRows with
  | true => exact Nat.le_of_eq (lengths_of_mismatch? hchanges h).2.symm
  | false =>
      cases statement with
      | insert | update | delete => cases hchanges
      | select table condition order limit => simpa [mismatch?] using h
      | count table label filter =>
          cases filter with
          | none => simp [placeholders, values, conditionPlaceholders, placeholdersIn]
          | single condition => simpa [mismatch?, condition?] using h
          | beyond reason count =>
              -- its placeholders would be no slots
              rw [hslots]
              simp [slots, values, condition?, placeholdersIn]

theorem length_columns (h : statement.mismatch? kept.isSome params.length = none) :
    statement.columns.length = statement.values.length := by
  cases hchanges : statement.shape.changesRows with
  | true => exact (lengths_of_mismatch? hchanges h).1
  | false =>
      cases statement with
      | insert | update | delete => cases hchanges
      | select | count => rfl

theorem values_of_count {table : String} (h : statement.shape = .count table) :
    statement.values = [] := by
  cases statement with
  | count => rfl
  | insert | update | delete | select => cases h

section Bound

variable {config : Config} {text : String} (hread : ofText text = .ok statement)
  (hkept : statement.keptCondition config.countPolicy = .ok kept)
  (hmismatch : statement.mismatch? kept.isSome params.length = none)

include hkept in
/-- A condition that is dropped leaves no operands. -/
theorem operands_numbered_cases (params : List Value) :
    (statement.numbered kept params).operands = numberSlots 0 statement.slots ∧
        kept = statement.condition? ∧ statement.placeholders = placeholdersIn statement.slots ∨
      config.countPolicy = .ignore ∧ (∃ table, statement.shape = .count table) ∧
        (statement.numbered kept params).operands = [] := by
  rw [operands_numbered]
  rcases keptCondition_cases hkept with ⟨rfl, hslots⟩ | ⟨hpolicy, hshape, rfl⟩
  · exact .inl ⟨rfl, rfl, hslots⟩
  · obtain ⟨table, htable⟩ := hshape
    refine .inr ⟨hpolicy, ⟨table, htable⟩, ?_⟩
    rw [values_of_count htable]
    rfl

include hkept hmismatch in
/-- The numbers of the operands go up from zero, and there is a parameter for each. -/
theorem numbers_operands : ∃ count ≤ params.length,
    (statement.numbered kept params).operands.filterMap Operand.number? = List.range count := by
  rcases operands_numbered_cases hkept params with
    ⟨hoperands, hcondition, hslots⟩ | ⟨-, -, hoperands⟩
  · subst hcondition
    refine ⟨_, placeholdersIn_slots_le hslots hmismatch, ?_⟩
    rw [hoperands, numbers_numberSlots, List.range_eq_range']
  · exact ⟨0, Nat.zero_le _, by rw [hoperands]; rfl⟩

include hread hmismatch in
/-- The record of a numbered statement has the value of each operand under its own column. -/
theorem get?_assignments_numbered {place : Nat} {column : String} {operand : Operand}
    (hcolumn : (statement.numbered kept params).columns[place]? = some column)
    (hoperand : (statement.numbered kept params).values[place]? = some operand) :
    (statement.numbered kept params).assignments.get? column =
      some ((statement.numbered kept params).resolve operand) := by
  have hnames := map_fst_assigned (length_columns hmismatch) kept params
    (statement.numbered kept params).resolve
  rw [BoundStatement.assignments, NameMap.get?_ofList_eq_some_iff (hnames ▸ nodup_columns hread)]
  apply List.mem_map.2
  exact ⟨(column, operand),
    List.mem_of_getElem? (List.getElem?_zip_eq_some.2 ⟨hcolumn, hoperand⟩), rfl⟩

include hread hmismatch in
/-- The columns of a bound statement are those it assigns. -/
theorem names_assignments_numbered :
    (statement.numbered kept params).assignments.names.Perm statement.columns := by
  have hnames := map_fst_assigned (length_columns hmismatch) kept params
    (statement.numbered kept params).resolve
  have hperm := NameMap.names_ofList_perm (hnames ▸ nodup_columns hread)
  rwa [hnames] at hperm

end Bound

end Statement

/-- In whatever is bound, every question mark has a parameter of its own, in the order of the text,
and every column the value of its own operand. -/
theorem Config.supplied_of_bind {config : Config} {text : String} {params : List Value}
    {bound : BoundStatement} (h : config.bind text params = .ok bound) :
    bound.Supplied config (Token.ofText (config.normalize text)) params := by
  obtain ⟨statement, hread, hbound⟩ := Config.bind_eq_ok_iff.1 h
  obtain ⟨kept, hkept, hmismatch, -, rfl⟩ := Statement.bind_eq_ok_iff_numbered.1 hbound
  have hnumbers := Statement.numbers_operands hkept hmismatch
  constructor
  case received =>
    rcases Statement.operands_numbered_cases hkept params with
      ⟨hoperands, -, hslots⟩ | hdropped
    · rw [hoperands]
      exact .inl ((Statement.spells_of_ofText hread hslots).receives 0)
    · exact .inr hdropped
  case numbers => exact hnumbers
  case resolved =>
    intro index hindex
    obtain ⟨count, hcount, hrange⟩ := hnumbers
    have hmem : index ∈ List.range count := by
      rw [← hrange]
      exact List.mem_filterMap.2 ⟨.param index, hindex, rfl⟩
    have hlt : index < params.length := Nat.lt_of_lt_of_le (List.mem_range.1 hmem) hcount
    refine ⟨params[index], List.getElem?_eq_getElem hlt, ?_⟩
    simp [BoundStatement.resolve, Statement.numbered, hlt]
  case exact =>
    intro hchanges
    have hspells := Statement.spells_of_changesRows hread hchanges
    rw [hspells.count_placeholder, ← Statement.placeholders_of_changesRows hchanges]
    exact (Statement.lengths_of_mismatch? hchanges hmismatch).2.symm
  case paired =>
    rw [Statement.columns_numbered, Statement.length_columns hmismatch]
    exact ⟨Statement.length_numberSlots 0 _, Statement.nodup_columns hread⟩
  case columns =>
    rw [Statement.columns_numbered]
    exact Statement.names_assignments_numbered hread hmismatch
  case assigned =>
    intro place column operand
    exact Statement.get?_assignments_numbered hread hmismatch

/-- A change in which a quoted question mark stands before the others. -/
theorem Config.supplied_of_bind_update : ∃ bound : BoundStatement,
    ({} : Config).bind "UPDATE notes SET title = '?', body = ?, due = NOW() WHERE id >= ?"
        [.text "b", .int 7] = .ok bound ∧
      bound.Supplied {} (Token.ofText (({} : Config).normalize
        "UPDATE notes SET title = '?', body = ?, due = NOW() WHERE id >= ?"))
        [.text "b", .int 7] := by
  have hbinds : (({} : Config).bind
      "UPDATE notes SET title = '?', body = ?, due = NOW() WHERE id >= ?"
      [.text "b", .int 7]).isOk = true := by
    decide +kernel
  cases hbind : ({} : Config).bind
      "UPDATE notes SET title = '?', body = ?, due = NOW() WHERE id >= ?"
      [.text "b", .int 7] with
  | error reason =>
      rw [hbind] at hbinds
      cases hbinds
  | ok bound => exact ⟨bound, rfl, Config.supplied_of_bind hbind⟩

end ClosedSql
