import ClosedSql.Proofs.Statement.Binding
import ClosedSql.Proofs.Statement.Print

/-!
# Slots in the order of the text

The slots of a statement are the places of its values, in the order of the text. Every question mark
among the tokens is the placeholder of one slot, so the parameter of a placeholder is found by
counting the question marks before it; and that is the parameter it is bound to.
-/

namespace ClosedSql

open Grammar

/-! ## Question marks -/

/-- The tokens hold the terms of some slots, one after the other, and no question mark besides. -/
inductive Spells : List Token → List Slot → Prop
  | done : Spells [] []
  | other {token : Token} {rest : List Token} {slots : List Slot} (plain : token ≠ .placeholder)
      (tail : Spells rest slots) : Spells (token :: rest) slots
  | slot {term rest : List Token} {slot : Slot} {slots : List Slot} (operand : Term term slot)
      (tail : Spells rest slots) : Spells (term ++ rest) (slot :: slots)

namespace Spells

theorem of_plain {tokens rest : List Token} {slots : List Slot} (h : .placeholder ∉ tokens)
    (hrest : Spells rest slots) : Spells (tokens ++ rest) slots := by
  induction tokens with
  | nil => exact hrest
  | cons token tokens ih =>
      rw [List.mem_cons, not_or] at h
      exact .other (Ne.symm h.1) (ih h.2)

/-- Tokens one behind the other spell their slots one behind the other. -/
theorem append {tokens rest : List Token} {slots others : List Slot} (h : Spells tokens slots)
    (hrest : Spells rest others) : Spells (tokens ++ rest) (slots ++ others) := by
  induction h with
  | done => exact hrest
  | other plain _ ih => exact .other plain ih
  | slot operand _ ih =>
      rw [List.append_assoc]
      exact .slot operand ih

theorem single {term : List Token} {slot : Slot} (h : Term term slot) : Spells term [slot] := by
  rw [← List.append_nil term]
  exact .slot h .done

theorem none {tokens : List Token} (h : .placeholder ∉ tokens) : Spells tokens [] := by
  rw [← List.append_nil tokens]
  exact .of_plain h .done

end Spells

namespace Grammar

/-- A keyword is no placeholder. -/
theorem Keyword.ne_placeholder {text : String} {token : Token} (h : Keyword text token) :
    token ≠ .placeholder := by
  rintro rfl
  cases h

theorem Name.ne_placeholder {token : Token} {text : String} (h : Name token text) :
    token ≠ .placeholder := by
  rintro rfl
  cases h

/-- A term has as many placeholders as its slot. -/
theorem Term.count_placeholder {term : List Token} {slot : Slot} (h : Term term slot) :
    term.count .placeholder = Statement.placeholdersIn [slot] := by
  cases h with
  | placeholder => rfl
  | text | integer | float => rfl
  | true keyword | false keyword | null keyword =>
      rw [List.count_eq_zero_of_not_mem]
      · rfl
      · simpa using keyword.ne_placeholder.symm
  | now keyword =>
      rw [List.count_eq_zero_of_not_mem]
      · rfl
      · simpa using keyword.ne_placeholder.symm

end Grammar

/-- Tokens have as many placeholders as the slots they spell. -/
theorem Spells.count_placeholder {tokens : List Token} {slots : List Slot}
    (h : Spells tokens slots) : tokens.count .placeholder = Statement.placeholdersIn slots := by
  induction h with
  | done => rfl
  | other plain _ ih => rw [List.count_cons_of_ne plain, ih]
  | @slot term rest slot slots operand _ ih =>
      rw [List.count_append, ih, operand.count_placeholder, Statement.placeholdersIn,
        Statement.placeholdersIn, Statement.placeholdersIn, ← List.count_append]
      rfl

/-- A list spells the slots of its items. -/
theorem Spells.several {α : Type} {item : List Token → α → Prop} (slots : α → List Slot)
    (hitem : ∀ {tokens x}, item tokens x → Spells tokens (slots x)) {tokens : List Token}
    {items : List α} (h : Several item tokens items) : Spells tokens (items.flatMap slots) := by
  have further : ∀ {tokens : List Token} {items : List α}, Further item tokens items →
      Spells tokens (items.flatMap slots) := by
    intro tokens items h
    induction h with
    | nil => exact .done
    | cons head _ ih => exact .other (by simp) ((hitem head).append ih)
  cases h with
  | intro head tail => exact (hitem head).append (further tail)

/-! ## Slots of a statement -/

namespace Statement

def slots (statement : Statement) : List Slot :=
  statement.values ++ (statement.condition?.map Condition.operand).toList

theorem spells_column {tokens : List Token} {column : String} (h : Column tokens column) :
    Spells tokens [] := by
  cases h with
  | name name => exact .none (by simpa using name.ne_placeholder.symm)

theorem spells_assignment {tokens : List Token} {assigned : String × Slot}
    (h : Assignment tokens assigned) : Spells tokens [assigned.2] := by
  cases h with
  | set name operand =>
      exact .other name.ne_placeholder (.other (by simp) (.single operand))

/-- A condition spells its operand. -/
theorem spells_predicate {tokens : List Token} {condition : Condition Slot}
    (h : Predicate tokens condition) : Spells tokens [condition.operand] := by
  cases h with
  | compare name operand =>
      exact .other name.ne_placeholder (.other (by simp) (.single operand))

theorem spells_whereClause {tokens : List Token} {found : Option (Condition Slot)}
    (h : WhereClause tokens found) : Spells tokens (found.map Condition.operand).toList := by
  cases h with
  | absent => exact .done
  | present keyword predicate => exact .other keyword.ne_placeholder (spells_predicate predicate)

theorem spells_orderClause {tokens : List Token} {order : Option OrderBy}
    (h : OrderClause tokens order) : Spells tokens [] := by
  cases h with
  | absent => exact .done
  | present orderWord byWord name direction =>
      refine .other orderWord.ne_placeholder (.other byWord.ne_placeholder
        (.other name.ne_placeholder ?_))
      cases direction with
      | unsaid => exact .done
      | ascending keyword | descending keyword => exact .other keyword.ne_placeholder .done

theorem spells_limitClause {tokens : List Token} {limit : Option UInt64}
    (h : LimitClause tokens limit) : Spells tokens [] := by
  cases h with
  | absent => exact .done
  | present keyword natural => exact .other keyword.ne_placeholder (.other (by simp) .done)

theorem spells_label {tokens : List Token} {label : Option String} (h : Label tokens label) :
    Spells tokens [] := by
  cases h with
  | absent => exact .done
  | bare name => exact .other name.ne_placeholder .done
  | named keyword name => exact .other keyword.ne_placeholder (.other name.ne_placeholder .done)

/-- The tokens of a statement hold the terms of its slots in their order, and no question mark
besides: all but a count, whose condition may be more than a comparison. -/
theorem spells_form {tokens : List Token} {statement : Statement} (h : Form tokens statement)
    (hslots : statement.placeholders = placeholdersIn statement.slots) :
    Spells tokens statement.slots := by
  cases h with
  | insert insertWord intoWord tableName columnList distinct valuesWord valueList =>
      have hcolumns := Spells.several (fun _ => []) spells_column columnList
      have hvalues := (Spells.several (fun slot => [slot]) Spells.single valueList).append
        (.other (by simp) .done : Spells [.rightParen] [])
      rw [List.flatMap_eq_nil_iff.2 (by simp)] at hcolumns
      rw [List.flatMap_singleton', List.append_nil] at hvalues
      rw [slots, condition?, Option.map_none, Option.toList_none, List.append_nil]
      refine .other insertWord.ne_placeholder (.other intoWord.ne_placeholder
        (.other tableName.ne_placeholder (.other (by simp) ?_)))
      exact hcolumns.append (.other (by simp) (.other valuesWord.ne_placeholder
        (.other (by simp) hvalues)))
  | update updateWord tableName setWord setList distinct whereWord predicate =>
      have hassignments := Spells.several (fun assigned => [assigned.2]) spells_assignment setList
      rw [← List.map_eq_flatMap] at hassignments
      exact .other updateWord.ne_placeholder (.other tableName.ne_placeholder
        (.other setWord.ne_placeholder (hassignments.append
          (.other whereWord.ne_placeholder (spells_predicate predicate)))))
  | delete deleteWord fromWord tableName whereWord predicate =>
      exact .other deleteWord.ne_placeholder (.other fromWord.ne_placeholder
        (.other tableName.ne_placeholder (.other whereWord.ne_placeholder
          (spells_predicate predicate))))
  | select selectWord fromWord tableName whereClause orderClause limitClause =>
      have htail := (spells_orderClause orderClause).append (spells_limitClause limitClause)
      have hclauses := (spells_whereClause whereClause).append htail
      rw [List.append_nil, List.append_nil] at hclauses
      exact .other selectWord.ne_placeholder (.other (by simp)
        (.other fromWord.ne_placeholder (.other tableName.ne_placeholder hclauses)))
  | @count _ _ _ _ table _ found label filter selectWord countWord labelled fromWord tableName
      countClause =>
      have hclause : Spells found (count table label filter).slots := by
        cases countClause with
        | absent => exact .done
        | present keyword condition =>
            refine .other keyword.ne_placeholder ?_
            cases condition with
            | single predicate => exact spells_predicate predicate
            -- a condition that is no comparison has no slot, so it may hold no question mark
            | combined | other =>
                exact .none (List.count_eq_zero.1 ((Nat.zero_add _).symm.trans hslots))
      exact .other selectWord.ne_placeholder (.other countWord.ne_placeholder
        (.other (by simp) (.other (by simp) (.other (by simp)
          ((spells_label labelled).append (.other fromWord.ne_placeholder
            (.other tableName.ne_placeholder hclause)))))))

/-- The value that the slot at a place is given: a literal its own, and a placeholder the parameter
whose number is the number of placeholders before it. -/
def valueAt? (statement : Statement) (params : List Value) (place : Nat) : Option Value :=
  statement.slots[place]?.bind fun
    | .literal value => some value
    | .placeholder => params[placeholdersIn (statement.slots.take place)]?

def columns : Statement → List String
  | insert _ columns _ => columns
  | update _ assignments _ => assignments.map Prod.fst
  | _ => []

/-- The value that a column is given. -/
def given? (statement : Statement) (params : List Value) (column : String) : Option Value :=
  (statement.columns.idxOf? column).bind (statement.valueAt? params)

/-! ## Bound slots -/

/-- The number of a placeholder is that of the placeholders before it. -/
theorem getElem?_numberSlots (first : Nat) (slots : List Slot) (place : Nat) :
    (numberSlots first slots)[place]? = slots[place]?.map fun
      | .literal value => .literal value
      | .placeholder => .param (first + placeholdersIn (slots.take place)) := by
  induction slots generalizing first place with
  | nil => rfl
  | cons slot slots ih =>
      cases place with
      | zero => cases slot <;> rfl
      | succ place =>
          cases slot with
          | placeholder =>
              rw [numberSlots, List.getElem?_cons_succ, List.getElem?_cons_succ, ih,
                List.take_succ_cons]
              simp [placeholdersIn, Nat.add_assoc, Nat.add_comm 1]
          | literal value =>
              rw [numberSlots, List.getElem?_cons_succ, List.getElem?_cons_succ, ih,
                List.take_succ_cons]
              simp [placeholdersIn]

/-- A placeholder is one more than those before it. -/
theorem placeholdersIn_take_lt {slots : List Slot} {place : Nat}
    (h : slots[place]? = some .placeholder) :
    placeholdersIn (slots.take place) < placeholdersIn slots := by
  obtain ⟨hplace, hslot⟩ := List.getElem?_eq_some_iff.1 h
  have hcount : placeholdersIn slots =
      placeholdersIn (slots.take place) + placeholdersIn (slots.drop place) := by
    rw [placeholdersIn, placeholdersIn, placeholdersIn, ← List.count_append,
      List.take_append_drop]
  rw [hcount, List.drop_eq_getElem_cons hplace, hslot, placeholdersIn, placeholdersIn,
    List.count_cons_self]
  omega

/-- An operand comes to the value of its slot: there are parameters enough for all of them. -/
theorem valueAt?_of_operands {statement : Statement} {params : List Value} {place : Nat}
    {operand : Operand} (hparams : placeholdersIn statement.slots ≤ params.length)
    (h : (statement.numbered statement.condition? params).operands[place]? = some operand) :
    statement.valueAt? params place =
      some ((statement.numbered statement.condition? params).resolve operand) := by
  rw [operands_numbered] at h
  change (numberSlots 0 statement.slots)[place]? = some operand at h
  rw [getElem?_numberSlots, Option.map_eq_some_iff] at h
  obtain ⟨slot, hslot, rfl⟩ := h
  rw [valueAt?, hslot, Option.bind_some]
  cases slot with
  | literal value => rfl
  | placeholder =>
      have hlt := Nat.lt_of_lt_of_le (placeholdersIn_take_lt hslot) hparams
      simp [BoundStatement.resolve, numbered, List.getElem?_eq_getElem hlt]

end Statement

end ClosedSql
