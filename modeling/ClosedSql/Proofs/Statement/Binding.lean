import ClosedSql.Proofs.Statement.Terms
import ClosedSql.Statement.Bound

/-!
# Binding parameters

Binding keeps everything a statement says: it numbers the placeholders in the order of the text
and leaves the rest as it is. What it decides is whether the condition of a count is kept and
whether the parameters match.
-/

namespace ClosedSql

def Operand.slot : Operand → Slot
  | .param _ => .placeholder
  | .literal value => .literal value

/-- The number of a bound placeholder. -/
def Operand.number? : Operand → Option Nat
  | .param index => some index
  | .literal _ => none

/-- The operands of a bound statement, in the order of the text. -/
def BoundStatement.operands (bound : BoundStatement) : List Operand :=
  bound.values ++ (bound.predicate.map Condition.operand).toList

namespace Statement

/-- Numbering keeps the slots. -/
theorem map_slot_numberSlots (first : Nat) (slots : List Slot) :
    (numberSlots first slots).map Operand.slot = slots := by
  induction slots generalizing first with
  | nil => rfl
  | cons slot slots ih =>
      cases slot with
      | placeholder => rw [numberSlots, List.map_cons, ih, Operand.slot]
      | literal value => rw [numberSlots, List.map_cons, ih, Operand.slot]

theorem length_numberSlots (first : Nat) (slots : List Slot) :
    (numberSlots first slots).length = slots.length := by
  rw [← List.length_map Operand.slot, map_slot_numberSlots]

/-- The numbers of placeholders go up by one. -/
theorem numbers_numberSlots (first : Nat) (slots : List Slot) :
    (numberSlots first slots).filterMap Operand.number? =
      List.range' first (placeholdersIn slots) := by
  induction slots generalizing first with
  | nil => rfl
  | cons slot slots ih =>
      cases slot with
      | placeholder =>
          have hnumber : (Operand.param first).number? = some first := rfl
          rw [numberSlots, List.filterMap_cons_some hnumber, ih, placeholdersIn, placeholdersIn,
            List.count_cons_self, List.range'_succ]
      | literal value =>
          rw [numberSlots, List.filterMap_cons_none rfl, ih, placeholdersIn, placeholdersIn,
            List.count_cons_of_ne (by simp)]

theorem numberSlots_append (first : Nat) (slots others : List Slot) :
    numberSlots first (slots ++ others) =
      numberSlots first slots ++ numberSlots (first + placeholdersIn slots) others := by
  induction slots generalizing first with
  | nil => rfl
  | cons slot slots ih =>
      cases slot with
      | placeholder =>
          rw [List.cons_append, numberSlots, ih, numberSlots, placeholdersIn, placeholdersIn,
            List.count_cons_self, Nat.add_right_comm, Nat.add_assoc]
          rfl
      | literal value =>
          rw [List.cons_append, numberSlots, ih, numberSlots, placeholdersIn, placeholdersIn,
            List.count_cons_of_ne (by simp)]
          rfl

theorem operand_numberCondition (index : Nat) (condition : Condition Slot) :
    [(numberCondition index condition).operand] = numberSlots index [condition.operand] := by
  rw [numberCondition]
  split
  · next h => rw [h]; rfl
  · next h => rw [h]; rfl

/-- A statement with the condition that is kept and its placeholders numbered in the order of the
text. -/
def numbered (statement : Statement) (kept : Option (Condition Slot)) (params : List Value) :
    BoundStatement where
  shape := statement.shape
  predicate := kept.map (numberCondition (placeholdersIn statement.values))
  params := params
  values := numberSlots 0 statement.values
  order := statement.order?
  limit := statement.limit?
  countLabel := statement.label?

/-- When binding succeeds, and with what. -/
theorem bind_eq_ok_iff_numbered {config : Config} {statement : Statement} {params : List Value}
    {bound : BoundStatement} :
    statement.bind config params = .ok bound ↔
      ∃ kept, statement.keptCondition config.countPolicy = .ok kept ∧
        statement.mismatch? kept.isSome params.length = none ∧
        (!config.literalPredicates && kept.any isLiteral) = false ∧
        statement.numbered kept params = bound := by
  rw [bind, bind_eq_ok_iff]
  refine exists_congr fun kept => and_congr_right fun _ => ?_
  cases hmismatch : statement.mismatch? kept.isSome params.length with
  | some found =>
      constructor
      · intro h
        cases h
      · rintro ⟨h, -⟩
        cases h
  | none =>
      cases hliteral : !config.literalPredicates && kept.any isLiteral with
      | true =>
          constructor
          · intro h
            cases h
          · rintro ⟨-, h, -⟩
            cases h
      | false =>
          constructor
          · intro h
            cases h
            exact ⟨rfl, rfl, rfl⟩
          · rintro ⟨-, -, rfl⟩
            rfl

/-- The operands of a numbered statement are its slots, numbered from left to right. -/
theorem operands_numbered (statement : Statement) (kept : Option (Condition Slot))
    (params : List Value) :
    (statement.numbered kept params).operands =
      numberSlots 0 (statement.values ++ (kept.map Condition.operand).toList) := by
  rw [numberSlots_append, Nat.zero_add, BoundStatement.operands]
  refine congrArg (_ ++ ·) ?_
  rw [numbered]
  cases kept with
  | none => rfl
  | some condition => exact operand_numberCondition _ condition

end Statement

/-- A text is bound exactly if it is read and what is read is bound. -/
theorem Config.bind_eq_ok_iff {config : Config} {text : String} {params : List Value}
    {bound : BoundStatement} :
    config.bind text params = .ok bound ↔
      ∃ statement, Statement.ofText (config.normalize text) = .ok statement ∧
        statement.bind config params = .ok bound := by
  rw [Config.bind]
  cases Statement.ofText (config.normalize text) with
  | error reason => simp
  | ok statement => simp

end ClosedSql
