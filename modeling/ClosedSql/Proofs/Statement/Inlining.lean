import ClosedSql.Proofs.Statement.Holes
import ClosedSql.Proofs.Statement.Parameters

/-!
# Literals in the place of parameters

A literal that stands where a question mark stood takes no parameter. The statement is bound as
before, with the literal for the operand; the placeholders behind it are numbered down by one, since
the parameter of the question mark is no longer among theirs.
-/

namespace ClosedSql

open Grammar

/-- An operand where a literal stands for the parameter of a number. -/
def Operand.inlined (index : Nat) (value : Value) : Operand → Operand
  | .param number =>
      if number = index then .literal value
      else if number < index then .param number
      else .param (number - 1)
  | .literal other => .literal other

/-- A bound statement where a literal stands for the parameter of a number, which is left out. -/
def BoundStatement.inlined (bound : BoundStatement) (index : Nat) (value : Value) :
    BoundStatement where
  shape := bound.shape
  predicate := bound.predicate.map fun condition =>
    ⟨condition.column, condition.op, condition.operand.inlined index value⟩
  params := bound.params.eraseIdx index
  values := bound.values.map (Operand.inlined index value)
  order := bound.order
  limit := bound.limit
  countLabel := bound.countLabel

namespace Statement

/-! ## Numbers -/

variable {index : Nat} (value : Value)

/-- The numbers before the one that is left out stay. -/
theorem inlined_numberSlots_of_le {first : Nat} {slots : List Slot}
    (h : first + placeholdersIn slots ≤ index) :
    (numberSlots first slots).map (Operand.inlined index value) = numberSlots first slots := by
  induction slots generalizing first with
  | nil => rfl
  | cons slot slots ih =>
      cases slot with
      | placeholder =>
          rw [placeholdersIn, List.count_cons_self] at h
          rw [numberSlots, List.map_cons, ih (by rw [placeholdersIn]; omega), Operand.inlined,
            if_neg (by omega), if_pos (by omega)]
      | literal other =>
          rw [placeholdersIn, List.count_cons_of_ne (by simp)] at h
          rw [numberSlots, List.map_cons, ih h]
          rfl

/-- The numbers behind the one that is left out go down by one. -/
theorem inlined_numberSlots_succ {first : Nat} (h : index ≤ first) (slots : List Slot) :
    (numberSlots (first + 1) slots).map (Operand.inlined index value) =
      numberSlots first slots := by
  induction slots generalizing first with
  | nil => rfl
  | cons slot slots ih =>
      cases slot with
      | placeholder =>
          rw [numberSlots, List.map_cons, ih (by omega), Operand.inlined, if_neg (by omega),
            if_neg (by omega)]
          rfl
      | literal other =>
          rw [numberSlots, List.map_cons, ih h]
          rfl

/-- A literal in place of a placeholder lowers the numbers behind it by one. -/
theorem inlined_numberSlots (first : Nat) (earlier later : List Slot) :
    (numberSlots first (earlier ++ .placeholder :: later)).map
        (Operand.inlined (first + placeholdersIn earlier) value) =
      numberSlots first (earlier ++ .literal value :: later) := by
  have hself : Operand.inlined (first + placeholdersIn earlier) value
      (.param (first + placeholdersIn earlier)) = .literal value := if_pos rfl
  rw [numberSlots_append, numberSlots_append, List.map_append,
    inlined_numberSlots_of_le value (Nat.le_refl _), numberSlots, List.map_cons, hself,
    inlined_numberSlots_succ value (Nat.le_refl _)]
  rfl

/-- The placeholder of a condition behind a hole goes down by one with the values before it. -/
theorem inlined_numberCondition_succ {first : Nat} (h : index ≤ first)
    (condition : Condition Slot) :
    ⟨(numberCondition (first + 1) condition).column, (numberCondition (first + 1) condition).op,
      (numberCondition (first + 1) condition).operand.inlined index value⟩ =
        numberCondition first condition := by
  obtain ⟨column, op, slot⟩ := condition
  cases slot with
  | placeholder =>
      have hnumber : Operand.inlined index value (.param (first + 1)) = .param first := by
        rw [Operand.inlined, if_neg (by omega), if_neg (by omega), Nat.add_sub_cancel]
      exact congrArg (Condition.mk column op) hnumber
  | literal other => rfl

end Statement

/-! ## Places -/

namespace Grammar.Place

open Statement

variable {fill : Slot → Statement} {earlier : List Slot} (h : Place fill earlier)

include h

theorem keptCondition (slot : Slot) :
    (fill slot).keptCondition .apply = .ok (fill slot).condition? := by
  cases h <;> rfl

/-- The slots of a statement are those before a place, the slot there, and the others. -/
theorem exists_slots : ∃ later, ∀ slot, (fill slot).slots = earlier ++ slot :: later := by
  cases h with
  | value table columns _ later => exact ⟨later, fun slot => List.append_nil _⟩
  | setting table earlier column later condition =>
      exact ⟨later.map Prod.snd ++ [condition.operand], fun slot => by
        simp [slots, values, condition?]⟩
  | change | deletion | selection | count => exact ⟨[], fun slot => rfl⟩

theorem placeholders_slots (slot : Slot) :
    (fill slot).placeholders = placeholdersIn (fill slot).slots := by
  rcases keptCondition_cases (h.keptCondition slot) with ⟨-, hall⟩ | ⟨hpolicy, -⟩
  · exact hall
  · cases hpolicy

/-- A literal makes one placeholder less. -/
theorem placeholders_eq (value : Value) :
    (fill .placeholder).placeholders = (fill (.literal value)).placeholders + 1 := by
  obtain ⟨later, hslots⟩ := h.exists_slots
  rw [h.placeholders_slots, h.placeholders_slots, hslots, hslots, placeholdersIn, placeholdersIn,
    List.count_append, List.count_append, List.count_cons_self, List.count_cons_of_ne (by simp),
    Nat.add_assoc]

/-- With one parameter less they match as before. -/
theorem mismatch?_literal (value : Value) {params : Nat}
    (hmatch : (fill .placeholder).mismatch? (fill .placeholder).condition?.isSome (params + 1) =
      none) :
    (fill (.literal value)).mismatch? (fill (.literal value)).condition?.isSome params = none := by
  have hcount := h.placeholders_eq value
  cases h with
  | value table columns earlier later =>
      simp only [mismatch?, hcount, List.length_append, List.length_cons] at hmatch ⊢
      split at hmatch
      · cases hmatch
      · next hlength => rw [if_neg hlength]; simpa using hmatch
  | setting | change | deletion =>
      simpa [mismatch?, hcount] using hmatch
  | selection => simpa [mismatch?, hcount] using hmatch
  | count => simpa [mismatch?, hcount, condition?] using hmatch

/-- What is bound is the same up to the operand that the literal stands for. -/
theorem numbered_literal (params : List Value) (value : Value) :
    (fill (.literal value)).numbered (fill (.literal value)).condition?
        (params.eraseIdx (placeholdersIn earlier)) =
      ((fill .placeholder).numbered (fill .placeholder).condition? params).inlined
        (placeholdersIn earlier) value := by
  have hcompared : ∀ (index : Nat) (column : String) (op : CompareOp),
      numberCondition index ⟨column, op, .literal value⟩ =
        ⟨column, op, (Operand.param index).inlined index value⟩ := by
    intro index column op
    rw [Operand.inlined, if_pos rfl]
    rfl
  have hkept : ∀ slots : List Slot, (numberSlots 0 slots).map
      (Operand.inlined (placeholdersIn slots) value) = numberSlots 0 slots :=
    fun slots => inlined_numberSlots_of_le value (by omega)
  have hput : ∀ earlier later : List Slot, (numberSlots 0 (earlier ++ .placeholder :: later)).map
      (Operand.inlined (placeholdersIn earlier) value) =
        numberSlots 0 (earlier ++ .literal value :: later) := by
    intro earlier later
    have hslots := inlined_numberSlots value 0 earlier later
    rwa [Nat.zero_add] at hslots
  cases h with
  | value table columns earlier later =>
      simp only [numbered, BoundStatement.inlined, values, condition?, Option.map_none, hput]
      rfl
  | setting table earlier column later condition =>
      -- the condition comes behind the values, so its placeholder moves as well
      have hcount : placeholdersIn (earlier.map Prod.snd ++ .placeholder :: later.map Prod.snd) =
          placeholdersIn (earlier.map Prod.snd ++ .literal value :: later.map Prod.snd) + 1 := by
        simp [placeholdersIn, Nat.add_assoc]
      have hbefore : placeholdersIn (earlier.map Prod.snd) ≤
          placeholdersIn (earlier.map Prod.snd ++ .literal value :: later.map Prod.snd) := by
        simp [placeholdersIn]
      simp only [numbered, BoundStatement.inlined, values, condition?, Option.map_some,
        List.map_append, List.map_cons, hput, hcount, inlined_numberCondition_succ value hbefore]
      simp [shape, order?, limit?, label?]
  | change table assignments column op =>
      simp only [numbered, BoundStatement.inlined, values, condition?, Option.map_some, hkept,
        hcompared]
      rfl
  | deletion table column op =>
      simp only [numbered, BoundStatement.inlined, values, condition?, Option.map_some,
        hcompared]
      rfl
  | selection table column op =>
      simp only [numbered, BoundStatement.inlined, values, condition?, Option.map_some,
        hcompared]
      rfl
  | count table label column op =>
      simp only [numbered, BoundStatement.inlined, values, condition?, Option.map_some,
        hcompared]
      rfl

end Grammar.Place

/-- A literal in a hole takes the parameter out that the question mark in its place is bound to. -/
theorem Statement.bind_literal {front back : List Token} {fill : Slot → Statement}
    (h : ValueHole front back fill) {params : List Value} {bound : BoundStatement}
    (hbind : (fill .placeholder).bind {} params = .ok bound) (value : Value) :
    .param (front.count .placeholder) ∈ bound.operands ∧
      (fill (.literal value)).bind {} (params.eraseIdx (front.count .placeholder)) =
        .ok (bound.inlined (front.count .placeholder) value) := by
  obtain ⟨earlier, hplace, hspells⟩ := h.exists_place
  obtain ⟨later, hslots⟩ := hplace.exists_slots
  rw [hspells.count_placeholder]
  obtain ⟨kept, hkept, hmatch, -, rfl⟩ := bind_eq_ok_iff_numbered.1 hbind
  obtain rfl : (fill .placeholder).condition? = kept :=
    Except.ok.inj ((hplace.keptCondition .placeholder).symm.trans hkept)
  constructor
  · have hmem : ∀ slots : List Slot, slots = earlier ++ .placeholder :: later →
        .param (placeholdersIn earlier) ∈ numberSlots 0 slots := by
      rintro _ rfl
      rw [numberSlots_append, Nat.zero_add, numberSlots]
      exact List.mem_append_right _ List.mem_cons_self
    rw [operands_numbered]
    exact hmem _ (hslots .placeholder)
  · refine bind_eq_ok_iff_numbered.2 ⟨_, hplace.keptCondition _, ?_, rfl,
      hplace.numbered_literal params value⟩
    have hparams : placeholdersIn earlier < params.length := by
      have hall := placeholdersIn_slots_le (hplace.placeholders_slots .placeholder) hmatch
      have hslot : placeholdersIn (fill .placeholder).slots =
          placeholdersIn earlier + (placeholdersIn later + 1) := by
        rw [hslots, placeholdersIn, List.count_append, List.count_cons_self]
        rfl
      omega
    have hlength : params.length =
        (params.eraseIdx (placeholdersIn earlier)).length + 1 := by
      rw [List.length_eraseIdx_of_lt hparams]
      omega
    rw [hlength] at hmatch
    exact hplace.mismatch?_literal value hmatch

end ClosedSql
