import ClosedSql.Filter
import ClosedSql.Proofs.Value.Comparison

/-!
# Filters from the other side

A filter compares the value of a row with its operand. The operand compared with the value of the
row comes out the other way about, so a filter accepts a value if and only if the filter with the
mirrored operator and that value for its operand accepts the operand.
-/

namespace ClosedSql

/-- The operator for the same two operands in the other order. -/
def CompareOp.mirrored : CompareOp → CompareOp
  | eq => eq
  | ne => ne
  | lt => gt
  | le => ge
  | gt => lt
  | ge => le

/-- An operator accepts the reverse of what its mirror image accepts. -/
theorem CompareOp.holds_swap (op : CompareOp) (order : Ordering) :
    op.holds order.swap = op.mirrored.holds order := by
  cases op <;> cases order <;> rfl

namespace Filter

variable {column : String} {row : Record}

/-- A filter asks its operator about the value of the row, if the two compare. -/
theorem holds_eq_any {value : Value} (h : row.get? column = some value) (op : CompareOp)
    (operand : Value) :
    Filter.holds ⟨column, op, operand⟩ row = (value.compare? operand).any op.holds := by
  rw [holds, h, Option.bind_some]
  cases value.compare? operand with
  | none => rfl
  | some order => rfl

/-- The other filter has the value of the row for its operand, and the other row the operand for its
value. -/
theorem holds_mirrored {column' : String} {row' : Record} {a b : Value}
    (hrow : row.get? column = some a) (hrow' : row'.get? column' = some b) (op : CompareOp) :
    Filter.holds ⟨column, op, b⟩ row = Filter.holds ⟨column', op.mirrored, a⟩ row' := by
  calc Filter.holds ⟨column, op, b⟩ row = (a.compare? b).any op.holds := holds_eq_any hrow op b
    _ = ((b.compare? a).map Ordering.swap).any op.holds := by rw [b.swap_compare? a]
    _ = (b.compare? a).any op.mirrored.holds := by
        simp only [Option.any_map, CompareOp.holds_swap]
    _ = Filter.holds ⟨column', op.mirrored, a⟩ row' := (holds_eq_any hrow' op.mirrored a).symm

/-- A row is below a value just if the value compares as greater. -/
theorem holds_lt_iff {operand : Value} :
    Filter.holds ⟨column, .lt, operand⟩ row = true ↔
      ∃ value, row.get? column = some value ∧ operand.compare? value = some .gt := by
  cases hrow : row.get? column with
  | none => simp [holds, hrow]
  | some value =>
      rw [holds_eq_any hrow .lt operand, ← operand.swap_compare? value]
      cases hcompare : operand.compare? value with
      | none => simp [hcompare]
      | some order => cases order <;> simp [hcompare, CompareOp.holds]

end Filter

namespace Value

theorem compare?_eq_some_swap_iff (a b : Value) (order : Ordering) :
    a.compare? b = some order ↔ b.compare? a = some order.swap := by
  rw [← a.swap_compare? b]
  constructor
  · intro h
    rw [h, Option.map_some]
  · intro h
    obtain ⟨found, hfound, hswap⟩ := Option.map_eq_some_iff.1 h
    rw [hfound, Ordering.swap_inj.1 hswap]

/-- Two values compare from both sides or from none, and each side finds the reverse of what the
other finds. So a row has less than an operand in a column if and only if the operand compares as
greater, and filters whose operands and operators are mirrored agree. -/
theorem compare?_mirrored (a b : Value) :
    (a.compare? b = none ↔ b.compare? a = none) ∧
      (∀ order, a.compare? b = some order ↔ b.compare? a = some order.swap) ∧
      (∀ column row, Filter.holds ⟨column, .lt, b⟩ row = true ↔
        ∃ value, row.get? column = some value ∧ b.compare? value = some .gt) ∧
      ∀ {column column' : String} {row row' : Record}, row.get? column = some a →
        row'.get? column' = some b → ∀ op,
          Filter.holds ⟨column, op, b⟩ row = Filter.holds ⟨column', op.mirrored, a⟩ row' := by
  refine ⟨?_, compare?_eq_some_swap_iff a b, fun _ _ => Filter.holds_lt_iff, Filter.holds_mirrored⟩
  rw [← a.swap_compare? b, Option.map_eq_none_iff]

/-- A text with blanks around a number and a float, each the operand for the other. -/
theorem compare?_mirrored_textAndFloat :
    (NameMap.ofList [("rank", text " 12 ")]).get? "rank" = some (text " 12 ") ∧
      (NameMap.ofList [("bound", float (.ofInt 12))]).get? "bound" = some (float (.ofInt 12)) ∧
      Filter.holds ⟨"rank", .le, float (.ofInt 12)⟩ (.ofList [("rank", text " 12 ")]) =
        Filter.holds ⟨"bound", .ge, text " 12 "⟩ (.ofList [("bound", float (.ofInt 12))]) ∧
      Filter.holds ⟨"bound", .ge, text " 12 "⟩ (.ofList [("bound", float (.ofInt 12))]) = true := by
  have hrank : (NameMap.ofList [("rank", text " 12 ")]).get? "rank" = some (text " 12 ") := by
    decide +kernel
  have hbound : (NameMap.ofList [("bound", float (.ofInt 12))]).get? "bound" =
      some (float (.ofInt 12)) := by
    decide +kernel
  exact ⟨hrank, hbound, (compare?_mirrored _ _).2.2.2 hrank hbound .le, by decide +kernel⟩

end Value

end ClosedSql
