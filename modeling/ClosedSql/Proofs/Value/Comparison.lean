import ClosedSql.Value

/-!
# Comparing from both sides

Whether two values compare does not depend on which of them comes first. Where they do, each side
finds the reverse of what the other finds.
-/

namespace ClosedSql

open Number

/-- Two floats compare in the other order as the reverse. -/
theorem Number.Binary64.swap_compare? (x y : Binary64) :
    (x.compare? y).map Ordering.swap = y.compare? x := by
  rw [compare?, compare?]
  cases x.extent with
  | none => cases y.extent <;> rfl
  | some a =>
      cases y.extent with
      | none => rfl
      | some b => exact congrArg some Std.OrientedCmp.eq_swap.symm

namespace Value

/-- Two values compare as floats in the other order as the reverse. -/
theorem swap_compareAsFloats? (a b : Value) :
    (a.compareAsFloats? b).map Ordering.swap = b.compareAsFloats? a := by
  rw [compareAsFloats?, compareAsFloats?]
  cases a.toFloat? with
  | none => cases b.toFloat? <;> rfl
  | some x =>
      cases b.toFloat? with
      | none => rfl
      | some y => exact x.swap_compare? y

/-- Two values compare in the other order as the reverse. -/
theorem swap_compare? (a b : Value) : (a.compare? b).map Ordering.swap = b.compare? a := by
  -- integers, truth values and texts among themselves
  have hexact {α : Type} [Ord α] [Std.OrientedOrd α] (x y : α) :
      (some (compare x y)).map Ordering.swap = some (compare y x) :=
    congrArg some Std.OrientedCmp.eq_swap.symm
  cases a with
  | null => cases b <;> rfl
  | bool x =>
      cases b with
      | null => rfl
      | bool y => exact hexact x y
      | int m => exact hexact (ofBit x).toInt m.toInt
      | float y => exact swap_compareAsFloats? (int (ofBit x)) (float y)
      | text t => exact swap_compareAsFloats? (bool x) (text t)
  | int n =>
      cases b with
      | null => rfl
      | bool y => exact hexact n.toInt (ofBit y).toInt
      | int m => exact hexact n.toInt m.toInt
      | float y => exact swap_compareAsFloats? (int n) (float y)
      | text t => exact swap_compareAsFloats? (int n) (text t)
  | float x =>
      cases b with
      | null => rfl
      | bool y => exact swap_compareAsFloats? (float x) (int (ofBit y))
      | int m => exact swap_compareAsFloats? (float x) (int m)
      | float y => exact swap_compareAsFloats? (float x) (float y)
      | text t => exact swap_compareAsFloats? (float x) (text t)
  | text s =>
      cases b with
      | null => rfl
      | bool y => exact swap_compareAsFloats? (text s) (bool y)
      | int m => exact swap_compareAsFloats? (text s) (int m)
      | float y => exact swap_compareAsFloats? (text s) (float y)
      | text t => exact hexact s t

end Value

end ClosedSql
