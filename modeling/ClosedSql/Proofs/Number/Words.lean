import ClosedSql.Proofs.Number.WholeFloats

/-!
# Integers of so many bits

What fits in some bits fits in more, and an integer that fits in 64 is kept by every way of making
one of 64 bits of it. Clamping moves an integer beyond them to the end on its side, which fits in no
fewer bits either.
-/

namespace ClosedSql.Number

theorem fitsBits_iff {bits : Nat} {n : Int} :
    fitsBits bits n = true ↔ -(twoTo (bits - 1) : Int) ≤ n ∧ n < twoTo (bits - 1) := by
  simp [fitsBits]

theorem twoTo_sixtyThree : twoTo (64 - 1) = 9223372036854775808 := by
  decide

theorem fitsBits_toInt (n : Int64) : fitsBits 64 n.toInt = true := by
  rw [fitsBits_iff, twoTo_sixtyThree]
  exact ⟨n.le_toInt, n.toInt_lt⟩

/-- An integer that fits is not clamped. -/
theorem toInt_ofIntClamp_of_fits {n : Int} (h : fitsBits 64 n = true) :
    (Int64.ofIntClamp n).toInt = n := by
  rw [fitsBits_iff, twoTo_sixtyThree] at h
  refine Int64.toInt_ofIntClamp ?_ ?_
  · rw [Int64.toInt_minValue]
    omega
  · rw [Int64.toInt_maxValue]
    omega

/-- What fits in some bits fits in more. -/
theorem fitsBits_mono {bits more : Nat} (h : bits ≤ more) {n : Int} (hn : fitsBits bits n = true) :
    fitsBits more n = true := by
  have hroom : (twoTo (bits - 1) : Int) ≤ twoTo (more - 1) := by
    exact_mod_cast twoTo_le (a := bits - 1) (b := more - 1) (by omega)
  rw [fitsBits_iff] at hn ⊢
  omega

theorem beyond_of_not_fits {n : Int} (h : fitsBits 64 n = false) :
    ¬(-9223372036854775808 ≤ n ∧ n < 9223372036854775808) := by
  intro hbounds
  have hfits : fitsBits 64 n = true := fitsBits_iff.2 (by rwa [twoTo_sixtyThree])
  rw [h] at hfits
  cases hfits

/-- Beyond 64 bits, an integer is moved to the end on its side. -/
theorem toInt_ofIntClamp_of_not_fits {n : Int} (h : fitsBits 64 n = false) :
    (Int64.ofIntClamp n).toInt = if n < 0 then -9223372036854775808 else 9223372036854775807 := by
  have hbeyond := beyond_of_not_fits h
  have hleast : Int64.minValue.toInt = -9223372036854775808 := Int64.toInt_minValue
  have hmost : Int64.maxValue.toInt = 9223372036854775807 := Int64.toInt_maxValue
  rw [Int64.ofIntClamp]
  split
  · next hlow =>
      rw [hleast] at hlow
      rw [dif_neg (by rw [hmost]; omega), if_neg (by omega), hmost]
  · next hlow =>
      rw [hleast] at hlow
      rw [if_pos (by omega), hleast]

/-- What lies beyond 64 bits fits in no fewer, before it is moved or after. -/
theorem not_fitsBits_ofIntClamp {n : Int} (h : fitsBits 64 n = false) {bits : Nat}
    (hbits : bits < 64) :
    fitsBits bits n = false ∧ fitsBits bits (Int64.ofIntClamp n).toInt = false := by
  have hroom : (twoTo (bits - 1) : Int) ≤ 2 ^ 62 := by
    exact_mod_cast twoTo_le (a := bits - 1) (b := 62) (by omega)
  have hbeyond := beyond_of_not_fits h
  rw [toInt_ofIntClamp_of_not_fits h, ← Bool.not_eq_true, ← Bool.not_eq_true, fitsBits_iff,
    fitsBits_iff]
  constructor
  · omega
  · split <;> omega

theorem toInt_ofInt_of_fits {n : Int} (h : fitsBits 64 n = true) : (Int64.ofInt n).toInt = n :=
  toInt_of_int64? (if_pos h)

end ClosedSql.Number
