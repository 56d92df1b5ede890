import ClosedSql.Proofs.Number.WholeFloats

/-!
# Rounding and order

Rounding to a float keeps the order of integers, though two that differ may become the same float.
An integer next to zero or one becomes neither of them.
-/

namespace ClosedSql.Number

/-! ## Ranks -/

/-- Of two numbers with equally many bits, the smaller one has no higher rank. -/
theorem nearestRank_le_of_log2_eq {p a b : Nat} (h : a ≤ b) (hlog : a.log2 = b.log2) :
    nearestRank p a 1 ≤ nearestRank p b 1 := by
  unfold nearestRank
  simp only [Nat.div_one, Nat.mul_one, hlog]
  generalize twoTo (b.log2 - p) = spacing
  generalize (b.log2 - p) * twoTo p = before
  have hquotients : a / spacing ≤ b / spacing := Nat.div_le_div_right h
  have ha := Nat.div_add_mod a spacing
  have hb := Nat.div_add_mod b spacing
  rcases Nat.lt_or_eq_of_le hquotients with hlt | heq
  · -- a whole step apart, so rounding up the one does not pass the other
    split <;> split <;> omega
  · -- the same step, so what rounds up the smaller one rounds up the greater one
    rw [heq] at ha ⊢
    generalize spacing * (b / spacing) = floor at ha hb
    simp only [Bool.or_eq_true, Bool.and_eq_true, decide_eq_true_eq, beq_iff_eq]
    split <;> split <;> omega

/-- Rounding keeps the order of numbers that have bits enough. -/
theorem nearestUnits_mono {p a b : Nat} (hbits : twoTo p ≤ a) (h : a ≤ b) :
    nearestUnits p a 1 ≤ nearestUnits p b 1 := by
  have hpos := twoTo_pos p
  obtain ⟨d, s, hlog, -, hhigh, hrank, hunits, -⟩ := nearest_spec hbits
  obtain ⟨d', s', hlog', hlow', -, hrank', hunits', -⟩ := nearest_spec (Nat.le_trans hbits h)
  have hlogs : a.log2 ≤ b.log2 := by
    rw [le_log2_iff (by omega)]
    exact Nat.le_trans ((le_log2_iff (by omega)).1 (Nat.le_refl _)) h
  rw [hunits, hunits']
  rcases Nat.lt_or_eq_of_le hlogs with hlt | heq
  · calc s * twoTo d ≤ 2 * twoTo p * twoTo d := Nat.mul_le_mul_right _ hhigh
      _ = twoTo p * twoTo (d + 1) := by rw [twoTo_succ, Nat.mul_left_comm, Nat.mul_assoc]
      _ ≤ twoTo p * twoTo d' := Nat.mul_le_mul_left _ (twoTo_le (by omega))
      _ ≤ s' * twoTo d' := Nat.mul_le_mul_right _ hlow'
  · have hranks := nearestRank_le_of_log2_eq (p := p) h heq
    obtain rfl : d = d' := by omega
    rw [hrank, hrank'] at hranks
    exact Nat.mul_le_mul_right _ (by omega)

/-! ## Integers -/

namespace Binary64

def roundedPlace (n : Int) : Int :=
  signed (n < 0) (nearestUnits 52 (n.natAbs * one) 1)

/-- Rounding to a float keeps the order of integers. -/
theorem nearestUnits_mul_one_mono {a b : Nat} (h : a ≤ b) :
    nearestUnits 52 (a * one) 1 ≤ nearestUnits 52 (b * one) 1 := by
  rcases Nat.eq_zero_or_pos a with rfl | hpos
  · have hzero : nearestUnits 52 0 1 = 0 := by decide
    rw [Nat.zero_mul, hzero]
    exact Nat.zero_le _
  · exact nearestUnits_mono (twoTo_le_mul_one hpos) (Nat.mul_le_mul_right one h)

theorem roundedPlace_of_neg {n : Int} (h : n < 0) :
    roundedPlace n = -(nearestUnits 52 (n.natAbs * one) 1 : Int) := by
  simp only [roundedPlace, h, decide_true, signed, if_true]

theorem roundedPlace_of_nonneg {n : Int} (h : 0 ≤ n) :
    roundedPlace n = (nearestUnits 52 (n.natAbs * one) 1 : Int) := by
  simp only [roundedPlace, Int.not_lt.2 h, decide_false, signed, Bool.false_eq_true, if_false]

/-- A float lies where rounding puts it. -/
theorem extent_ofUnits {negative : Bool} {units : Nat} (h : nearestRank 52 units 1 < finiteRanks) :
    (ofUnits negative units 1).extent = some (signed negative (nearestUnits 52 units 1)) := by
  rw [ofUnits, dif_pos h, extent, nearestUnits]

/-- An integer of sixty-four bits lies where rounding puts it. -/
theorem extent_ofInt_eq {n : Int} (h : n.natAbs < twoTo 64) :
    (ofInt n).extent = some (roundedPlace n) := by
  have hrank : nearestRank 52 (n.natAbs * one) 1 < finiteRanks := by
    rcases Nat.eq_zero_or_pos n.natAbs with hzero | hpos
    · rw [hzero, Nat.zero_mul]
      decide
    · exact nearestRank_lt hpos h
  rw [ofInt, ofRatio, extent_ofUnits hrank, roundedPlace]

/-- No integer is rounded to a place above that of a greater one. -/
theorem roundedPlace_mono {m n : Int} (h : m ≤ n) : roundedPlace m ≤ roundedPlace n := by
  rcases Int.lt_or_le m 0 with hm | hm
  · rw [roundedPlace_of_neg hm]
    rcases Int.lt_or_le n 0 with hn | hn
    · have hsizes := nearestUnits_mul_one_mono (show n.natAbs ≤ m.natAbs by omega)
      rw [roundedPlace_of_neg hn]
      omega
    · rw [roundedPlace_of_nonneg hn]
      omega
  · have hsizes := nearestUnits_mul_one_mono (show m.natAbs ≤ n.natAbs by omega)
    rw [roundedPlace_of_nonneg hm, roundedPlace_of_nonneg (by omega)]
    omega

/-- A small integer keeps its place. -/
theorem roundedPlace_of_lt {n : Int} (h : n.natAbs < twoTo 53) : roundedPlace n = n * one := by
  have hsize : nearestUnits 52 (n.natAbs * one) 1 = n.natAbs * one := by
    rcases Nat.eq_zero_or_pos n.natAbs with hzero | hpos
    · rw [hzero, Nat.zero_mul]
      decide
    · have hbound := Nat.lt_trans h (show twoTo 53 < twoTo 64 by decide)
      have hexact := extent_ofInt_of_lt hpos h
      rw [extent_ofInt hpos hbound, Option.some.injEq] at hexact
      omega
  rcases Int.lt_or_le n 0 with hneg | hnonneg
  · have habs : -(n.natAbs : Int) = n := by omega
    rw [roundedPlace_of_neg hneg, hsize, Int.natCast_mul, ← Int.neg_mul, habs]
  · have habs : (n.natAbs : Int) = n := by omega
    rw [roundedPlace_of_nonneg hnonneg, hsize, Int.natCast_mul, habs]

/-- Of two different integers, one of which is zero or one, the places differ as well. -/
theorem roundedPlace_lt {m n : Int} (h : m < n) (hbit : m ∈ [0, 1] ∨ n ∈ [0, 1]) :
    roundedPlace m < roundedPlace n := by
  have hone : (0 : Int) < one := Int.natCast_pos.2 one_pos
  have hbits : (2 : Nat) < twoTo 53 := by decide
  have hstep : ∀ k : Int, k.natAbs ≤ 1 → (k + 1).natAbs ≤ 2 →
      roundedPlace k < roundedPlace (k + 1) := by
    intro k hk hnext
    rw [roundedPlace_of_lt (by omega), roundedPlace_of_lt (by omega), Int.add_mul]
    omega
  rcases hbit with hbit | hbit
  · simp only [List.mem_cons, List.not_mem_nil, or_false] at hbit
    exact Int.lt_of_lt_of_le (hstep m (by omega) (by omega)) (roundedPlace_mono (by omega))
  · simp only [List.mem_cons, List.not_mem_nil, or_false] at hbit
    have hlast := hstep (n - 1) (by omega) (by omega)
    rw [Int.sub_add_cancel] at hlast
    exact Int.lt_of_le_of_lt (roundedPlace_mono (by omega)) hlast

end Binary64

end ClosedSql.Number
