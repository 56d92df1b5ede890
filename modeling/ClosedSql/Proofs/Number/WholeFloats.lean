import ClosedSql.Number.Binary64

/-!
# Whole numbers as floats

Below two to the fifty-third an integer is a float itself. From there on integers are rounded, but
to nothing smaller than that bound, and every float that large is whole. So as long as a whole
number stays below the bound, no greater integer is taken for it, and what is not whole is never
taken for an integer.
-/

namespace ClosedSql.Number

/-! ## Powers of two -/

theorem twoTo_add (a b : Nat) : twoTo (a + b) = twoTo a * twoTo b :=
  Nat.pow_add 2 a b

theorem twoTo_le {a b : Nat} (h : a ≤ b) : twoTo a ≤ twoTo b :=
  Nat.pow_le_pow_right (by decide) h

theorem twoTo_lt {a b : Nat} (h : a < b) : twoTo a < twoTo b :=
  Nat.pow_lt_pow_right (by decide) h

theorem le_log2_iff {n k : Nat} (h : n ≠ 0) : k ≤ n.log2 ↔ twoTo k ≤ n :=
  Nat.le_log2 h

theorem log2_lt_iff {n k : Nat} (h : n ≠ 0) : n.log2 < k ↔ n < twoTo k :=
  Nat.log2_lt h

theorem twoTo_dvd {a b : Nat} (h : a ≤ b) : twoTo a ∣ twoTo b :=
  Nat.pow_dvd_pow 2 h

theorem one_pos : 0 < one :=
  twoTo_pos 1074

theorem twoTo_add_units (n : Nat) : twoTo (n + 1074) = twoTo n * one :=
  twoTo_add n 1074

/-! ## Ranks of one spacing -/

/-- The numbers with one spacing, and the first of the next, are multiples of the spacing. -/
theorem unitsOfRank_add {p doublings steps : Nat} (hlow : twoTo p ≤ steps)
    (hhigh : steps ≤ 2 * twoTo p) :
    unitsOfRank p (doublings * twoTo p + steps) = steps * twoTo doublings := by
  have hpos := twoTo_pos p
  have hrank : ¬doublings * twoTo p + steps < twoTo p := by omega
  rw [unitsOfRank, if_neg hrank]
  rcases Nat.lt_or_eq_of_le hhigh with hlt | rfl
  · have hsplit : doublings * twoTo p + steps = (steps - twoTo p) + (doublings + 1) * twoTo p := by
      rw [Nat.succ_mul]
      omega
    have hmod : steps - twoTo p < twoTo p := by omega
    rw [hsplit, Nat.add_mul_mod_self_right, Nat.add_mul_div_right _ _ hpos, Nat.mod_eq_of_lt hmod,
      Nat.div_eq_of_lt hmod, Nat.add_sub_cancel' hlow, Nat.zero_add, Nat.add_sub_cancel]
  · -- rounding up has reached the next power of two, where the spacing doubles
    have hsplit : doublings * twoTo p + 2 * twoTo p = (doublings + 2) * twoTo p := by
      rw [Nat.add_mul]
    rw [hsplit, Nat.mul_mod_left, Nat.mul_div_cancel _ hpos, Nat.add_zero]
    change twoTo p * twoTo (doublings + 1) = _
    rw [twoTo_succ, Nat.mul_left_comm, Nat.mul_assoc]

/-- How many steps of the spacing around a number of units it is rounded to. -/
theorem nearestRank_eq {p units : Nat} :
    ∃ steps, nearestRank p units 1 = (units.log2 - p) * twoTo p + steps ∧
      units / twoTo (units.log2 - p) ≤ steps ∧ steps ≤ units / twoTo (units.log2 - p) + 1 ∧
      (twoTo (units.log2 - p) ∣ units → steps = units / twoTo (units.log2 - p)) := by
  unfold nearestRank
  simp only [Nat.div_one, Nat.mul_one]
  split
  · next hup =>
      refine ⟨units / twoTo (units.log2 - p) + 1, Nat.add_assoc _ _ _, by omega, Nat.le_refl _, ?_⟩
      intro hdvd
      have hpos := twoTo_pos (units.log2 - p)
      rw [Nat.mod_eq_zero_of_dvd hdvd, Bool.or_eq_true, Bool.and_eq_true, decide_eq_true_eq,
        beq_iff_eq] at hup
      omega
  · exact ⟨_, rfl, Nat.le_refl _, by omega, fun _ => rfl⟩

/-- Where there are bits enough, rounding goes to so many steps of the spacing, at least and at most
as the bits of the format allow; a multiple of the spacing is kept. -/
theorem nearest_spec {p units : Nat} (h : twoTo p ≤ units) :
    ∃ doublings steps, units.log2 = p + doublings ∧ twoTo p ≤ steps ∧ steps ≤ 2 * twoTo p ∧
      nearestRank p units 1 = doublings * twoTo p + steps ∧
      nearestUnits p units 1 = steps * twoTo doublings ∧
      (twoTo doublings ∣ units → nearestUnits p units 1 = units) := by
  have hne : units ≠ 0 := by
    have hpos := twoTo_pos p
    omega
  obtain ⟨doublings, hlog⟩ := Nat.exists_eq_add_of_le ((Nat.le_log2 hne).2 h)
  obtain ⟨steps, hrank, hbelow, habove, hexact⟩ := @nearestRank_eq p units
  rw [hlog, Nat.add_sub_cancel_left] at hrank hbelow habove hexact
  have hpos := twoTo_pos doublings
  -- the quotient by the spacing keeps the leading bits
  have hlow : twoTo p ≤ units / twoTo doublings := by
    rw [Nat.le_div_iff_mul_le hpos, ← twoTo_add, ← hlog]
    exact Nat.log2_self_le hne
  have hhigh : units / twoTo doublings < 2 * twoTo p := by
    rw [Nat.div_lt_iff_lt_mul hpos, ← twoTo_succ, ← twoTo_add, Nat.add_right_comm, ← hlog]
    exact Nat.lt_log2_self
  have hunits : nearestUnits p units 1 = steps * twoTo doublings := by
    rw [nearestUnits, hrank, unitsOfRank_add (by omega) (by omega)]
  refine ⟨doublings, steps, hlog, by omega, by omega, hrank, hunits, ?_⟩
  intro hdvd
  rw [hunits, hexact hdvd, Nat.div_mul_cancel hdvd]

/-! ## Whole numbers -/

namespace Binary64

theorem twoTo_le_mul_one {number : Nat} (h : 0 < number) : twoTo 52 ≤ number * one :=
  Nat.le_trans (twoTo_le (by decide)) (Nat.le_mul_of_pos_left one h)

/-- An integer of so many bits has 1074 more in units, at most. -/
theorem log2_mul_one_lt {number bits : Nat} (hpos : 0 < number) (hlt : number < twoTo bits) :
    (number * one).log2 < bits + 1074 := by
  have hne : number * one ≠ 0 := Nat.ne_of_gt (Nat.mul_pos hpos one_pos)
  rw [log2_lt_iff hne, twoTo_add_units]
  exact Nat.mul_lt_mul_of_pos_right hlt one_pos

theorem nearestRank_lt {number : Nat} (hpos : 0 < number) (hlt : number < twoTo 64) :
    nearestRank 52 (number * one) 1 < finiteRanks := by
  obtain ⟨doublings, steps, hlog, -, hhigh, hrank, -, -⟩ := nearest_spec (twoTo_le_mul_one hpos)
  have hbits := log2_mul_one_lt hpos hlt
  have hspacings : doublings * twoTo 52 ≤ 1085 * twoTo 52 :=
    Nat.mul_le_mul_right _ (by omega)
  have hsteps := twoTo_pos 52
  rw [hrank, finiteRanks]
  omega

/-- Positive integers of 64 bits are finite floats. -/
theorem extent_ofInt {number : Nat} (hpos : 0 < number) (hlt : number < twoTo 64) :
    (ofInt number).extent = some (nearestUnits 52 (number * one) 1 : Int) := by
  have hsign : ¬(number : Int) < 0 := by omega
  rw [ofInt, ofRatio, ofUnits, Int.natAbs_natCast, dif_pos (nearestRank_lt hpos hlt), extent,
    decide_eq_false hsign]
  simp only [signed, nearestUnits, Bool.false_eq_true, if_false]

theorem isFinite_ofInt {number : Nat} (hpos : 0 < number) (hlt : number < twoTo 64) :
    (ofInt number).isFinite = true := by
  rw [ofInt, ofRatio, ofUnits, Int.natAbs_natCast, dif_pos (nearestRank_lt hpos hlt)]
  rfl

/-- Integers below two to the fifty-third are floats themselves. -/
theorem extent_ofInt_of_lt {number : Nat} (hpos : 0 < number) (hlt : number < twoTo 53) :
    (ofInt number).extent = some ((number * one : Nat) : Int) := by
  obtain ⟨doublings, steps, hlog, -, -, -, -, hexact⟩ := nearest_spec (twoTo_le_mul_one hpos)
  have hbits := log2_mul_one_lt hpos hlt
  have hdvd : twoTo doublings ∣ number * one :=
    Nat.dvd_trans (twoTo_dvd (by omega)) (Nat.dvd_mul_left _ _)
  rw [extent_ofInt hpos (Nat.lt_trans hlt (by decide)), hexact hdvd]

/-- From two to the fifty-third on they are rounded, but not to anything smaller. -/
theorem le_extent_ofInt {number : Nat} (hle : twoTo 53 ≤ number) (hlt : number < twoTo 64) :
    ∃ units : Nat, (ofInt number).extent = some (units : Int) ∧ twoTo 53 * one ≤ units ∧
      units < infinityUnits := by
  have hpos := Nat.lt_of_lt_of_le (twoTo_pos 53) hle
  have hne : number * one ≠ 0 := Nat.ne_of_gt (Nat.mul_pos hpos one_pos)
  refine ⟨_, extent_ofInt hpos hlt, ?_⟩
  obtain ⟨doublings, steps, hlog, hlow, hhigh, -, hunits, -⟩ :=
    nearest_spec (twoTo_le_mul_one hpos)
  have hbits := log2_mul_one_lt hpos hlt
  have hleast : 53 + 1074 ≤ (number * one).log2 := by
    rw [le_log2_iff hne, twoTo_add_units]
    exact Nat.mul_le_mul_right _ hle
  rw [hunits]
  constructor
  · have hsame : twoTo 53 * one = twoTo 52 * twoTo 1075 := by
      rw [one, ← twoTo_add, ← twoTo_add]
    calc twoTo 53 * one = twoTo 52 * twoTo 1075 := hsame
      _ ≤ twoTo 52 * twoTo doublings := Nat.mul_le_mul_left _ (twoTo_le (by omega))
      _ ≤ steps * twoTo doublings := Nat.mul_le_mul_right _ hlow
  · have hsame : 2 * twoTo 52 * twoTo 1085 = twoTo 1138 := by
      rw [← twoTo_succ, ← twoTo_add]
    calc steps * twoTo doublings ≤ 2 * twoTo 52 * twoTo 1085 :=
          Nat.mul_le_mul hhigh (twoTo_le (by omega))
      _ = twoTo 1138 := hsame
      _ < infinityUnits := twoTo_lt (by decide)

/-- From two to the fifty-third on every number is whole. -/
theorem unitsOfRank_mod_one {rank : Nat} (h : twoTo 53 * one ≤ unitsOfRank 52 rank) :
    unitsOfRank 52 rank % one = 0 := by
  have hone : twoTo 52 ≤ twoTo 53 * one :=
    Nat.le_trans (twoTo_le (by decide)) (Nat.le_mul_of_pos_right _ one_pos)
  have hrank : ¬rank < twoTo 52 := by
    intro hlt
    rw [unitsOfRank, if_pos hlt] at h
    omega
  rw [unitsOfRank, if_neg hrank] at h ⊢
  apply Nat.mod_eq_zero_of_dvd
  have hsteps : twoTo 52 + rank % twoTo 52 < twoTo 53 := by
    have hmod := Nat.mod_lt rank (twoTo_pos 52)
    have hdouble : twoTo 53 = 2 * twoTo 52 := twoTo_succ 52
    omega
  -- with so few bits, only a spacing above one reaches that far
  have hspacing : 1074 ≤ rank / twoTo 52 - 1 := by
    apply Decidable.byContradiction
    intro hsmall
    have hle : twoTo (rank / twoTo 52 - 1) ≤ one := twoTo_le (by omega)
    have hlt := Nat.mul_lt_mul_of_lt_of_le hsteps hle one_pos
    omega
  exact Nat.dvd_trans (twoTo_dvd hspacing) (Nat.dvd_mul_left _ _)

/-! ## Comparing with integers -/

section

variable {x : Binary64} {number : Nat}

/-- Two floats compare as equal if they lie at the same place. -/
theorem compare?_eq_iff {x y : Binary64} :
    x.compare? y = some .eq ↔ ∃ place, x.extent = some place ∧ y.extent = some place := by
  rw [compare?]
  cases x.extent with
  | none => simp
  | some a =>
      cases y.extent with
      | none => simp
      | some b =>
          simp only [Option.some.injEq, exists_eq_left', Std.compare_eq_iff_eq]
          exact eq_comm

/-- A whole number lies at its integer. -/
theorem extent_of_toInt? {n : Int} (h : x.toInt? = some n) : x.extent = some (n * one) := by
  cases x with
  | nan => cases h
  | infinite negative => cases h
  | finite negative rank =>
      rw [toInt?] at h
      split at h
      · next hwhole =>
          have hunits := Nat.div_mul_cancel (Nat.dvd_of_mod_eq_zero hwhole)
          obtain rfl := Option.some.inj h
          rw [extent, Option.some.injEq]
          cases negative with
          | false =>
              simp only [signed, Bool.false_eq_true, if_false]
              rw [← Int.natCast_mul, hunits]
          | true =>
              simp only [signed, if_true]
              rw [Int.neg_mul, ← Int.natCast_mul, hunits]
      · cases h

/-- Where a positive integer lies as a float: at its own place, or no lower than two to the
fifty-third. -/
theorem extent_ofInt_cases (hpos : 0 < number) (hlt : number < twoTo 64) :
    ∃ units : Nat, (ofInt number).extent = some (units : Int) ∧ units < infinityUnits ∧
      (units = number * one ∨ twoTo 53 * one ≤ units ∧ twoTo 53 ≤ number) := by
  rcases Nat.lt_or_ge number (twoTo 53) with hsmall | hlarge
  · refine ⟨_, extent_ofInt_of_lt hpos hsmall, ?_, .inl rfl⟩
    calc number * one < twoTo 53 * one := (Nat.mul_lt_mul_right one_pos).2 hsmall
      _ = twoTo (53 + 1074) := (twoTo_add_units 53).symm
      _ < infinityUnits := twoTo_lt (by decide)
  · obtain ⟨units, hextent, hle, hfinite⟩ := le_extent_ofInt hlarge hlt
    exact ⟨units, hextent, hfinite, .inr ⟨hle, hlarge⟩⟩

/-- A whole number below two to the fifty-third equals no greater integer. -/
theorem compare?_ofInt_ne_of_lt {n : Int} (hx : x.toInt? = some n) (hn : n < twoTo 53)
    (hpos : 0 < number) (hlt : number < twoTo 64) (hless : n < number) :
    x.compare? (ofInt number) ≠ some .eq := by
  intro heq
  obtain ⟨place, hplace, hnumber⟩ := compare?_eq_iff.1 heq
  obtain ⟨units, hunits, -, hcases⟩ := extent_ofInt_cases hpos hlt
  rw [extent_of_toInt? hx, Option.some.injEq] at hplace
  rw [hunits, Option.some.injEq] at hnumber
  have hone : (0 : Int) < one := Int.natCast_pos.2 one_pos
  have hsame : n * one = units := hplace.trans hnumber.symm
  rcases hcases with hown | ⟨hle, -⟩
  · have hlow := Int.mul_lt_mul_of_pos_right hless hone
    rw [hsame, hown, Int.natCast_mul] at hlow
    exact Int.lt_irrefl _ hlow
  · have hlow := Int.mul_lt_mul_of_pos_right hn hone
    rw [hsame, ← Int.natCast_mul] at hlow
    omega

/-- What is not a whole number equals no positive integer. -/
theorem compare?_ofInt_ne_of_not_whole (hx : x.toInt? = none) (hpos : 0 < number)
    (hlt : number < twoTo 64) : x.compare? (ofInt number) ≠ some .eq := by
  intro heq
  obtain ⟨place, hplace, hnumber⟩ := compare?_eq_iff.1 heq
  obtain ⟨units, hunits, hfinite, hcases⟩ := extent_ofInt_cases hpos hlt
  rw [hunits, Option.some.injEq] at hnumber
  subst hnumber
  cases x with
  | nan => cases hplace
  | infinite negative =>
      rw [extent, Option.some.injEq] at hplace
      cases negative with
      | false =>
          simp only [signed, Bool.false_eq_true, if_false] at hplace
          omega
      | true =>
          simp only [signed, if_true] at hplace
          have hplaces : 0 < infinityUnits := twoTo_pos 2098
          omega
  | finite negative rank =>
      have hfraction : unitsOfRank 52 rank % one ≠ 0 := by
        intro hwhole
        rw [toInt?, if_pos hwhole] at hx
        cases hx
      have hnonzero : unitsOfRank 52 rank ≠ 0 := by
        intro hzero
        rw [hzero, Nat.zero_mod] at hfraction
        exact hfraction rfl
      rw [extent, Option.some.injEq] at hplace
      cases negative with
      | false =>
          simp only [signed, Bool.false_eq_true, if_false] at hplace
          have hsame : unitsOfRank 52 rank = units := by omega
          rw [hsame] at hfraction
          rcases hcases with hown | ⟨hle, -⟩
          · rw [hown] at hfraction
            exact hfraction (Nat.mul_mod_left _ _)
          · rw [← hsame] at hle hfraction
            exact hfraction (unitsOfRank_mod_one hle)
      | true =>
          simp only [signed, if_true] at hplace
          omega

end

end Binary64

end ClosedSql.Number
