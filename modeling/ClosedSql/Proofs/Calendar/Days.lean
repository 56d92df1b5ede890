import ClosedSql.Calendar.Date

/-!
# Days and their dates

Every day has a date of the calendar, and the date has the number of that day again. A day lies in
exactly one year that begins in March; which one is found by a quotient, whose value at the first
and at the last day of each of the four hundred years of an era is a finite matter. In between the
quotient cannot fall.
-/

namespace ClosedSql.Calendar.Date

/-- The year of a day of an era, counted from zero. -/
def yearOfEra (day : Int) : Int :=
  (day - day / 1460 + day / 36524 - day / 146096) / 365

/-- The date of a day of a year that begins in March, counted from zero. -/
def ofYearDay (year day : Int) : Date :=
  let month := (5 * day + 2) / 153
  let inMonth := (day - daysToMonth month + 1).toNat
  if month < 10 then ⟨year, (month + 3).toNat, inMonth⟩
  else ⟨year + 1, (month - 9).toNat, inMonth⟩

/-! ## The year of a day -/

theorem yearOfEra_mono {a b : Int} (h : a ≤ b) : yearOfEra a ≤ yearOfEra b := by
  -- the second quotient is a fourth of the first
  have hyears : a - a / 1460 ≤ b - b / 1460 := by omega
  have hcenturies : a / 36524 - a / 146096 ≤ b / 36524 - b / 146096 := by omega
  unfold yearOfEra
  omega

/-- At the ends of the years of an era. -/
theorem yearOfEra_bounds : ∀ year : Fin 400,
    yearOfEra (daysBefore year) = year ∧ yearOfEra (daysBefore (year + 1) - 1) = year := by
  decide +kernel

/-- A day lies in its year: not before the first day of it, and before the first day of the next. -/
theorem yearOfEra_spec {day : Int} (hlow : 0 ≤ day) (hhigh : day < 146097) :
    daysBefore (yearOfEra day) ≤ day ∧ day < daysBefore (yearOfEra day + 1) := by
  have hfirst : yearOfEra 0 ≤ yearOfEra day := yearOfEra_mono hlow
  have hlast : yearOfEra day ≤ yearOfEra 146096 := yearOfEra_mono (by omega)
  have hzero : yearOfEra 0 = 0 := by decide
  have hend : yearOfEra 146096 = 399 := by decide
  obtain ⟨year, hyear⟩ := Int.eq_ofNat_of_zero_le (show 0 ≤ yearOfEra day by omega)
  have hbound : year < 400 := by omega
  rw [hyear]
  constructor
  · -- a day before the year would have an earlier one
    apply Int.not_lt.1
    intro hbefore
    cases year with
    | zero =>
        have hstart : daysBefore ((0 : Nat) : Int) = 0 := rfl
        omega
    | succ year =>
        have hmono := yearOfEra_mono (show day ≤ daysBefore ((year : Int) + 1) - 1 by
          rw [Int.natCast_succ] at hbefore
          omega)
        have hprevious := (yearOfEra_bounds ⟨year, by omega⟩).2
        simp only at hprevious
        omega
  · -- and a day after it a later one
    apply Int.not_le.1
    intro hafter
    by_cases hnext : year + 1 < 400
    · have hmono := yearOfEra_mono hafter
      have hfollowing := (yearOfEra_bounds ⟨year + 1, hnext⟩).1
      simp only [Int.natCast_succ] at hfollowing
      omega
    · obtain rfl : year = 399 := by omega
      have hera : daysBefore (((399 : Nat) : Int) + 1) = 146097 := rfl
      omega

/-- The calendar repeats every four hundred years. -/
theorem daysBefore_add_eras (year era : Int) :
    daysBefore (year + 400 * era) = daysBefore year + 146097 * era := by
  unfold daysBefore
  omega

/-- Every day is a day of one year that begins in March, and its date is made from the two. -/
theorem exists_ofYearDay (day : Int) :
    ∃ year inYear, ofDay day = ofYearDay year inYear ∧ 0 ≤ inYear ∧
      daysBefore year + inYear = day + epoch ∧ daysBefore year + inYear < daysBefore (year + 1) := by
  have hera := Int.emod_add_mul_ediv (day + epoch) 146097
  have hlow := Int.emod_nonneg (day + epoch) (by decide : (146097 : Int) ≠ 0)
  have hhigh := Int.emod_lt_of_pos (day + epoch) (by decide : (0 : Int) < 146097)
  obtain ⟨hstart, hend⟩ := yearOfEra_spec hlow hhigh
  have hthis := daysBefore_add_eras (yearOfEra ((day + epoch) % 146097)) ((day + epoch) / 146097)
  have hnext := daysBefore_add_eras (yearOfEra ((day + epoch) % 146097) + 1)
    ((day + epoch) / 146097)
  rw [Int.add_right_comm] at hnext
  refine ⟨yearOfEra ((day + epoch) % 146097) + 400 * ((day + epoch) / 146097),
    (day + epoch) % 146097 - daysBefore (yearOfEra ((day + epoch) % 146097)), rfl, ?_, ?_, ?_⟩
  · exact Int.sub_nonneg_of_le hstart
  · omega
  · omega

/-! ## The date of a day of a year -/

/-- The months of a year that begins in March, and the last day of February, which only a leap year
has. -/
theorem months_spec : ∀ day : Fin 366,
    let month : Int := (5 * day + 2) / 153
    let inMonth := (day : Int) - daysToMonth month + 1
    0 ≤ month ∧ month ≤ 11 ∧ 1 ≤ inMonth ∧
      (month < 10 → inMonth ≤ daysIn 1 (month + 3).toNat) ∧
      (10 ≤ month → day.val = 365 ∧ month = 11 ∧ inMonth = 29 ∨
        inMonth ≤ daysIn 1 (month - 9).toNat) := by
  decide +kernel

/-- A year from March to March that has more than 365 days ends in the February of a leap year. -/
theorem isLeap_of_long {year : Int} (h : daysBefore year + 365 < daysBefore (year + 1)) :
    isLeap (year + 1) = true := by
  unfold daysBefore at h
  simp only [isLeap, Bool.and_eq_true, Bool.or_eq_true, decide_eq_true_eq]
  omega

/-- No month is shorter than in the first year. -/
theorem daysIn_one_le (year : Int) (month : Nat) : daysIn 1 month ≤ daysIn year month := by
  by_cases hmonth : month = 2
  · subst hmonth
    change 28 ≤ if isLeap year then 29 else 28
    split <;> omega
  · unfold daysIn
    split <;> first | exact absurd rfl hmonth | exact Nat.le_refl _

section

variable {year day : Int}

/-- The date is one of the calendar, and its number is that of the day. -/
theorem ofYearDay_spec (hlow : 0 ≤ day) (hhigh : daysBefore year + day < daysBefore (year + 1)) :
    (ofYearDay year day).toDay = daysBefore year + day - epoch ∧
      1 ≤ (ofYearDay year day).month ∧ (ofYearDay year day).month ≤ 12 ∧
      1 ≤ (ofYearDay year day).day ∧
      (ofYearDay year day).day ≤ daysIn (ofYearDay year day).year (ofYearDay year day).month := by
  have hbound : day < 366 := by
    unfold daysBefore at hhigh
    omega
  obtain ⟨number, rfl⟩ := Int.eq_ofNat_of_zero_le hlow
  have hmonths := months_spec ⟨number, by omega⟩
  simp only at hmonths
  obtain ⟨hfirst, hlast, hinMonth, hearly, hlate⟩ := hmonths
  simp only [ofYearDay]
  generalize ((5 * (number : Int) + 2) / 153) = month at *
  split
  · next hmonth =>
      have hdays := daysIn_one_le year (month + 3).toNat
      have hthree : ¬(month + 3).toNat ≤ 2 := by omega
      refine ⟨?_, ?_, ?_, ?_, ?_⟩
      · simp only [toDay, if_neg hthree]
        rw [show (((month + 3).toNat : Nat) : Int) - 3 = month by omega]
        omega
      all_goals
        have hfits := hearly hmonth
        simp only
        omega
  · next hmonth =>
      have hdays := daysIn_one_le (year + 1) (month - 9).toNat
      have htwo : (month - 9).toNat ≤ 2 := by omega
      refine ⟨?_, ?_, ?_, ?_, ?_⟩
      · simp only [toDay, if_pos htwo]
        rw [show (((month - 9).toNat : Nat) : Int) + 9 = month by omega, Int.add_sub_cancel]
        omega
      · simp only
        omega
      · simp only
        omega
      · simp only
        omega
      · rcases hlate (by omega) with ⟨hday, rfl, hleap⟩ | hfits
        · subst hday
          have hyear : isLeap (year + 1) = true := isLeap_of_long (by omega)
          rw [hleap]
          simp [daysIn, hyear]
        · simp only
          omega

end

/-! ## The date of a day -/

/-- The number of the date of a day is the day. -/
theorem toDay_ofDay (day : Int) : (ofDay day).toDay = day := by
  obtain ⟨year, inYear, hdate, hlow, hday, hhigh⟩ := exists_ofYearDay day
  rw [hdate, (ofYearDay_spec hlow hhigh).1, hday, Int.add_sub_cancel]

/-- The date of a day is one of the calendar. -/
theorem ofDay_spec (day : Int) :
    1 ≤ (ofDay day).month ∧ (ofDay day).month ≤ 12 ∧ 1 ≤ (ofDay day).day ∧
      (ofDay day).day ≤ daysIn (ofDay day).year (ofDay day).month := by
  obtain ⟨year, inYear, hdate, hlow, -, hhigh⟩ := exists_ofYearDay day
  rw [hdate]
  exact (ofYearDay_spec hlow hhigh).2

/-- The date of a day is there again from its parts. -/
theorem make?_ofDay {day : Int} (h : (ofDay day).inRange = true) :
    make? (ofDay day).year (ofDay day).month (ofDay day).day = some (ofDay day) := by
  obtain ⟨hfirst, hlast, hday, hdays⟩ := ofDay_spec day
  rw [inRange, Bool.and_eq_true, decide_eq_true_eq, decide_eq_true_eq] at h
  rw [make?, if_pos ⟨h.1, h.2, hfirst, hlast, hday, hdays⟩]

end ClosedSql.Calendar.Date
