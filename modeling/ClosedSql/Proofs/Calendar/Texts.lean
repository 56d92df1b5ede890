import ClosedSql.Calendar.Reading
import ClosedSql.Proofs.Calendar.Days
import ClosedSql.Proofs.Number.Digits

/-!
# Dates and times, written and read

A date and an instant are read back from their texts. Of the four forms that are tried in turn the
earlier ones stop inside such a text: where the offset should be, at the letter before the time, or
at its end. Only the form with an offset wants exactly four digits of the year, so an instant with
an offset is not read at all once its year needs a sign.
-/

namespace ClosedSql.Calendar

open Number

/-! ## Numbers of a fixed width -/

theorem isDigit_of_mem_padded {width n : Nat} {c : Char} (h : c ∈ padded width n) :
    c.isDigit = true :=
  isDigit_of_mem_zeros_append h

/-- Zeros in front do not change a number. -/
theorem digitsValue_padded (width n : Nat) : digitsValue (padded width n) = n := by
  rw [padded, digitsValue_zeros_append, digitsValue_toDigits]

theorem le_length_padded (width n : Nat) : width ≤ (padded width n).length := by
  rw [padded, List.length_append, List.length_replicate]
  omega

theorem length_padded {width n : Nat} (hwidth : 0 < width) (h : n < tenTo width) :
    (padded width n).length = width := by
  have hlength := (Nat.length_toDigits_le_iff (by decide) hwidth).2 h
  rw [padded, List.length_append, List.length_replicate]
  omega

theorem exists_padded_cons {width : Nat} (h : 0 < width) (n : Nat) :
    ∃ c rest, padded width n = c :: rest ∧ c.isDigit = true := by
  have hlength := le_length_padded width n
  obtain ⟨c, rest, hcons⟩ := List.exists_cons_of_length_pos (show 0 < (padded width n).length by omega)
  exact ⟨c, rest, hcons, isDigit_of_mem_padded (hcons ▸ List.mem_cons_self)⟩

/-- What a number of digits must not be followed by. -/
def Stops (rest : List Char) : Prop :=
  ∀ c ∈ rest.head?, c.isDigit = false

theorem stops_cons {c : Char} (h : c.isDigit = false) (rest : List Char) : Stops (c :: rest) := by
  intro d hd
  obtain rfl := Option.some.inj hd
  exact h

/-- Digits are read as a number where there are enough of them and no more could be read. -/
theorem number?_append {least most : Nat} {digits rest : List Char}
    (hdigits : ∀ c ∈ digits, c.isDigit = true) (hleast : least ≤ digits.length)
    (hmost : digits.length ≤ most) (hrest : digits.length = most ∨ Stops rest) :
    number? least most (digits ++ rest) = some (digitsValue digits, rest) := by
  have htaken : ((digits ++ rest).take most).takeWhile Char.isDigit = digits := by
    rw [List.take_append, List.take_of_length_le hmost]
    refine (Token.span_append hdigits ?_).1
    rcases hrest with hfull | hstops
    · simp [hfull]
    · intro c hc
      rw [List.head?_take] at hc
      split at hc
      · cases hc
      · exact hstops c hc
  rw [number?]
  simp only [htaken, if_neg (Nat.not_lt.2 hleast), List.drop_left]

/-- A number of full width is read back before any text. -/
theorem number?_padded {width n : Nat} (hwidth : 0 < width) (h : n < tenTo width) {least : Nat}
    (hleast : least ≤ width) (rest : List Char) :
    number? least width (padded width n ++ rest) = some (n, rest) := by
  have hlength := length_padded hwidth h
  rw [number?_append (fun c hc => isDigit_of_mem_padded hc) (by omega) (by omega) (.inl hlength),
    digitsValue_padded]

theorem twoDigits {n : Nat} (h : n < 100) (rest : List Char) :
    number? 2 2 (padded 2 n ++ rest) = some (n, rest) :=
  number?_padded (by decide) h (Nat.le_refl 2) rest

/-- A number of a fixed width is not read where the text begins otherwise. -/
theorem number?_eq_none {least most : Nat} (hleast : 0 < least) {c : Char} (hc : c.isDigit = false)
    (rest : List Char) : number? least most (c :: rest) = none := by
  have htaken : ((c :: rest).take most).takeWhile Char.isDigit = [] := by
    cases most with
    | zero => rfl
    | succ most => rw [List.take_succ_cons, List.takeWhile_cons_of_neg (by simp [hc])]
  rw [number?]
  simp only [htaken, List.length_nil, if_pos hleast]

theorem after?_cons (c : Char) (rest : List Char) : after? c (c :: rest) = some rest :=
  if_pos rfl

theorem trimStart_padded {width : Nat} (h : 0 < width) (n : Nat) (rest : List Char) :
    Text.trimStart (padded width n ++ rest) = padded width n ++ rest := by
  obtain ⟨c, tail, hcons, hc⟩ := exists_padded_cons h n
  apply Text.trimStart_of_not_isBlank
  intro d hd
  rw [hcons] at hd
  obtain rfl := Option.some.inj hd
  exact Text.isBlank_of_isDigit hc

/-- Two digits are read back by the lenient reader as well. -/
theorem short?_padded {n : Nat} (h : n < 100) (rest : List Char) :
    short? (padded 2 n ++ rest) = some (n, rest) := by
  rw [short?, trimStart_padded (by decide)]
  exact number?_padded (by decide) h (by decide) rest

/-! ## Years -/

/-- A year of four digits has no sign. -/
def Date.Plain (year : Int) : Prop :=
  0 ≤ year ∧ year ≤ 9999

theorem natAbs_lt_of_plain {year : Int} (h : Date.Plain year) : year.natAbs < tenTo 4 := by
  have hfirst := h.1
  have hlast := h.2
  change year.natAbs < 10000
  omega

theorem yearText_of_plain {year : Int} (h : Date.Plain year) :
    Date.yearText year = padded 4 year.natAbs :=
  if_pos h

/-- Any other year has a sign, and four digits at least. -/
theorem yearText_of_not_plain {year : Int} (h : ¬Date.Plain year) :
    Date.yearText year = (if year < 0 then '-' else '+') :: padded 4 year.natAbs :=
  if_neg h

/-- A year is read back from its digits, with or without a sign, if no digit follows. -/
theorem year?_yearText (year : Int) {rest : List Char} (hrest : Stops rest) :
    year? (Date.yearText year ++ rest) = some (year, rest) := by
  by_cases hplain : Date.Plain year
  · have hbound := natAbs_lt_of_plain hplain
    obtain ⟨c, tail, hcons, hc⟩ := exists_padded_cons (show 0 < 4 by decide) year.natAbs
    have hread := number?_padded (by decide) hbound (show 1 ≤ 4 by decide) rest
    rw [yearText_of_plain hplain, year?, trimStart_padded (by decide)]
    rw [hcons, List.cons_append] at hread ⊢
    split
    · next heq => obtain ⟨rfl, -⟩ := List.cons.inj heq; cases hc
    · next heq => obtain ⟨rfl, -⟩ := List.cons.inj heq; cases hc
    · rw [hread]
      simp [Int.natAbs_of_nonneg hplain.1]
  · have hleast := le_length_padded 4 year.natAbs
    have hread : number? 1 (padded 4 year.natAbs ++ rest).length (padded 4 year.natAbs ++ rest) =
        some (year.natAbs, rest) := by
      rw [number?_append (fun c hc => isDigit_of_mem_padded hc) (by omega)
        (by rw [List.length_append]; omega) (.inr hrest), digitsValue_padded]
    rw [yearText_of_not_plain hplain]
    by_cases hneg : year < 0
    · rw [if_pos hneg, List.cons_append, year?,
        Text.trimStart_cons_of_not_isBlank (show ¬Text.isBlank '-' = true by decide)]
      simp only [hread, Option.map_some]
      rw [show -(year.natAbs : Int) = year by omega]
    · rw [if_neg hneg, List.cons_append, year?,
        Text.trimStart_cons_of_not_isBlank (show ¬Text.isBlank '+' = true by decide)]
      simp only [hread, Option.map_some]
      rw [show (year.natAbs : Int) = year by omega]

/-! ## Dates -/

def HasDate (day : Int) : Prop :=
  (Date.ofDay day).inRange = true

theorem date_text_append (date : Date) (rest : List Char) :
    date.text ++ rest = Date.yearText date.year ++
      '-' :: (padded 2 date.month ++ '-' :: (padded 2 date.day ++ rest)) := by
  simp [Date.text]

theorem month_lt (day : Int) : (Date.ofDay day).month < 100 := by
  obtain ⟨-, hmonth, -, -⟩ := Date.ofDay_spec day
  omega

theorem day_lt (day : Int) : (Date.ofDay day).day < 100 := by
  obtain ⟨-, -, -, hday⟩ := Date.ofDay_spec day
  have hlong : Date.daysIn (Date.ofDay day).year (Date.ofDay day).month ≤ 31 := by
    unfold Date.daysIn
    split
    · split <;> decide
    all_goals decide
  omega

section

variable {day : Int}

/-- A date is read back by the lenient reader before any text. -/
theorem lenientDate?_text (h : HasDate day) (rest : List Char) :
    lenientDate? ((Date.ofDay day).text ++ rest) = some (Date.ofDay day, rest) := by
  have hyear : ∀ rest, year? (Date.yearText (Date.ofDay day).year ++ '-' :: rest) =
      some ((Date.ofDay day).year, '-' :: rest) := fun rest => year?_yearText _ (stops_cons rfl _)
  rw [date_text_append, lenientDate?]
  simp only [hyear, after?_cons, short?_padded (month_lt day), short?_padded (day_lt day),
    Date.make?_ofDay h, Option.bind_eq_bind, Option.bind_some]

end

/-! ## Times of the day -/

namespace Instant

def clock (instant : Instant) : Nat :=
  (instant.seconds % daySeconds).toNat

theorem clock_lt (instant : Instant) : instant.clock < 86400 := by
  have hmod := Int.emod_lt_of_pos instant.seconds (show 0 < daySeconds by decide)
  rw [clock]
  unfold daySeconds at *
  omega

/-- An instant is so many days and so many seconds of a day. -/
theorem day_mul_add_clock (instant : Instant) :
    instant.day * daySeconds + instant.clock = instant.seconds := by
  have hmod := Int.emod_nonneg instant.seconds (show daySeconds ≠ 0 by decide)
  have hdivision := Int.emod_add_mul_ediv instant.seconds daySeconds
  rw [day, clock, Int.toNat_of_nonneg hmod, Int.mul_comm, Int.add_comm]
  exact hdivision

theorem clockText_append (instant : Instant) (rest : List Char) :
    instant.clockText ++ rest = padded 2 (instant.clock / 3600) ++
      ':' :: (padded 2 (instant.clock / 60 % 60) ++ ':' :: (padded 2 (instant.clock % 60) ++ rest)) := by
  simp [clockText, clock]

end Instant

/-- The hour, the minute and the second of a clock give the clock back. -/
theorem secondsOfDay?_clock {clock : Nat} (h : clock < 86400) :
    secondsOfDay? (clock / 3600) (clock / 60 % 60) (clock % 60) = some clock := by
  rw [secondsOfDay?, if_pos (by omega)]
  congr 1
  omega

/-- Hour, minute and second of an instant are those of the instant, whatever its fraction. -/
theorem instant?_clock (instant : Instant) (nanos : Nat) :
    instant? instant.date (instant.clock / 3600) (instant.clock / 60 % 60) (instant.clock % 60) nanos
      0 = some ⟨instant.seconds, nanos⟩ := by
  have hsecond : ¬instant.clock % 60 = 60 := by omega
  rw [instant?, secondsOfDay?_clock instant.clock_lt, if_neg hsecond]
  change some (Instant.mk (instant.date.toDay * Instant.daySeconds + instant.clock - 0) nanos) = _
  rw [Instant.date, Date.toDay_ofDay, Instant.day_mul_add_clock, Int.sub_zero]

/-! ## Fractions of a second -/

theorem fraction?_padded {width n : Nat} (hwidth : 0 < width) (hmost : width ≤ 9)
    (h : n < tenTo width) {rest : List Char} (hrest : Stops rest) :
    fraction? (padded width n ++ rest) = some (n * tenTo (9 - width), rest) := by
  have hlength := length_padded hwidth h
  have htake : (padded width n ++ rest).takeWhile Char.isDigit = padded width n :=
    (Token.span_append (fun c hc => isDigit_of_mem_padded hc) hrest).1
  have hempty : (padded width n).isEmpty = false := by
    obtain ⟨c, tail, hcons, -⟩ := exists_padded_cons hwidth n
    rw [hcons, List.isEmpty_cons]
  have hkept : (padded width n).take 9 = padded width n := List.take_of_length_le (by omega)
  rw [fraction?]
  simp only [htake, hempty, Bool.false_eq_true, if_false, hkept, digitsValue_padded, hlength,
    List.drop_left' hlength]

/-- What a fraction must not be followed by. -/
def StopsFraction (rest : List Char) : Prop :=
  Stops rest ∧ rest.head? ≠ some '.'

/-- A fraction of a second is read back, whatever number of digits it is written with. -/
theorem optionalFraction?_fractionText {instant : Instant} (h : instant.nanos < 1000000000)
    {rest : List Char} (hrest : StopsFraction rest) :
    optionalFraction? (instant.fractionText ++ rest) = some (instant.nanos, rest) := by
  have hnanos : instant.nanos % 1000000000 = instant.nanos := Nat.mod_eq_of_lt h
  rw [Instant.fractionText, hnanos]
  split
  · next hzero =>
      rw [List.nil_append, optionalFraction?.eq_def, hzero]
      split
      · exact absurd rfl hrest.2
      · rfl
  · split
    · next hmillis =>
        have hread := fraction?_padded (show 0 < 3 by decide) (by decide)
          (show instant.nanos / 1000000 < 1000 by omega) hrest.1
        rw [List.cons_append, optionalFraction?, hread]
        congr 2
        exact Nat.div_mul_cancel (Nat.dvd_of_mod_eq_zero hmillis)
    · split
      · next hmicros =>
          have hread := fraction?_padded (show 0 < 6 by decide) (by decide)
            (show instant.nanos / 1000 < 1000000 by omega) hrest.1
          rw [List.cons_append, optionalFraction?, hread]
          congr 2
          exact Nat.div_mul_cancel (Nat.dvd_of_mod_eq_zero hmicros)
      · have hread := fraction?_padded (show 0 < 9 by decide) (by decide)
          h hrest.1
        rw [List.cons_append, optionalFraction?, hread]
        congr 2
        exact Nat.mul_one _

theorem stopsFraction_nil : StopsFraction [] :=
  ⟨nofun, nofun⟩

def universal : List Char :=
  "+00:00".toList

theorem stopsFraction_universal : StopsFraction universal :=
  ⟨stops_cons (by decide) _, by decide⟩

/-! ## Instants -/

theorem instant_text_append (instant : Instant) (rest : List Char) :
    instant.text ++ rest =
      instant.date.text ++ 'T' :: (instant.clockText ++ (instant.fractionText ++ rest)) := by
  simp [Instant.text]

section

variable {instant : Instant}

/-- The time of an instant is read to its end, where the text must end as well. -/
theorem lenientTime?_append (h : instant.nanos < 1000000000) {rest : List Char}
    (hrest : StopsFraction rest) :
    lenientTime? instant.date (instant.clockText ++ (instant.fractionText ++ rest)) =
      if rest.isEmpty then some instant else none := by
  have hclock := instant.clock_lt
  rw [Instant.clockText_append, lenientTime?]
  simp only [short?_padded (show instant.clock / 3600 < 100 by omega),
    short?_padded (show instant.clock / 60 % 60 < 100 by omega),
    short?_padded (show instant.clock % 60 < 100 by omega), after?_cons,
    optionalFraction?_fractionText h hrest, instant?_clock, Option.bind_eq_bind, Option.bind_some]

/-- Date and time are read back from the form with a letter, at the end of a text. -/
theorem readLettered?_append (hdate : HasDate instant.day) (h : instant.nanos < 1000000000)
    {rest : List Char} (hrest : StopsFraction rest) :
    readLettered? (instant.text ++ rest) = if rest.isEmpty then some instant else none := by
  have htime := lenientTime?_append h hrest
  rw [instant_text_append, readLettered?]
  simp only [Instant.date] at htime ⊢
  simp only [lenientDate?_text hdate, after?_cons, htime, Option.bind_eq_bind, Option.bind_some]

/-- The full form reads an instant with four digits of the year up to the offset. -/
theorem readStamp?_append (hdate : HasDate instant.day) (hplain : Date.Plain instant.date.year)
    (h : instant.nanos < 1000000000) {rest : List Char} (hrest : StopsFraction rest) :
    readStamp? (instant.text ++ rest) = (offset? rest).bind fun offset =>
      instant? instant.date (instant.clock / 3600) (instant.clock / 60 % 60) (instant.clock % 60)
        instant.nanos offset := by
  have hclock := instant.clock_lt
  have hyear := natAbs_lt_of_plain hplain
  have hnumber : (instant.date.year.natAbs : Int) = instant.date.year :=
    Int.natAbs_of_nonneg hplain.1
  have hmake : Date.make? instant.date.year instant.date.month instant.date.day = some instant.date :=
    Date.make?_ofDay hdate
  rw [instant_text_append, date_text_append, yearText_of_plain hplain, Instant.clockText_append,
    readStamp?]
  simp only [number?_padded (show 0 < 4 by decide) hyear (Nat.le_refl 4), after?_cons,
    Option.bind_eq_bind, Option.bind_some]
  simp only [twoDigits (show instant.date.month < 100 from month_lt _),
    twoDigits (show instant.date.day < 100 from day_lt _), after?_cons, Option.bind_some]
  rw [if_pos (.inl trivial)]
  simp only [twoDigits (show instant.clock / 3600 < 100 by omega),
    twoDigits (show instant.clock / 60 % 60 < 100 by omega),
    twoDigits (show instant.clock % 60 < 100 by omega),
    optionalFraction?_fractionText h hrest, after?_cons, hnumber, hmake, Option.bind_some]

end

/-! ## Forms that stop inside a text -/

/-- A year with a sign is nothing for the full form. -/
theorem readStamp?_of_not_plain {date : Date} (h : ¬Date.Plain date.year) (rest : List Char) :
    readStamp? (date.text ++ rest) = none := by
  have hsign : (if date.year < 0 then '-' else '+').isDigit = false := by
    split <;> rfl
  rw [date_text_append, yearText_of_not_plain h, List.cons_append, readStamp?,
    number?_eq_none (by decide) hsign]
  rfl

section

variable {day : Int}

/-- The full form does not end with the date. -/
theorem readStamp?_date (day : Int) : readStamp? (Date.ofDay day).text = none := by
  rw [← List.append_nil (Date.ofDay day).text]
  by_cases hplain : Date.Plain (Date.ofDay day).year
  · have hyear := natAbs_lt_of_plain hplain
    rw [date_text_append, yearText_of_plain hplain, readStamp?]
    simp only [number?_padded (show 0 < 4 by decide) hyear (Nat.le_refl 4),
      twoDigits (month_lt day), twoDigits (day_lt day), after?_cons, Option.bind_eq_bind,
      Option.bind_some, Option.bind_none]
  · exact readStamp?_of_not_plain hplain []

/-- Behind a date, the form with blanks looks for a time. -/
theorem readSpaced?_append (h : HasDate day) {rest : List Char}
    (hrest : ∀ c ∈ rest.head?, c.isDigit = false ∧ Text.isBlank c = false) :
    readSpaced? ((Date.ofDay day).text ++ rest) = none := by
  have htrim : Text.trimStart rest = rest := Text.trimStart_of_not_isBlank fun c hc => (hrest c hc).2
  have hshort : short? rest = none := by
    rw [short?, htrim]
    cases rest with
    | nil => rfl
    | cons c rest => exact number?_eq_none (by decide) (hrest c rfl).1 rest
  rw [readSpaced?]
  simp only [lenientDate?_text h, htrim, lenientTime?, hshort, Option.bind_eq_bind, Option.bind_some,
    Option.bind_none]

/-- A date without a time is not in the form with a letter. -/
theorem readLettered?_date (h : HasDate day) : readLettered? (Date.ofDay day).text = none := by
  have hdate := lenientDate?_text h []
  rw [List.append_nil] at hdate
  rw [readLettered?]
  simp only [hdate, Option.bind_eq_bind, Option.bind_some]
  rfl

/-- The midnight of a date is read where the text ends with the date. -/
theorem readDate?_append (h : HasDate day) (rest : List Char) :
    readDate? ((Date.ofDay day).text ++ rest) =
      if rest.isEmpty then some ⟨day * Instant.daySeconds, 0⟩ else none := by
  have hmidnight : instant? (Date.ofDay day) 0 0 0 0 0 = some ⟨day * Instant.daySeconds, 0⟩ := by
    change some (Instant.mk ((Date.ofDay day).toDay * Instant.daySeconds + 0 - 0) 0) = _
    rw [Date.toDay_ofDay, Int.add_zero, Int.sub_zero]
  rw [readDate?]
  simp only [lenientDate?_text h, hmidnight, Option.bind_eq_bind, Option.bind_some]

/-! ## Reading -/

/-- A date stands for its midnight. -/
theorem readInstant?_date (h : HasDate day) :
    readInstant? (Date.ofDay day).text = some ⟨day * Instant.daySeconds, 0⟩ := by
  have hspaced : readSpaced? ((Date.ofDay day).text ++ []) = none := readSpaced?_append h nofun
  have hdate := readDate?_append h []
  rw [List.append_nil] at hspaced hdate
  rw [readInstant?, readStamp?_date, hspaced, readLettered?_date h, hdate]
  rfl

end

section

variable {instant : Instant}

/-- Date and time with a letter between them are not in the form with a blank. -/
theorem readSpaced?_text (hdate : HasDate instant.day) (rest : List Char) :
    readSpaced? (instant.text ++ rest) = none := by
  rw [instant_text_append]
  refine readSpaced?_append hdate ?_
  intro c hc
  obtain rfl := Option.some.inj hc
  decide

/-- An instant is read back from its text. -/
theorem readInstant?_text (hdate : HasDate instant.day) (h : instant.nanos < 1000000000) :
    readInstant? instant.text = some instant := by
  have hstamp : readStamp? instant.text = none := by
    by_cases hplain : Date.Plain instant.date.year
    · rw [← List.append_nil instant.text, readStamp?_append hdate hplain h stopsFraction_nil]
      rfl
    · rw [← List.append_nil instant.text, instant_text_append]
      exact readStamp?_of_not_plain hplain _
  have hspaced := readSpaced?_text hdate []
  have hlettered := readLettered?_append hdate h stopsFraction_nil
  rw [List.append_nil] at hspaced hlettered
  rw [readInstant?, hstamp, hspaced, hlettered]
  rfl

/-- Behind the offset of universal time only the full form reads an instant. -/
theorem readInstant?_universal (hdate : HasDate instant.day) (h : instant.nanos < 1000000000) :
    readInstant? (instant.text ++ universal) = readStamp? (instant.text ++ universal) := by
  have hspaced := readSpaced?_text hdate universal
  have hlettered : readLettered? (instant.text ++ universal) = none :=
    readLettered?_append hdate h stopsFraction_universal
  have hnone : readDate? (instant.text ++ universal) = none := by
    rw [instant_text_append]
    exact readDate?_append hdate _
  rw [readInstant?, hspaced, hlettered, hnone]
  cases readStamp? (instant.text ++ universal) <;> rfl

/-- With the offset of universal time, an instant is read back if its year has four digits. -/
theorem readInstant?_universal_of_plain (hdate : HasDate instant.day)
    (h : instant.nanos < 1000000000) (hplain : Date.Plain instant.date.year) :
    readInstant? (instant.text ++ universal) = some instant := by
  rw [readInstant?_universal hdate h, readStamp?_append hdate hplain h stopsFraction_universal]
  exact instant?_clock instant instant.nanos

/-- With the offset of universal time, an instant is not read at all if its year has a sign. -/
theorem readInstant?_universal_of_not_plain (hdate : HasDate instant.day)
    (h : instant.nanos < 1000000000) (hplain : ¬Date.Plain instant.date.year) :
    readInstant? (instant.text ++ universal) = none := by
  rw [readInstant?_universal hdate h, instant_text_append, readStamp?_of_not_plain hplain]

end

/-! ## What the texts consist of -/

def IsMark (c : Char) : Prop :=
  c.isDigit = true ∨ c ∈ ['-', '+', ':', 'T', '.']

theorem isMark_of_mem_padded {width n : Nat} {c : Char} (h : c ∈ padded width n) : IsMark c :=
  .inl (isDigit_of_mem_padded h)

/-- No blank stands in a date or a time. -/
theorem isBlank_of_isMark {c : Char} (h : IsMark c) : Text.isBlank c = false := by
  rcases h with h | h
  · exact Text.isBlank_of_isDigit h
  · revert c
    decide

theorem isMark_of_mem_date {date : Date} {c : Char} (h : c ∈ date.text) : IsMark c := by
  have hsign : ∀ year, c ∈ Date.yearText year → IsMark c := by
    intro year hc
    by_cases hplain : Date.Plain year
    · rw [yearText_of_plain hplain] at hc
      exact isMark_of_mem_padded hc
    · rw [yearText_of_not_plain hplain, List.mem_cons] at hc
      rcases hc with rfl | hc
      · refine .inr ?_
        split <;> decide
      · exact isMark_of_mem_padded hc
  simp only [Date.text, List.mem_append, List.mem_cons] at h
  rcases h with (h | rfl | h) | rfl | h
  · exact hsign _ h
  · exact .inr (by decide)
  · exact isMark_of_mem_padded h
  · exact .inr (by decide)
  · exact isMark_of_mem_padded h

theorem isMark_of_mem_fraction {instant : Instant} {c : Char} (h : c ∈ instant.fractionText) :
    IsMark c := by
  have hpoint : ∀ width n, c ∈ '.' :: padded width n → IsMark c := by
    intro width n hc
    rcases List.mem_cons.1 hc with rfl | hc
    · exact .inr (by decide)
    · exact isMark_of_mem_padded hc
  rw [Instant.fractionText] at h
  split at h
  · cases h
  · split at h
    · exact hpoint _ _ h
    · split at h <;> exact hpoint _ _ h

theorem isMark_of_mem_text {instant : Instant} {c : Char} (h : c ∈ instant.text) : IsMark c := by
  simp only [Instant.text, Instant.clockText, List.mem_append, List.mem_cons] at h
  rcases h with (h | rfl | (h | rfl | h) | rfl | h) | h
  · exact isMark_of_mem_date h
  · exact .inr (by decide)
  · exact isMark_of_mem_padded h
  · exact .inr (by decide)
  · exact isMark_of_mem_padded h
  · exact .inr (by decide)
  · exact isMark_of_mem_padded h
  · exact isMark_of_mem_fraction h

theorem isMark_of_mem_universal : ∀ c ∈ universal, IsMark c := by
  simp [universal, IsMark]

theorem hyphen_mem_date (date : Date) : '-' ∈ date.text := by
  simp [Date.text]

theorem hyphen_mem_text (instant : Instant) : '-' ∈ instant.text := by
  simp [Instant.text, hyphen_mem_date]

end ClosedSql.Calendar
