import ClosedSql.Number.Decimal
import ClosedSql.Proofs.Number.Digits
import Mathlib.Data.List.TakeWhile

/-!
# Decimals as text

A decimal is read back from its text with its sign, its mantissa and its number of places. The
digits before and after the point are taken one by one; none of them is one too many, since all of
them together are the mantissa.
-/

namespace ClosedSql.Number

def pushDigit (total : Nat) (c : Char) : Nat :=
  10 * total + digitValue c

theorem le_foldl_pushDigit (digits : List Char) (total : Nat) : total ≤ digits.foldl pushDigit total := by
  induction digits generalizing total with
  | nil => exact Nat.le_refl _
  | cons c digits ih =>
      refine Nat.le_trans ?_ (ih (pushDigit total c))
      rw [pushDigit]
      omega

namespace Decimal

/-- Digits that fit are taken, and after the point they are counted. -/
theorem takeDigits?_append {digits : List Char} (hdigits : ∀ c ∈ digits, c.isDigit = true)
    {seen : Bool} {mantissa : Nat} {places : Option Nat}
    (hfits : digits.foldl pushDigit mantissa < mantissaBound)
    (hplaces : ∀ count ∈ places, count + digits.length ≤ maxScale) (rest : List Char) :
    takeDigits? seen mantissa places (digits ++ rest) =
      takeDigits? (seen || !digits.isEmpty) (digits.foldl pushDigit mantissa)
        (places.map (· + digits.length)) rest := by
  induction digits generalizing seen mantissa places with
  | nil => simp
  | cons c digits ih =>
      have hroom : places ≠ some maxScale := by
        intro hfull
        have hcount := hplaces maxScale hfull
        rw [List.length_cons] at hcount
        omega
      have hnext : pushDigit mantissa c < mantissaBound :=
        Nat.lt_of_le_of_lt (le_foldl_pushDigit digits _) hfits
      have hcounted : ∀ count ∈ places.map (· + 1), count + digits.length ≤ maxScale := by
        intro count hcount
        obtain ⟨before, hbefore, rfl⟩ := Option.map_eq_some_iff.1 hcount
        have hall := hplaces before hbefore
        rw [List.length_cons] at hall
        omega
      rw [List.cons_append, takeDigits?, if_neg hroom, if_pos (hdigits c List.mem_cons_self)]
      change (if pushDigit mantissa c < mantissaBound then _ else _) = _
      rw [if_pos hnext]
      change takeDigits? true (pushDigit mantissa c) (places.map (· + 1)) (digits ++ rest) = _
      rw [ih (fun d hd => hdigits d (List.mem_cons_of_mem _ hd)) hfits hcounted, Option.map_map]
      simp only [List.isEmpty_cons, Bool.not_false, Bool.or_true, Bool.true_or, List.foldl_cons,
        List.length_cons, Function.comp_def, Nat.add_assoc, Nat.add_comm 1]

/-! ## The text of a decimal -/

def digits (d : Decimal) : List Char :=
  List.replicate (d.scale + 1 - (Nat.toDigits 10 d.mantissa).length) '0' ++ Nat.toDigits 10 d.mantissa

def whole (d : Decimal) : List Char :=
  d.digits.take (d.digits.length - d.scale)

def fraction (d : Decimal) : List Char :=
  d.digits.drop (d.digits.length - d.scale)

theorem text_eq (d : Decimal) :
    d.text = (if d.negative then ['-'] else []) ++ d.whole ++
      if d.scale = 0 then [] else '.' :: d.fraction :=
  rfl

variable {d : Decimal}

theorem scale_lt_length_digits : d.scale < d.digits.length := by
  rw [digits, List.length_append, List.length_replicate]
  omega

theorem length_fraction : d.fraction.length = d.scale := by
  have hlt := @scale_lt_length_digits d
  rw [fraction, List.length_drop]
  omega

/-- Nothing is lost between the whole part and the fraction. -/
theorem whole_append_fraction : d.whole ++ d.fraction = d.digits :=
  List.take_append_drop _ _

theorem whole_ne_nil : d.whole ≠ [] := by
  have hlt := @scale_lt_length_digits d
  intro hnil
  have hlength := congrArg List.length hnil
  rw [whole, List.length_take, List.length_nil] at hlength
  omega

theorem isDigit_of_mem_whole {c : Char} (h : c ∈ d.whole) : c.isDigit = true :=
  isDigit_of_mem_zeros_append (List.mem_of_mem_take h)

theorem isDigit_of_mem_fraction {c : Char} (h : c ∈ d.fraction) : c.isDigit = true :=
  isDigit_of_mem_zeros_append (List.mem_of_mem_drop h)

/-- All digits together are the mantissa. -/
theorem foldl_pushDigit_fraction : d.fraction.foldl pushDigit (d.whole.foldl pushDigit 0) = d.mantissa := by
  rw [← List.foldl_append, whole_append_fraction]
  exact (digitsValue_zeros_append _ _).trans (digitsValue_toDigits _)

theorem exists_whole_cons : ∃ c rest, d.whole = c :: rest ∧ c.isDigit = true := by
  obtain ⟨c, rest, hwhole⟩ := List.exists_cons_of_ne_nil (@whole_ne_nil d)
  exact ⟨c, rest, hwhole, isDigit_of_mem_whole (hwhole ▸ List.mem_cons_self)⟩

/-- A text consists of digits, a sign and a point. -/
theorem mem_text {c : Char} (h : c ∈ d.text) : c.isDigit = true ∨ c = '-' ∨ c = '.' := by
  rw [text_eq] at h
  rcases List.mem_append.1 h with h | h
  · rcases List.mem_append.1 h with h | h
    · split at h
      · exact .inr (.inl (List.mem_singleton.1 h))
      · cases h
    · exact .inl (isDigit_of_mem_whole h)
  · split at h
    · cases h
    · rcases List.mem_cons.1 h with rfl | h
      · exact .inr (.inr rfl)
      · exact .inl (isDigit_of_mem_fraction h)

/-- The digits and the point are taken as the mantissa and its places. -/
theorem takeDigits?_text :
    takeDigits? false 0 none (d.whole ++ if d.scale = 0 then [] else '.' :: d.fraction) =
      some (d.mantissa, d.scale) := by
  have hvalue := @foldl_pushDigit_fraction d
  have hsize : d.whole.foldl pushDigit 0 < mantissaBound :=
    Nat.lt_of_le_of_lt (hvalue ▸ le_foldl_pushDigit d.fraction _) d.mantissa_lt
  rw [takeDigits?_append (fun c hc => isDigit_of_mem_whole hc) hsize (by simp)]
  have hseen : (false || !d.whole.isEmpty) = true := by simp [whole_ne_nil]
  rw [hseen, Option.map_none]
  split
  · next hscale =>
      have hnone : d.fraction = [] := List.length_eq_zero_iff.1 (length_fraction.trans hscale)
      rw [hnone] at hvalue
      simp only [takeDigits?, if_true, hscale]
      rw [← hvalue]
      rfl
  · have hpoint : takeDigits? true (d.whole.foldl pushDigit 0) none ('.' :: d.fraction) =
        takeDigits? true (d.whole.foldl pushDigit 0) (some 0) d.fraction := rfl
    have hfits : d.fraction.foldl pushDigit (d.whole.foldl pushDigit 0) < mantissaBound :=
      hvalue ▸ d.mantissa_lt
    have hplaces : ∀ count ∈ some 0, count + d.fraction.length ≤ maxScale := by
      simpa [length_fraction] using d.scale_le
    rw [hpoint, ← d.fraction.append_nil,
      takeDigits?_append (fun c hc => isDigit_of_mem_fraction hc) hfits hplaces, hvalue,
      length_fraction]
    simp [takeDigits?]

theorem ofPlainText?_text (d : Decimal) : ofPlainText? d.text = some d := by
  have hsign : readSign d.text =
      (d.negative, d.whole ++ if d.scale = 0 then [] else '.' :: d.fraction) := by
    rw [text_eq]
    cases hnegative : d.negative with
    | true => rfl
    | false =>
        obtain ⟨c, rest, hwhole, hc⟩ := @exists_whole_cons d
        rw [hwhole]
        exact readSign_of_isDigit hc _
  rw [ofPlainText?, hsign]
  simp only [takeDigits?_text, Option.bind_some]
  exact dif_pos ⟨d.mantissa_lt, d.scale_le⟩

/-- A decimal is read back from its text. -/
theorem ofText?_text (d : Decimal) : ofText? d.text = some d := by
  have hmarks : d.text.dropWhile (fun c => !(c == 'e' || c == 'E')) = [] := by
    rw [List.dropWhile_eq_nil_iff]
    intro c hc
    rcases mem_text hc with hdigit | rfl | rfl
    · have he : c ≠ 'e' := by
        rintro rfl
        cases hdigit
      have hE : c ≠ 'E' := by
        rintro rfl
        cases hdigit
      simp [he, hE]
    · rfl
    · rfl
  rw [ofText?]
  simp only [hmarks]
  exact ofPlainText?_text d

/-- No blank stands in the text of a decimal. -/
theorem trim_text (d : Decimal) : Text.trim d.text = d.text := by
  apply Text.trim_of_not_isBlank
  intro c hc
  rcases mem_text hc with hdigit | rfl | rfl
  · exact Text.isBlank_of_isDigit hdigit
  · rfl
  · rfl

/-! ## Decimals that are the same number -/

theorem sameNumber_self (d : Decimal) : d.sameNumber d = true :=
  beq_self_eq_true _

end Decimal

end ClosedSql.Number
