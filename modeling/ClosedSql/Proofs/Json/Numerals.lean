import ClosedSql.Json.Number
import ClosedSql.Proofs.Number.Decimals

/-!
# Numbers in JSON, in their place

What is read from a number does not depend on the text behind it, as long as that text does not go
on like a number. An integer that 64 bits hold is read from its digits.
-/

namespace ClosedSql.Json

open Number

/-- A text that does not go on like a number. -/
def Ends (rest : List Char) : Prop :=
  ∀ c ∈ rest.head?, c.isDigit = false ∧ c ∉ ['.', 'e', 'E', '+', '-']

theorem ends_nil : Ends [] :=
  nofun

theorem ends_cons {c : Char} (h : c.isDigit = false ∧ c ∉ ['.', 'e', 'E', '+', '-'])
    (rest : List Char) : Ends (c :: rest) := by
  rintro d hd
  obtain rfl := Option.some.inj hd
  exact h

/-- What is read from a text when more text stands behind it. -/
def before {α : Type} (rest : List Char) (found : α × List Char) : α × List Char :=
  (found.1, found.2 ++ rest)

section

variable {rest : List Char}

/-! ## Digits, signs and exponents -/

theorem takeWhile_append (hrest : Ends rest) (text : List Char) :
    (text ++ rest).takeWhile Char.isDigit = text.takeWhile Char.isDigit := by
  induction text with
  | nil =>
      cases rest with
      | nil => rfl
      | cons c rest => exact List.takeWhile_cons_of_neg (by simp [(hrest c rfl).1])
  | cons c text ih => rw [List.cons_append, List.takeWhile_cons, List.takeWhile_cons, ih]

theorem dropWhile_append (hrest : Ends rest) (text : List Char) :
    (text ++ rest).dropWhile Char.isDigit = text.dropWhile Char.isDigit ++ rest := by
  induction text with
  | nil =>
      cases rest with
      | nil => rfl
      | cons c rest => exact List.dropWhile_cons_of_neg (by simp [(hrest c rfl).1])
  | cons c text ih =>
      rw [List.cons_append, List.dropWhile_cons, List.dropWhile_cons, ih]
      split <;> rfl

/-- Digits are taken as if nothing followed. -/
theorem takeSignificand_append (hrest : Ends rest) (total : Nat) (text : List Char) :
    takeSignificand total (text ++ rest) = before rest (takeSignificand total text) := by
  induction text generalizing total with
  | nil =>
      cases rest with
      | nil => rfl
      | cons c rest =>
          have hdigit := (hrest c rfl).1
          simp only [List.nil_append, takeSignificand, before, hdigit, Bool.false_eq_true, false_and,
            if_false]
  | cons c text ih =>
      rw [List.cons_append, takeSignificand, takeSignificand, ih]
      split <;> rfl

theorem readSign_of_unsigned {text : List Char} (h : ∀ c ∈ text.head?, c ≠ '-' ∧ c ≠ '+') :
    readSign text = (false, text) := by
  rw [readSign.eq_def]
  split
  · exact absurd rfl (h '-' rfl).1
  · exact absurd rfl (h '+' rfl).2
  · rfl

theorem readSign_append (hrest : Ends rest) (text : List Char) :
    readSign (text ++ rest) = before rest (readSign text) := by
  cases text with
  | nil =>
      refine readSign_of_unsigned fun c hc => ?_
      have hsign := (hrest c hc).2
      exact ⟨fun h => hsign (by simp [h]), fun h => hsign (by simp [h])⟩
  | cons c text =>
      by_cases hminus : c = '-'
      · subst hminus
        rfl
      · by_cases hplus : c = '+'
        · subst hplus
          rfl
        · have hsign : ∀ tail, readSign (c :: tail) = (false, c :: tail) := fun tail =>
            readSign_of_unsigned fun d hd => Option.some.inj hd ▸ ⟨hminus, hplus⟩
          rw [List.cons_append, hsign, hsign]
          rfl

/-- An exponent is read as if nothing followed. -/
theorem exponent?_append (hrest : Ends rest) (text : List Char) :
    exponent? (text ++ rest) = (exponent? text).map (before rest) := by
  rw [exponent?, exponent?, readSign_append hrest]
  simp only [before, takeWhile_append hrest, dropWhile_append hrest]
  split <;> rfl

/-! ## Numbers -/

variable {negative : Bool} {significand : Nat}

theorem finishFloat?_of_mark {c : Char} (h : c = 'e' ∨ c = 'E') (exponent : Int)
    (text : List Char) :
    finishFloat? negative significand exponent (c :: text) = (exponent? text).bind fun found =>
      (float? negative significand (exponent + found.1)).map fun float => (float, found.2) := by
  have heq : finishFloat? negative significand exponent (c :: text) =
      (exponent? text).bind fun found =>
        (float? negative significand (exponent + found.1)).bind fun float =>
          some (float, found.2) := by
    rcases h with rfl | rfl <;> rw [finishFloat?.eq_def] <;> rfl
  simp only [heq, Option.map_eq_bind, Function.comp_def]

theorem finishFloat?_of_not_mark {text : List Char} (h : ∀ c ∈ text.head?, c ≠ 'e' ∧ c ≠ 'E')
    (exponent : Int) :
    finishFloat? negative significand exponent text =
      (float? negative significand exponent).map fun float => (float, text) := by
  rw [finishFloat?.eq_def]
  split
  · exact absurd rfl (h 'e' rfl).1
  · exact absurd rfl (h 'E' rfl).2
  · rfl

theorem Ends.not_mark (hrest : Ends rest) : ∀ c ∈ rest.head?, c ≠ 'e' ∧ c ≠ 'E' := fun c hc =>
  ⟨fun h => (hrest c hc).2 (by simp [h]), fun h => (hrest c hc).2 (by simp [h])⟩

theorem finishFloat?_append (hrest : Ends rest) (exponent : Int) (text : List Char) :
    finishFloat? negative significand exponent (text ++ rest) =
      (finishFloat? negative significand exponent text).map (before rest) := by
  cases text with
  | nil =>
      rw [List.nil_append, finishFloat?_of_not_mark hrest.not_mark,
        finishFloat?_of_not_mark ends_nil.not_mark]
      simp only [Option.map_map, Function.comp_def, before, List.nil_append]
  | cons c text =>
      by_cases hmark : c = 'e' ∨ c = 'E'
      · rw [List.cons_append, finishFloat?_of_mark hmark, finishFloat?_of_mark hmark,
          exponent?_append hrest]
        simp only [Option.bind_map, Option.map_bind, Option.map_map, Function.comp_def, before]
      · have hhead : ∀ tail : List Char, ∀ d ∈ (c :: tail).head?, d ≠ 'e' ∧ d ≠ 'E' :=
          fun tail d hd => Option.some.inj hd ▸ not_or.1 hmark
        rw [List.cons_append, finishFloat?_of_not_mark (hhead _),
          finishFloat?_of_not_mark (hhead _)]
        simp only [Option.map_map, Function.comp_def, before, List.cons_append]

theorem finishNumeral?_of_mark {c : Char} (h : c = 'e' ∨ c = 'E') (skipped : Nat)
    (text : List Char) :
    finishNumeral? negative significand skipped (c :: text) =
      finishFloat? negative significand skipped (c :: text) := by
  rcases h with rfl | rfl <;> rfl

theorem finishNumeral?_of_end {text : List Char}
    (h : ∀ c ∈ text.head?, c ≠ '.' ∧ c ≠ 'e' ∧ c ≠ 'E') (skipped : Nat) :
    finishNumeral? negative significand skipped text =
      if skipped = 0 then some (integer negative significand, text)
      else finishFloat? negative significand skipped text := by
  rw [finishNumeral?.eq_def]
  split
  · exact absurd rfl (h '.' rfl).1
  · exact absurd rfl (h 'e' rfl).2.1
  · exact absurd rfl (h 'E' rfl).2.2
  · rfl

theorem Ends.not_point (hrest : Ends rest) : ∀ c ∈ rest.head?, c ≠ '.' ∧ c ≠ 'e' ∧ c ≠ 'E' :=
  fun c hc => ⟨fun h => (hrest c hc).2 (by simp [h]), hrest.not_mark c hc⟩

theorem finishNumeral?_point_append (hrest : Ends rest) (skipped : Nat) (text : List Char) :
    finishNumeral? negative significand skipped ('.' :: text ++ rest) =
      (finishNumeral? negative significand skipped ('.' :: text)).map (before rest) := by
  have hplaces : ∀ tail : List Char,
      (text ++ rest).length - (tail ++ rest).length = text.length - tail.length := by
    intro tail
    simp only [List.length_append]
    omega
  rw [List.cons_append, finishNumeral?, finishNumeral?]
  simp only [takeSignificand_append hrest, before, takeWhile_append hrest, hplaces,
    dropWhile_append hrest, finishFloat?_append hrest]
  split <;> rfl

/-- The part behind the integer digits is read as if nothing followed. -/
theorem finishNumeral?_append (hrest : Ends rest) (skipped : Nat) (text : List Char) :
    finishNumeral? negative significand skipped (text ++ rest) =
      (finishNumeral? negative significand skipped text).map (before rest) := by
  cases text with
  | nil =>
      rw [List.nil_append, finishNumeral?_of_end hrest.not_point,
        finishNumeral?_of_end ends_nil.not_point, ← List.nil_append rest, finishFloat?_append hrest]
      split <;> rfl
  | cons c text =>
      by_cases hpoint : c = '.'
      · subst hpoint
        exact finishNumeral?_point_append hrest skipped text
      · by_cases hmark : c = 'e' ∨ c = 'E'
        · rw [List.cons_append, finishNumeral?_of_mark hmark, finishNumeral?_of_mark hmark,
            ← List.cons_append, finishFloat?_append hrest]
        · have hhead : ∀ tail : List Char, ∀ d ∈ (c :: tail).head?, d ≠ '.' ∧ d ≠ 'e' ∧ d ≠ 'E' :=
            fun tail d hd => Option.some.inj hd ▸ ⟨hpoint, not_or.1 hmark⟩
          rw [finishNumeral?_of_end (hhead _), List.cons_append, finishNumeral?_of_end (hhead _),
            ← List.cons_append, finishFloat?_append hrest]
          split <;> rfl

/-- A number is read alike whatever stands behind it. -/
theorem numeral?_append (hrest : Ends rest) (text : List Char) :
    numeral? negative (text ++ rest) = (numeral? negative text).map (before rest) := by
  cases text with
  | nil =>
      cases rest with
      | nil => rfl
      | cons c rest =>
          have hdigit := (hrest c rfl).1
          have hzero : c ≠ '0' := by
            rintro rfl
            cases hdigit
          simp only [List.nil_append, numeral?, hzero, hdigit, Bool.false_eq_true, if_false,
            Option.map_none]
  | cons c text =>
      rw [List.cons_append, numeral?, numeral?]
      simp only [takeSignificand_append hrest, before, takeWhile_append hrest,
        dropWhile_append hrest, finishNumeral?_append hrest]
      split
      · rfl
      · split <;> rfl

end

/-! ## Integers -/

/-- Digits are all taken where the number they spell is held. -/
theorem takeSignificand_of_fits {digits : List Char} (hdigits : ∀ c ∈ digits, c.isDigit = true)
    {total : Nat} (hfits : digits.foldl pushDigit total < significandBound) :
    takeSignificand total digits = (digits.foldl pushDigit total, []) := by
  induction digits generalizing total with
  | nil => rfl
  | cons c digits ih =>
      have hnext : pushDigit total c < significandBound :=
        Nat.lt_of_le_of_lt (le_foldl_pushDigit digits _) hfits
      rw [takeSignificand, if_pos ⟨hdigits c List.mem_cons_self, hnext⟩]
      exact ih (fun d hd => hdigits d (List.mem_cons_of_mem _ hd)) hfits

/-- Only zero has a zero in front. -/
theorem eq_zero_of_toDigits {n : Nat} {digits : List Char} (h : Nat.toDigits 10 n = '0' :: digits) :
    n = 0 := by
  induction n using Nat.strongRecOn generalizing digits with
  | ind n ih =>
      rcases Nat.lt_or_ge n 10 with hsmall | hlarge
      · rw [Nat.toDigits_of_lt_base hsmall] at h
        have hdigit : ∀ n : Fin 10, Nat.digitChar n = '0' → n.val = 0 := by decide
        exact hdigit ⟨n, hsmall⟩ (List.cons.inj h).1
      · rw [Nat.toDigits_of_base_le (by decide) hlarge] at h
        obtain ⟨c, rest, hcons⟩ := List.exists_cons_of_ne_nil (Nat.toDigits_ne_nil (n := n / 10) (b := 10))
        rw [hcons, List.cons_append] at h
        obtain ⟨rfl, -⟩ := List.cons.inj h
        have hzero := ih (n / 10) (by omega) hcons
        omega

/-- An integer that 64 bits hold is read from its digits. -/
theorem numeral?_toDigits {negative : Bool} {n : Nat} (h : n < significandBound) :
    numeral? negative (Nat.toDigits 10 n) = some (integer negative n, []) := by
  have hvalue := digitsValue_toDigits n
  have hall : ∀ c ∈ Nat.toDigits 10 n, c.isDigit = true := fun c hc =>
    isDigit_of_isDigits (isDigits_toDigits n) hc
  obtain ⟨c, rest, hcons⟩ := List.exists_cons_of_ne_nil (Nat.toDigits_ne_nil (n := n) (b := 10))
  rw [hcons] at hvalue hall
  rw [hcons, numeral?]
  split
  · next hzero =>
      subst hzero
      obtain rfl := eq_zero_of_toDigits hcons
      obtain rfl : rest = [] := (List.cons.inj hcons).2.symm
      rfl
  · have htaken : takeSignificand (digitValue c) rest = (n, []) := by
      have hfold : rest.foldl pushDigit (digitValue c) = n := by
        rw [← hvalue, digitsValue, List.foldl_cons, Nat.mul_zero, Nat.zero_add]
        rfl
      rw [takeSignificand_of_fits (fun d hd => hall d (List.mem_cons_of_mem _ hd)) (hfold ▸ h), hfold]
    rw [if_pos (hall c List.mem_cons_self)]
    simp only [htaken]
    rfl

end ClosedSql.Json
