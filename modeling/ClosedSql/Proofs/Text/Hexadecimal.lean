import ClosedSql.Proofs.Number.Digits
import ClosedSql.Text.Uuid

/-!
# Hexadecimal texts

A number written in hexadecimal digits is read as that number, with zeros in front up to a width
it has room in. An identifier is read back from its text: the hyphens are where the reader looks
for them, and the digits between them are those of its number.
-/

namespace ClosedSql

open Number

namespace Text

theorem hexDigit?_digitChar : ∀ digit : Fin 16, hexDigit? (Nat.digitChar digit) = some digit.val := by
  decide

theorem isBlank_digitChar : ∀ digit : Fin 16, isBlank (Nat.digitChar digit) = false := by
  decide

/-- One more digit makes a number sixteen times as large, and adds itself. -/
theorem readHex?_append_digit {digits : List Char} {n digit : Nat} (h : readHex? digits = some n)
    (hdigit : digit < 16) : readHex? (digits ++ [Nat.digitChar digit]) = some (16 * n + digit) := by
  have hlast := hexDigit?_digitChar ⟨digit, hdigit⟩
  simp only at hlast
  rw [readHex?, List.foldlM_append, ← readHex?, h]
  change (some n).bind (fun total => [Nat.digitChar digit].foldlM _ total) = _
  simp [hlast]

theorem readHex?_replicate_zero (count : Nat) : readHex? (List.replicate count '0') = some 0 := by
  induction count with
  | zero => rfl
  | succ count ih =>
      rw [List.replicate_succ']
      exact readHex?_append_digit ih (Nat.zero_lt_succ 15)

/-- The digits of a number behind any number of zeros. -/
theorem readHex?_zeros_append (count n : Nat) :
    readHex? (List.replicate count '0' ++ Nat.toDigits 16 n) = some n := by
  induction n using Nat.strongRecOn with
  | ind n ih =>
      rcases Nat.lt_or_ge n 16 with hsmall | hlarge
      · rw [Nat.toDigits_of_lt_base hsmall, readHex?_append_digit (readHex?_replicate_zero count) hsmall]
        simp
      · rw [Nat.toDigits_of_base_le (by decide) hlarge, ← List.append_assoc,
          readHex?_append_digit (ih (n / 16) (Nat.div_lt_self (by omega) (by decide)))
            (Nat.mod_lt n (by decide)),
          Nat.div_add_mod]

/-- A number in hexadecimal digits is read back. -/
theorem readHex?_hexText (width n : Nat) : readHex? (hexText width n) = some n :=
  readHex?_zeros_append _ n

/-- A number that fits has exactly as many digits as asked for. -/
theorem length_hexText {width n : Nat} (hwidth : 0 < width) (h : n < twoTo (4 * width)) :
    (hexText width n).length = width := by
  have hsize : twoTo (4 * width) = 16 ^ width := Nat.pow_mul 2 4 width
  have hlength := (Nat.length_toDigits_le_iff (by decide) hwidth).2 (hsize ▸ h)
  rw [hexText, List.length_append, List.length_replicate]
  omega

/-- A number with all its digits at the head of a text. -/
theorem takeHex?_hexText {width n : Nat} (hwidth : 0 < width) (h : n < twoTo (4 * width))
    (rest : List Char) : takeHex? width (hexText width n ++ rest) = some (n, rest) := by
  have hlength := length_hexText hwidth h
  have htake : (hexText width n ++ rest).take width = hexText width n := List.take_left' hlength
  have hdrop : (hexText width n ++ rest).drop width = rest := List.drop_left' hlength
  rw [takeHex?, htake, hdrop, if_pos hlength, readHex?_hexText, Option.map_some]

theorem exists_digit_of_mem_hexText {width n : Nat} {c : Char} (h : c ∈ hexText width n) :
    ∃ digit : Fin 16, c = Nat.digitChar digit := by
  rcases List.mem_append.1 h with hzero | hdigit
  · exact ⟨0, List.eq_of_mem_replicate hzero⟩
  · clear h
    induction n using Nat.strongRecOn with
    | ind n ih =>
        rcases Nat.lt_or_ge n 16 with hsmall | hlarge
        · rw [Nat.toDigits_of_lt_base hsmall, List.mem_singleton] at hdigit
          exact ⟨⟨n, hsmall⟩, hdigit⟩
        · rw [Nat.toDigits_of_base_le (by decide) hlarge, List.mem_append, List.mem_singleton] at hdigit
          rcases hdigit with hdigit | hdigit
          · exact ih (n / 16) (Nat.div_lt_self (by omega) (by decide)) hdigit
          · exact ⟨⟨n % 16, Nat.mod_lt n (by decide)⟩, hdigit⟩

end Text

namespace Uuid

/-- The hyphens of five groups are found where they stand. -/
theorem ofHyphenated?_groups {first second third fourth fifth : List Char} (hfirst : first.length = 8)
    (hsecond : second.length = 4) (hthird : third.length = 4) (hfourth : fourth.length = 4) :
    ofHyphenated? (first ++ '-' :: second ++ '-' :: third ++ '-' :: fourth ++ '-' :: fifth) =
      ofDigits? (first ++ second ++ third ++ fourth ++ fifth) := by
  have hdrop8 : (first ++ '-' :: second ++ '-' :: third ++ '-' :: fourth ++ '-' :: fifth).drop 8 =
      '-' :: (second ++ ('-' :: third ++ '-' :: fourth ++ '-' :: fifth)) := by
    simp [← hfirst]
  have hdrop13 : (first ++ '-' :: second ++ '-' :: third ++ '-' :: fourth ++ '-' :: fifth).drop 13 =
      '-' :: (third ++ ('-' :: fourth ++ '-' :: fifth)) := by
    rw [← List.drop_drop (i := 5) (j := 8), hdrop8]
    simp [← hsecond]
  have hdrop18 : (first ++ '-' :: second ++ '-' :: third ++ '-' :: fourth ++ '-' :: fifth).drop 18 =
      '-' :: (fourth ++ ('-' :: fifth)) := by
    rw [← List.drop_drop (i := 5) (j := 13), hdrop13]
    simp [← hthird]
  have hdrop23 : (first ++ '-' :: second ++ '-' :: third ++ '-' :: fourth ++ '-' :: fifth).drop 23 =
      '-' :: fifth := by
    rw [← List.drop_drop (i := 5) (j := 18), hdrop18]
    simp [← hfourth]
  have htake8 : (first ++ '-' :: second ++ '-' :: third ++ '-' :: fourth ++ '-' :: fifth).take 8 =
      first := by
    simp [← hfirst]
  simp only [ofHyphenated?, hdrop8, hdrop13, hdrop18, hdrop23, htake8, List.take_left' hsecond,
    List.take_left' hthird, List.take_left' hfourth]

/-- The five groups of an identifier are all its digits. -/
theorem groups_append (digits : List Char) :
    digits.take 8 ++ (digits.drop 8).take 4 ++ (digits.drop 12).take 4 ++ (digits.drop 16).take 4 ++
      digits.drop 20 = digits := by
  rw [List.append_assoc, List.append_assoc, List.append_assoc,
    ← List.drop_drop (i := 4) (j := 16), List.take_append_drop,
    ← List.drop_drop (i := 4) (j := 12), List.take_append_drop,
    ← List.drop_drop (i := 4) (j := 8), List.take_append_drop, List.take_append_drop]

theorem length_digits (id : Uuid) : (Text.hexText 32 id.number.toNat).length = 32 :=
  Text.length_hexText (by decide) id.number.isLt

/-- The text of an identifier has thirty-two digits and four hyphens. -/
theorem length_text (id : Uuid) : id.text.length = 36 := by
  simp [text, length_digits]

/-- An identifier is read back from its text. -/
theorem ofText?_text (id : Uuid) : ofText? id.text = some id := by
  have hlength := length_digits id
  rw [ofText?, length_text]
  simp only [text]
  rw [ofHyphenated?_groups (by simp [hlength]) (by simp [hlength]) (by simp [hlength])
    (by simp [hlength]), groups_append, ofDigits?, if_pos hlength, Text.readHex?_hexText,
    Option.map_some, BitVec.ofNat_toNat, BitVec.setWidth_eq]

/-- No blank stands in the text of an identifier. -/
theorem trim_text (id : Uuid) : Text.trim id.text = id.text := by
  have hdigit : ∀ c ∈ Text.hexText 32 id.number.toNat, Text.isBlank c = false := by
    intro c hc
    obtain ⟨digit, rfl⟩ := Text.exists_digit_of_mem_hexText hc
    exact Text.isBlank_digitChar digit
  apply Text.trim_of_not_isBlank
  intro c hc
  simp only [text, List.mem_append, List.mem_cons] at hc
  rcases hc with ((((hc | rfl | hc) | rfl | hc) | rfl | hc) | rfl | hc)
  · exact hdigit c (List.mem_of_mem_take hc)
  · rfl
  · exact hdigit c (List.mem_of_mem_drop (List.mem_of_mem_take hc))
  · rfl
  · exact hdigit c (List.mem_of_mem_drop (List.mem_of_mem_take hc))
  · rfl
  · exact hdigit c (List.mem_of_mem_drop (List.mem_of_mem_take hc))
  · rfl
  · exact hdigit c (List.mem_of_mem_drop hc)

end Uuid

end ClosedSql
