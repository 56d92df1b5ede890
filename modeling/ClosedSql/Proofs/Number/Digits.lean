import ClosedSql.Number.Reading
import ClosedSql.Proofs.Token.Lexeme

/-!
# Numbers in decimal digits

A number written in decimal digits, with zeros in front or without, is read as that number.
-/

namespace ClosedSql

open Number

theorem isDigits_toDigits (n : Nat) : isDigits (Nat.toDigits 10 n) = true := by
  rw [isDigits, Bool.and_eq_true, List.all_eq_true]
  refine ⟨by simp [Nat.toDigits_ne_nil], ?_⟩
  intro c hc
  exact Nat.isDigit_of_mem_toDigits (by decide) (by decide) hc

/-- A number is read back from its digits. -/
theorem digitsValue_toDigits (n : Nat) : digitsValue (Nat.toDigits 10 n) = n :=
  Nat.ofDigitChars_eq_foldl.symm.trans Nat.ofDigitChars_ten_toDigits

theorem toList_toString_natCast (n : Nat) : (toString (n : Int)).toList = Nat.toDigits 10 n := by
  simp [toString, Int.repr]

theorem toList_toString_negSucc (n : Nat) :
    (toString (Int.negSucc n)).toList = '-' :: Nat.toDigits 10 (n + 1) := by
  simp [toString, Int.repr]

namespace Number

/-! ## Zeros in front -/

theorem digitsValue_append (digits more : List Char) :
    digitsValue (digits ++ more) =
      more.foldl (fun total c => 10 * total + digitValue c) (digitsValue digits) :=
  List.foldl_append

theorem digitsValue_replicate_zero (count : Nat) : digitsValue (List.replicate count '0') = 0 := by
  induction count with
  | zero => rfl
  | succ count ih =>
      rw [List.replicate_succ', digitsValue_append, ih]
      rfl

/-- Zeros in front do not change what digits spell. -/
theorem digitsValue_zeros_append (count : Nat) (digits : List Char) :
    digitsValue (List.replicate count '0' ++ digits) = digitsValue digits := by
  rw [digitsValue_append, digitsValue_replicate_zero]
  rfl

theorem isDigit_of_mem_zeros_append {count n : Nat} {c : Char}
    (h : c ∈ List.replicate count '0' ++ Nat.toDigits 10 n) : c.isDigit = true := by
  rcases List.mem_append.1 h with hzero | hdigit
  · obtain rfl := List.eq_of_mem_replicate hzero
    rfl
  · exact isDigit_of_isDigits (isDigits_toDigits n) hdigit

/-! ## Signs -/

/-- A text that begins with a digit has no sign. -/
theorem readSign_of_isDigit {c : Char} (h : c.isDigit = true) (rest : List Char) :
    readSign (c :: rest) = (false, c :: rest) := by
  rw [readSign.eq_def]
  split
  · next heq =>
      obtain ⟨rfl, -⟩ := List.cons.inj heq
      cases h
  · next heq =>
      obtain ⟨rfl, -⟩ := List.cons.inj heq
      cases h
  · rfl

end Number

/-! ## Texts without blanks -/

namespace Text

theorem isBlank_of_isDigit {c : Char} (h : c.isDigit = true) : isBlank c = false :=
  isBlank_of_isAsciiWord (isAsciiWord_of_isDigit h)

theorem trimStart_of_not_isBlank {text : List Char} (h : ∀ c ∈ text.head?, isBlank c = false) :
    trimStart text = text := by
  cases text with
  | nil => rfl
  | cons c rest => exact List.dropWhile_cons_of_neg (by simp [h c rfl])

/-- A text without blanks is trimmed to itself. -/
theorem trim_of_not_isBlank {text : List Char} (h : ∀ c ∈ text, isBlank c = false) :
    trim text = text := by
  have hreverse : text.reverse.dropWhile isBlank = text.reverse :=
    trimStart_of_not_isBlank fun c hc => h c (List.mem_reverse.1 (List.mem_of_mem_head? hc))
  rw [trim, trimStart_of_not_isBlank fun c hc => h c (List.mem_of_mem_head? hc), trimEnd, hreverse,
    List.reverse_reverse]

end Text

end ClosedSql
