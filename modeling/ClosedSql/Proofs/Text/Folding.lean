import ClosedSql.Text.Blank
import ClosedSql.Text.Case
import ClosedSql.Text.Word

/-!
# Words in any case

A word that is recognised whatever its case is a word of ASCII letters. Every character that folds
to such a letter belongs to words, and every other character folds to itself, so that a mark or a
quote is recognised as it is.
-/

namespace ClosedSql.Text

/-- What holds of every character of a text is decided along the text, not over all characters. -/
instance decidableForallMem (text : List Char) (p : Char → Prop) [DecidablePred p] :
    Decidable (∀ c ∈ text, p c) :=
  List.decidableBAll p text

/-- Characters of different kinds are different. -/
theorem ne_of_true_of_false {p : Char → Bool} {c d : Char} (hc : p c = true) (hd : p d = false) :
    c ≠ d := by
  rintro rfl
  rw [hc] at hd
  cases hd

/-! ## Blanks before a text -/

theorem trimStart_cons_of_isBlank {c : Char} (h : isBlank c = true) (rest : List Char) :
    trimStart (c :: rest) = trimStart rest :=
  List.dropWhile_cons_of_pos h

theorem trimStart_cons_of_not_isBlank {c : Char} (h : ¬isBlank c = true) (rest : List Char) :
    trimStart (c :: rest) = c :: rest :=
  List.dropWhile_cons_of_neg h

/-- Blanks are removed from the front of a text whatever stands behind it. -/
theorem trimStart_append_of_cons {c : Char} {text rest : List Char}
    (h : trimStart text = c :: rest) (more : List Char) :
    trimStart (text ++ more) = c :: (rest ++ more) := by
  have hshown : text.dropWhile isBlank = c :: rest := h
  rw [trimStart, List.dropWhile_append, hshown, List.isEmpty_cons, if_neg Bool.false_ne_true,
    List.cons_append]

/-! ## ASCII letters and digits -/

theorem isUpper_iff {c : Char} : c.isUpper = true ↔ 65 ≤ c.toNat ∧ c.toNat ≤ 90 := by
  change decide (c.val ≥ 'A'.val ∧ c.val ≤ 'Z'.val) = true ↔ _
  rw [decide_eq_true_iff, ge_iff_le, UInt32.le_iff_toNat_le, UInt32.le_iff_toNat_le]
  exact Iff.rfl

theorem isLower_iff {c : Char} : c.isLower = true ↔ 97 ≤ c.toNat ∧ c.toNat ≤ 122 := by
  change (decide (c.val ≥ 'a'.val) && decide (c.val ≤ 'z'.val)) = true ↔ _
  rw [Bool.and_eq_true, decide_eq_true_iff, decide_eq_true_iff, ge_iff_le,
    UInt32.le_iff_toNat_le, UInt32.le_iff_toNat_le]
  exact Iff.rfl

theorem isAlpha_iff {c : Char} : c.isAlpha = true ↔ c.isUpper = true ∨ c.isLower = true :=
  Bool.or_eq_true_iff

/-- The word characters of ASCII are its letters, its digits and the underscore. -/
theorem isAsciiWord_iff {c : Char} :
    isAsciiWord c = true ↔ c.isUpper = true ∨ c.isLower = true ∨ c.isDigit = true ∨ c = '_' := by
  rw [isAsciiWord, Bool.or_eq_true, beq_iff_eq,
    show c.isAlphanum = (c.isAlpha || c.isDigit) from rfl, Bool.or_eq_true, isAlpha_iff, or_assoc,
    or_assoc]

theorem isAsciiWord_of_isAlpha {c : Char} (h : c.isAlpha = true) : isAsciiWord c = true := by
  rw [isAsciiWord_iff]
  rcases isAlpha_iff.1 h with hupper | hlower
  · exact .inl hupper
  · exact .inr (.inl hlower)

theorem isAsciiWord_of_isDigit {c : Char} (h : c.isDigit = true) : isAsciiWord c = true :=
  isAsciiWord_iff.2 (.inr (.inr (.inl h)))

theorem not_isAlpha_of_isDigit {c : Char} (h : c.isDigit = true) : ¬c.isAlpha = true := by
  have hdigit : 48 ≤ c.toNat ∧ c.toNat ≤ 57 := Char.isDigit_iff_toNat.1 h
  intro halpha
  rcases isAlpha_iff.1 halpha with hupper | hlower
  · have hbound := isUpper_iff.1 hupper
    omega
  · have hbound := isLower_iff.1 hlower
    omega

theorem toNat_of_isAsciiWord {c : Char} (h : isAsciiWord c = true) :
    48 ≤ c.toNat ∧ c.toNat ≤ 122 := by
  rcases isAsciiWord_iff.1 h with h | h | h | rfl
  · have hbound := isUpper_iff.1 h
    omega
  · have hbound := isLower_iff.1 h
    omega
  · have hbound : 48 ≤ c.toNat ∧ c.toNat ≤ 57 := Char.isDigit_iff_toNat.1 h
    omega
  · decide

theorem isWord_of_isAsciiWord {c : Char} (h : isAsciiWord c = true) : isWord c = true := by
  have hbound := toNat_of_isAsciiWord h
  rw [isWord_of_ascii (by omega), h]

theorem isBlank_of_isAsciiWord {c : Char} (h : isAsciiWord c = true) : isBlank c = false := by
  have hbound := toNat_of_isAsciiWord h
  simp [isBlank]
  omega

/-! ## Folding -/

theorem toLower_of_not_isUpper {c : Char} (h : ¬c.isUpper = true) : c.toLower = c := by
  refine dif_neg fun hbound => h ?_
  rw [isUpper_iff]
  exact ⟨UInt32.le_iff_toNat_le.1 hbound.1, UInt32.le_iff_toNat_le.1 hbound.2⟩

theorem isLower_toLower_of_isUpper {c : Char} (h : c.isUpper = true) :
    c.toLower.isLower = true := by
  obtain ⟨hlow, hhigh⟩ := isUpper_iff.1 h
  have hbound : 'A'.val ≤ c.val ∧ c.val ≤ 'Z'.val :=
    ⟨UInt32.le_iff_toNat_le.2 hlow, UInt32.le_iff_toNat_le.2 hhigh⟩
  have hlower : c.toLower.val = c.val + 32 := congrArg Char.val (dif_pos hbound)
  have hsum : c.toLower.toNat = c.toNat + 32 := by
    change c.toLower.val.toNat = c.val.toNat + 32
    rw [hlower, UInt32.toNat_add]
    exact Nat.mod_eq_of_lt (Nat.lt_of_le_of_lt (Nat.add_le_add_right hhigh _) (by decide))
  rw [isLower_iff]
  omega

theorem toUpper_toLower_of_isUpper {c : Char} (h : c.isUpper = true) :
    c.toLower.toUpper = c.toUpper := by
  obtain ⟨hlow, hhigh⟩ := isUpper_iff.1 h
  have hcapitals : ∀ n < 91, 65 ≤ n →
      (Char.ofNat n).toLower.toUpper = (Char.ofNat n).toUpper := by
    decide
  have hc := hcapitals c.toNat (by omega) hlow
  rwa [Char.ofNat_toNat] at hc

/-- Besides the capitals, two characters beyond ASCII change when they are folded. -/
theorem fold_cases (c : Char) :
    fold c = c ∨ c.isUpper = true ∨ c = '\u017f' ∨ c = '\u212a' := by
  rw [fold]
  split
  · next h => exact .inr (.inr (.inl (by simpa using h)))
  · split
    · next h => exact .inr (.inr (.inr (by simpa using h)))
    · by_cases hupper : c.isUpper = true
      · exact .inr (.inl hupper)
      · exact .inl (toLower_of_not_isUpper hupper)

/-- Folding a word character of ASCII is putting it in lower case. -/
theorem fold_of_isAsciiWord {c : Char} (h : isAsciiWord c = true) : fold c = c.toLower := by
  rw [fold, if_neg, if_neg]
  · intro heq
    rw [beq_iff_eq.1 heq] at h
    exact absurd h (by decide)
  · intro heq
    rw [beq_iff_eq.1 heq] at h
    exact absurd h (by decide)

/-- What folds to a word character is one. -/
theorem isWord_of_fold {c w : Char} (hw : isAsciiWord w = true) (h : fold c = w) :
    isWord c = true := by
  rcases fold_cases c with hc | hc | rfl | rfl
  · rw [← hc, h]
    exact isWord_of_isAsciiWord hw
  · exact isWord_of_isAsciiWord (isAsciiWord_iff.2 (.inl hc))
  · decide
  · decide +kernel

/-- Only letters change when they are folded. -/
theorem eq_of_fold {c w : Char} (hw : isAsciiWord w = false) (h : fold c = w) : c = w := by
  rcases fold_cases c with hc | hc | rfl | rfl
  · exact hc.symm.trans h
  · subst h
    have hlower : isAsciiWord c.toLower = true :=
      isAsciiWord_iff.2 (.inr (.inl (isLower_toLower_of_isUpper hc)))
    rw [fold_of_isAsciiWord (isAsciiWord_iff.2 (.inl hc)), hlower] at hw
    cases hw
  · subst h
    exact absurd hw (by decide)
  · subst h
    exact absurd hw (by decide)

theorem afterWord?_cons_of_ne {w c : Char} (h : fold c ≠ w) (word rest : List Char) :
    afterWord? (w :: word) (c :: rest) = none := by
  rw [afterWord?, if_neg (by simpa using h)]

theorem afterWord?_cons_of_eq {w c : Char} (h : fold c = w) (word rest : List Char) :
    afterWord? (w :: word) (c :: rest) = afterWord? word rest := by
  rw [afterWord?, if_pos (by simpa using h)]

theorem exists_cons_of_afterWord? {w : Char} {word text rest : List Char}
    (h : afterWord? (w :: word) text = some rest) :
    ∃ c tail, text = c :: tail ∧ fold c = w ∧ afterWord? word tail = some rest := by
  cases text with
  | nil => cases h
  | cons c tail =>
      rw [afterWord?] at h
      split at h
      · next hfold => exact ⟨c, tail, rfl, by simpa using hfold, h⟩
      · cases h

/-- A word is read from a text whatever stands behind it. -/
theorem afterWord?_append {word text rest : List Char} (h : afterWord? word text = some rest)
    (more : List Char) : afterWord? word (text ++ more) = some (rest ++ more) := by
  induction word generalizing text with
  | nil =>
      cases h
      rfl
  | cons w word ih =>
      obtain ⟨c, text, rfl, hfold, hread⟩ := exists_cons_of_afterWord? h
      rw [List.cons_append, afterWord?_cons_of_eq hfold]
      exact ih hread

/-- A long word is read as its beginning and then its end. -/
theorem exists_of_afterWord?_append {word more text rest : List Char}
    (h : afterWord? (word ++ more) text = some rest) :
    ∃ tail, afterWord? word text = some tail ∧ afterWord? more tail = some rest := by
  induction word generalizing text with
  | nil => exact ⟨text, rfl, h⟩
  | cons w word ih =>
      obtain ⟨c, text, rfl, hfold, hread⟩ := exists_cons_of_afterWord? h
      rw [afterWord?_cons_of_eq hfold]
      exact ih hread

/-- A word that is read folds from the front of the text. -/
theorem exists_append_of_afterWord? {word text rest : List Char}
    (h : afterWord? word text = some rest) :
    ∃ front, text = front ++ rest ∧ front.map fold = word := by
  induction word generalizing text with
  | nil =>
      cases h
      exact ⟨[], rfl, rfl⟩
  | cons w word ih =>
      obtain ⟨c, text, rfl, hfold, hread⟩ := exists_cons_of_afterWord? h
      obtain ⟨front, rfl, hfront⟩ := ih hread
      refine ⟨c :: front, rfl, ?_⟩
      rw [List.map_cons, hfold, hfront]

theorem suffix_of_afterWord? {word text rest : List Char} (h : afterWord? word text = some rest) :
    rest <:+ text := by
  obtain ⟨front, rfl, -⟩ := exists_append_of_afterWord? h
  exact List.suffix_append front rest

end ClosedSql.Text
