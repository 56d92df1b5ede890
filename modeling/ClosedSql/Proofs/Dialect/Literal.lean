import ClosedSql.Config
import ClosedSql.Proofs.Dialect.Respelling

/-!
# Literals for the current time

Settings are refused when their literal holds one of the words that begin a spelling of the current
time. The words are looked for with their ASCII letters in any case, while spellings are recognised
under Unicode's folding, where a long s counts as an s. Nor does the check look at how the literal
ends and which quotes it opens: the end of a literal may begin a word that the text after it
completes, and a quote may be closed by one that opened another text. A literal is insulated when
neither can happen.
-/

namespace ClosedSql.Dialect

open Text

/-- The words that begin the spellings of the current time. -/
def nowWords : List (List Char) :=
  ["current_timestamp".toList, "datetime".toList]

theorem isAsciiWord_of_mem_nowWords {word : List Char} (h : word ∈ nowWords) :
    ∀ w ∈ word, isAsciiWord w = true := by
  revert word
  decide

/-- Nowhere in the text one of the words is read. -/
def Unspelled (text : List Char) : Prop :=
  ∀ front tail, text = front ++ tail → ∀ word ∈ nowWords, afterWord? word tail = none

/-- What holds no word for the current time holds none in any part. -/
theorem Unspelled.of_append {before text after : List Char}
    (h : Unspelled (before ++ (text ++ after))) : Unspelled text := by
  intro front tail happend word hword
  cases hread : afterWord? word tail with
  | none => rfl
  | some rest =>
      have hnone := h (before ++ front) (tail ++ after) (by simp [happend]) word hword
      rw [afterWord?_append hread] at hnone
      cases hnone

def lastWord (text : List Char) : List Char :=
  (text.reverse.takeWhile isWord).reverse

/-- A literal that stays apart from the text around it: one text in quotes, which is not an argument
of a call; or a text without quotes that begins with no mark of a call and does not end in the
beginning of one of the words. -/
inductive Insulated : List Char → Prop
  | quoted {quote : Char} {inner : List Char} (isQuote : IsQuote quote)
      (free : ∀ c ∈ inner, ¬IsQuote c)
      (noArgument : quote = '\'' → ¬IsArgument (inner.map fold)) :
      Insulated (quote :: (inner ++ [quote]))
  | bare {literal : List Char} (free : ∀ c ∈ literal, ¬IsQuote c)
      (mark : ∀ c rest, trimStart literal = c :: rest → ¬IsCallMark c)
      (ending : lastWord literal = [] ∨ ∀ word ∈ nowWords, ¬(lastWord literal).map fold <+: word) :
      Insulated literal

/-! ## No call goes on with an insulated literal -/

/-- A text in quotes is read as an argument only if it is one. -/
theorem isArgument_of_afterWord? {word inner rest tail : List Char} (hword : IsArgument word)
    (hinner : '\'' ∉ inner)
    (h : afterWord? (word ++ ['\'']) (inner ++ '\'' :: rest) = some tail) :
    IsArgument (inner.map fold) := by
  have hfree : '\'' ∉ word := by
    rcases hword with rfl | rfl | rfl <;> decide
  obtain ⟨rfl, -⟩ := afterWord?_span hfree hinner h
  obtain ⟨front, happend, hfold⟩ := exists_append_of_afterWord? h
  have hfront : front = inner ++ ['\''] := by
    rw [List.append_cons] at happend
    exact (List.append_cancel_right happend).symm
  rw [hfront, List.map_append] at hfold
  have hsame : inner.map fold = word := List.append_inj_left' hfold rfl
  rwa [hsame]

/-- An insulated literal blocks every call around it. -/
theorem Insulated.blocks {literal : List Char} (h : Insulated literal)
    (hshown : trimStart literal ≠ []) : Blocks literal := by
  cases h with
  | @quoted quote inner isQuote free noArgument =>
      refine ⟨⟨quote, _, trimStart_cons_of_isQuote isQuote _, ?_⟩, ?_, ?_⟩
      · rcases isQuote with rfl | rfl <;> decide
      · intro word hword rest
        rw [List.cons_append, trimStart_cons_of_isQuote isQuote, List.append_assoc]
        cases hread : afterWord? ('\'' :: (word ++ ['\''])) (quote :: (inner ++ ([quote] ++ rest)))
          with
        | none => rfl
        | some tail =>
            obtain ⟨c, text, heq, hfold, hargument⟩ := exists_cons_of_afterWord? hread
            cases heq
            obtain rfl : quote = '\'' := eq_of_fold (by decide) hfold
            have hinner : '\'' ∉ inner := fun hmem => free _ hmem (.inl rfl)
            exact absurd (isArgument_of_afterWord? hword hinner hargument) (noArgument rfl)
      · rcases isQuote with rfl | rfl
        · exact .inr rfl
        · refine .inl fun hmem => ?_
          have hinner : '\'' ∈ inner := by simpa using hmem
          exact free _ hinner (.inl rfl)
  | bare free mark ending =>
      obtain ⟨c, tail, htrim⟩ := List.exists_cons_of_ne_nil hshown
      refine ⟨⟨c, tail, htrim, mark c tail htrim⟩, ?_, .inl fun hmem => free _ hmem (.inl rfl)⟩
      intro word hword rest
      have hc : c ∈ literal := (List.dropWhile_suffix _).mem (htrim ▸ List.mem_cons_self)
      rw [trimStart_append_of_cons htrim]
      refine afterWord?_cons_of_ne (fun hfold => ?_) _ _
      exact free c hc (.inl (eq_of_fold (by decide) hfold))

/-! ## No word goes on from an insulated literal -/

/-- A word that is read from two texts is read from the first, or begins with all of it. -/
theorem afterWord?_append_cases {word text more rest : List Char}
    (h : afterWord? word (text ++ more) = some rest) :
    afterWord? word text ≠ none ∨ ∃ w letters, word = text.map fold ++ w :: letters ∧
      afterWord? (w :: letters) more = some rest := by
  induction text generalizing word with
  | nil =>
      cases word with
      | nil => exact .inl (Option.some_ne_none _)
      | cons w letters => exact .inr ⟨w, letters, rfl, h⟩
  | cons c text ih =>
      cases word with
      | nil => exact .inl (Option.some_ne_none _)
      | cons w word =>
          obtain ⟨_, _, heq, hfold, hread⟩ := exists_cons_of_afterWord? h
          cases heq
          rcases ih hread with hinside | ⟨v, letters, rfl, hmore⟩
          · exact .inl (by rwa [afterWord?_cons_of_eq hfold])
          · exact .inr ⟨v, letters, by rw [List.map_cons, hfold, List.cons_append], hmore⟩

/-- A spelling of the current time begins with one of the words. -/
theorem exists_word_of_nowSpelling? {text rest : List Char} (h : nowSpelling? text = some rest) :
    ∃ word ∈ nowWords, afterWord? word text ≠ none := by
  rw [nowSpelling?] at h
  split at h
  · next found hfound =>
      refine ⟨_, List.mem_cons_self, ?_⟩
      rw [hfound]
      exact Option.some_ne_none found
  · obtain ⟨found, hfound, -⟩ := Option.bind_eq_some_iff.1 h
    refine ⟨_, List.mem_cons_of_mem _ List.mem_cons_self, ?_⟩
    rw [hfound]
    exact Option.some_ne_none found

/-- A spelling that begins in a text without spellings begins with all that is left of the text. -/
theorem Unspelled.exists_of_nowSpelling? {text front tail more rest : List Char}
    (h : Unspelled text) (happend : text = front ++ tail)
    (hspelling : nowSpelling? (tail ++ more) = some rest) :
    ∃ w letters, tail.map fold ++ w :: letters ∈ nowWords ∧
      afterWord? (w :: letters) more ≠ none := by
  obtain ⟨word, hword, hread⟩ := exists_word_of_nowSpelling? hspelling
  obtain ⟨found, hfound⟩ := Option.ne_none_iff_exists'.1 hread
  rcases afterWord?_append_cases hfound with hinside | ⟨w, letters, rfl, hmore⟩
  · exact absurd (h front tail happend word hword) hinside
  · exact ⟨w, letters, hword, by rw [hmore]; exact Option.some_ne_none found⟩

/-- No spelling begins before a quote, except after it. -/
theorem Unspelled.nowSpelling?_quote {text front tail : List Char} (h : Unspelled text)
    (happend : text = front ++ tail) {quote : Char} (isQuote : IsQuote quote) (rest : List Char) :
    nowSpelling? (tail ++ quote :: rest) = none := by
  cases hspelling : nowSpelling? (tail ++ quote :: rest) with
  | none => rfl
  | some found =>
      obtain ⟨w, letters, hword, hmore⟩ := h.exists_of_nowSpelling? happend hspelling
      have hw : isAsciiWord w = true :=
        isAsciiWord_of_mem_nowWords hword w (List.mem_append_right _ List.mem_cons_self)
      refine absurd (afterWord?_cons_of_ne (fun hfold => ?_) letters rest) hmore
      exact not_isQuote_of_isWord (isWord_of_fold hw hfold) isQuote

/-- The word that a text ends in reaches back to where no word goes on. -/
theorem lastWord_append {front tail : List Char} (hfront : goesOn false front = false)
    (htail : ∀ c ∈ tail, isWord c = true) : lastWord (front ++ tail) = tail := by
  have hnone : front.reverse.takeWhile isWord = [] := by
    rcases List.eq_nil_or_concat front with rfl | ⟨before, c, rfl⟩
    · rfl
    · have hc : isWord c = false := by
        simpa [goesOn] using hfront
      rw [List.concat_eq_append, List.reverse_append]
      exact List.takeWhile_cons_of_neg (by simp [hc])
  have hall : ∀ c ∈ tail.reverse, isWord c = true := fun c hc => htail c (List.mem_reverse.1 hc)
  rw [lastWord, List.reverse_append, List.takeWhile_append_of_pos hall, hnone, List.append_nil,
    List.reverse_reverse]

/-- No spelling begins in a literal that does not end in the beginning of one of the words. -/
theorem Unspelled.nowSpelling?_ending {literal : List Char} (h : Unspelled literal)
    (hending : lastWord literal = [] ∨ ∀ word ∈ nowWords, ¬(lastWord literal).map fold <+: word)
    {front : List Char} {c : Char} {tail : List Char} (happend : literal = front ++ c :: tail)
    (hfront : goesOn false front = false) (more : List Char) :
    nowSpelling? (c :: tail ++ more) = none := by
  cases hspelling : nowSpelling? (c :: tail ++ more) with
  | none => rfl
  | some found =>
      obtain ⟨w, letters, hword, -⟩ := h.exists_of_nowSpelling? happend hspelling
      have htail : ∀ d ∈ c :: tail, isWord d = true := by
        intro d hd
        exact isWord_of_fold (isAsciiWord_of_mem_nowWords hword _
          (List.mem_append_left _ (List.mem_map_of_mem hd))) rfl
      have hlast : lastWord literal = c :: tail := by
        rw [happend, lastWord_append hfront htail]
      rw [hlast] at hending
      rcases hending with hempty | hno
      · cases hempty
      · exact absurd (List.prefix_append _ _) (hno _ hword)

/-! ## Literals that settings accept -/

theorem occurs_append (pattern front rest : List Char) :
    occurs pattern (front ++ (pattern ++ rest)) = true := by
  induction front with
  | nil =>
      cases pattern with
      | nil => cases rest <;> rfl
      | cons c pattern =>
          have hprefix : (c :: pattern).isPrefixOf (c :: (pattern ++ rest)) = true :=
            List.isPrefixOf_iff_prefix.2 (List.prefix_append (c :: pattern) rest)
          rw [List.nil_append, List.cons_append, occurs, hprefix, Bool.true_or]
  | cons c front ih => rw [List.cons_append, occurs, ih, Bool.or_true]

/-- Blanks are trimmed from around what is not blank. -/
theorem exists_trim_append {front text rest : List Char} (hne : text ≠ [])
    (htext : ∀ c ∈ text, isBlank c = false) :
    ∃ before after, trim (front ++ (text ++ rest)) = before ++ (text ++ after) := by
  -- the same for one end, which gives both because the other is reached by reversing
  have hend : ∀ (front text rest : List Char), text ≠ [] → (∀ c ∈ text, isBlank c = false) →
      ∃ before, (front ++ (text ++ rest)).dropWhile isBlank = before ++ (text ++ rest) := by
    intro front text rest hne htext
    obtain ⟨c, text, rfl⟩ := List.exists_cons_of_ne_nil hne
    have hc : ¬isBlank c = true := by simp [htext c List.mem_cons_self]
    rw [List.dropWhile_append]
    split
    · exact ⟨[], List.dropWhile_cons_of_neg hc⟩
    · exact ⟨_, rfl⟩
  obtain ⟨before, hbefore⟩ := hend front text rest hne htext
  obtain ⟨after, hafter⟩ := hend rest.reverse text.reverse before.reverse (by simpa using hne)
    (fun c hc => htext c (List.mem_reverse.1 hc))
  refine ⟨before, after.reverse, ?_⟩
  rw [trim, trimStart, hbefore, trimEnd, List.reverse_append, List.reverse_append,
    List.append_assoc, hafter]
  simp

/-- A character that folds to a letter of the words is that letter in some case, or a long s. -/
theorem letter_of_fold {word : List Char} (hword : word ∈ nowWords) {c : Char}
    (hc : c ≠ '\u017f') (h : fold c ∈ word) :
    isAsciiWord c = true ∧ c.toUpper = (fold c).toUpper := by
  rcases fold_cases c with hsame | hupper | hlong | hkelvin
  · have hascii := isAsciiWord_of_mem_nowWords hword _ h
    rw [hsame] at hascii ⊢
    exact ⟨hascii, rfl⟩
  · have hascii : isAsciiWord c = true := isAsciiWord_iff.2 (.inl hupper)
    rw [fold_of_isAsciiWord hascii, toUpper_toLower_of_isUpper hupper]
    exact ⟨hascii, rfl⟩
  · exact absurd hlong hc
  · subst hkelvin
    revert word
    decide

/-- One of the words that is read somewhere in a text is found by the check, unless the text holds a
long s. -/
theorem mentionsNow_of_afterWord? {front tail rest word : List Char} (hword : word ∈ nowWords)
    (hlong : '\u017f' ∉ front ++ tail) (h : afterWord? word tail = some rest) :
    Config.mentionsNow (trim (front ++ tail)) = true := by
  obtain ⟨letters, rfl, rfl⟩ := exists_append_of_afterWord? h
  have hletters : ∀ c ∈ letters, isAsciiWord c = true ∧ c.toUpper = (fold c).toUpper := by
    intro c hc
    refine letter_of_fold hword (fun heq => hlong ?_) (List.mem_map_of_mem hc)
    rw [← heq]
    exact List.mem_append_right _ (List.mem_append_left _ hc)
  have hne : letters ≠ [] := by
    rintro rfl
    revert hword
    decide
  obtain ⟨before, after, htrim⟩ : ∃ before after,
      trim (front ++ (letters ++ rest)) = before ++ (letters ++ after) :=
    exists_trim_append hne fun c hc => isBlank_of_isAsciiWord (hletters c hc).1
  have hupper : upper letters = upper (letters.map fold) := by
    rw [upper, upper, List.map_map]
    exact List.map_congr_left fun c hc => (hletters c hc).2
  have hoccurs : occurs (upper (letters.map fold)) (upper (trim (front ++ (letters ++ rest)))) =
      true := by
    rw [htrim, ← hupper, upper, upper, List.map_append, List.map_append]
    exact occurs_append _ _ _
  rw [Config.mentionsNow, Bool.or_eq_true]
  simp only [nowWords, List.mem_cons, List.not_mem_nil, or_false] at hword
  rcases hword with hstamp | hcall
  · rw [hstamp] at hoccurs
    exact .inl hoccurs
  · rw [hcall] at hoccurs
    exact .inr hoccurs

/-- What the settings check of a literal. -/
theorem literal_of_validate {config : Config} (h : config.validate = .ok config) :
    trimStart config.nowLiteral.toList ≠ [] ∧
      Config.mentionsNow (trim config.nowLiteral.toList) = false := by
  have hfault : config.fault? = none := by
    rw [Config.validate] at h
    split at h
    · cases h
    · assumption
  rw [Config.fault?] at hfault
  split at hfault
  · cases hfault
  next hshown =>
    split at hfault
    · cases hfault
    next hmentions =>
      refine ⟨?_, Bool.eq_false_iff.2 hmentions⟩
      intro hblank
      rw [trim, hblank] at hshown
      exact hshown rfl

/-- The literal of accepted settings spells the current time nowhere, unless it holds a long s. -/
theorem unspelled_of_validate {config : Config} (h : config.validate = .ok config)
    (hlong : '\u017f' ∉ config.nowLiteral.toList) : Unspelled config.nowLiteral.toList := by
  intro front tail happend word hword
  cases hread : afterWord? word tail with
  | none => rfl
  | some rest =>
      have hmentions := (literal_of_validate h).2
      rw [happend] at hlong hmentions
      rw [mentionsNow_of_afterWord? hword hlong hread] at hmentions
      cases hmentions

end ClosedSql.Dialect
