import ClosedSql.Proofs.Dialect.Spans
import ClosedSql.Proofs.Token.Layout

/-!
# Tokens under both replacements

A token as written is passed over as a whole: it is kept, unless it is a word that begins a
spelling of the current time or a zero or one that stands for a truth value. What either
replacement knows of the text before is then the last character of the token.
-/

namespace ClosedSql

open Text Dialect

namespace Token

def endsInWord (token : Token) : Bool :=
  token.chars.getLast?.any isWord

def opensValue (token : Token) : Bool :=
  beginsValue token.chars.getLast?

theorem isWord_delimiters : ∀ c ∈ delimiters, isWord c = false := by
  decide

/-- A word could go on after a word. -/
theorem endsInWord_word {text : String} (h : isIdentifier text.toList = true) :
    (word text).endsInWord = true := by
  obtain ⟨c, tail, hchars, hc, htail⟩ := exists_cons_of_isIdentifier h
  have hall : ∀ d ∈ c :: tail, isAsciiWord d = true :=
    List.forall_mem_cons.2 ⟨hc.isAsciiWord, htail⟩
  have hlast := List.getLast?_eq_some_getLast (List.cons_ne_nil c tail)
  rw [endsInWord, chars, hchars, hlast]
  exact isWord_of_isAsciiWord (hall _ (List.getLast_mem _))

end Token

namespace Dialect

open Token

/-! ## Texts in quotes -/

/-- What passes over spans passes over texts in quotes, whose doubled quotes end one span and
begin the next; `mark` is what it makes of each character that it passes. -/
theorem enquote_append_of_span {α : Type} (mark : Char → α) {quote : Char}
    {f g : List Char → List α}
    (hf : ∀ inner rest, quote ∉ inner →
      f (quote :: (inner ++ quote :: rest)) = (quote :: (inner ++ [quote])).map mark ++ g rest)
    (hg : ∀ inner rest, quote ∉ inner →
      g (quote :: (inner ++ quote :: rest)) = (quote :: (inner ++ [quote])).map mark ++ g rest)
    (text rest : List Char) :
    f (enquote quote text ++ rest) = (enquote quote text).map mark ++ g rest := by
  -- `inner` is what has been passed of the present span.
  suffices h : ∀ inner, quote ∉ inner →
      f (quote :: (inner ++ (double quote text ++ quote :: rest))) =
        (quote :: (inner ++ (double quote text ++ [quote]))).map mark ++ g rest by
    have hall := h [] (by simp)
    simpa [enquote] using hall
  induction text generalizing f with
  | nil =>
      intro inner hinner
      exact hf inner rest hinner
  | cons c text ih =>
      intro inner hinner
      by_cases hc : c = quote
      · have htail := ih hg [] (by simp)
        rw [double, if_pos hc]
        have hspan := hf inner (quote :: (double quote text ++ quote :: rest)) hinner
        rw [List.nil_append, List.nil_append] at htail
        rw [htail] at hspan
        simpa using hspan
      · have hmore := ih hf (inner ++ [c]) (by
          rw [List.mem_append, List.mem_singleton, not_or]
          exact ⟨hinner, Ne.symm hc⟩)
        rw [double, if_neg hc]
        simpa using hmore

theorem getLast?_enquote (quote : Char) (text : List Char) :
    (enquote quote text).getLast? = some quote :=
  List.getLast?_concat

/-! ## The current time -/

theorem inert_of_isDigit {c : Char} (h : c.isDigit = true) : Inert c := by
  have hfold : fold c = c := by
    rcases fold_cases c with hc | hc | rfl | rfl
    · exact hc
    · exact absurd (isAlpha_iff.2 (.inl hc)) (not_isAlpha_of_isDigit h)
    · exact absurd h (by decide)
    · exact absurd h (by decide)
  refine ⟨not_isQuote_of_isWord (isWord_of_isAsciiWord (isAsciiWord_of_isDigit h)), ?_, ?_⟩
  · rw [hfold]
    exact ne_of_true_of_false h (by decide)
  · rw [hfold]
    exact ne_of_true_of_false h (by decide)

theorem inert_of_isNumeric {c : Char} (h : IsNumeric c) : Inert c := by
  rcases h with h | rfl | rfl
  · exact inert_of_isDigit h
  · decide
  · decide

theorem goesOn_of_ne_nil {passed : List Char} (h : passed ≠ []) (inWord : Bool) :
    goesOn inWord passed = passed.getLast?.any isWord := by
  obtain ⟨front, c, rfl⟩ := List.eq_nil_or_concat passed |>.resolve_left h
  simp [goesOn]

theorem goesOn_blanks {gap : List Char} (hgap : ∀ c ∈ gap, isAsciiBlank c = true)
    (inWord : Bool) : goesOn inWord gap = (inWord && gap.isEmpty) := by
  cases gap with
  | nil => simp [goesOn]
  | cons c gap =>
      have hblank := hgap _ (List.getLast_mem (List.cons_ne_nil c gap))
      rw [goesOn_of_ne_nil (List.cons_ne_nil c gap),
        List.getLast?_eq_some_getLast (List.cons_ne_nil c gap)]
      simpa using isWord_delimiters _ (mem_delimiters_of_isAsciiBlank hblank)

section Now

variable (now : List Char) {rest : List Char}

/-- Inside of a word no spelling begins. -/
theorem replaceNow_word_tail {tail : List Char} (h : ∀ c ∈ tail, isAsciiWord c = true) :
    replaceNow now true (tail ++ rest) = tail ++ replaceNow now true rest := by
  induction tail with
  | nil => rfl
  | cons c tail ih =>
      have hc : isWord c = true := isWord_of_isAsciiWord (h c List.mem_cons_self)
      rw [List.cons_append, replaceNow_inWord now (quotedRun?_plain (not_isQuote_of_isWord hc) _),
        hc, ih fun d hd => h d (List.mem_cons_of_mem _ hd)]
      rfl

/-- A word in any case that is read from a text is read within the word the text begins with. -/
theorem afterWord?_append_word {pattern text found : List Char}
    (hpattern : ∀ w ∈ pattern, isAsciiWord w = true) (hrest : beginsInWord rest = false)
    (h : afterWord? pattern (text ++ rest) = some found) :
    ∃ tail, found = tail ++ rest ∧ afterWord? pattern text = some tail := by
  induction pattern generalizing text with
  | nil =>
      cases h
      exact ⟨text, rfl, rfl⟩
  | cons w pattern ih =>
      obtain ⟨c, after, heq, hfold, hread⟩ := exists_cons_of_afterWord? h
      cases text with
      | nil =>
          rw [List.nil_append] at heq
          subst heq
          have hword := isWord_of_fold (hpattern w List.mem_cons_self) hfold
          rw [show isWord c = false from hrest] at hword
          cases hword
      | cons d text =>
          cases heq
          rw [afterWord?_cons_of_eq hfold]
          exact ih (fun v hv => hpattern v (List.mem_cons_of_mem _ hv)) hread

/-- A word is read as far as it goes. -/
theorem afterWord?_of_lower {text : List Char} (htext : ∀ c ∈ text, isAsciiWord c = true)
    (rest : List Char) : afterWord? (lower text) (text ++ rest) = some rest := by
  induction text with
  | nil => rfl
  | cons c text ih =>
      obtain ⟨hc, htail⟩ := List.forall_mem_cons.1 htext
      exact (afterWord?_cons_of_eq (fold_of_isAsciiWord hc) _ _).trans (ih htail)

/-- A word that is read in any case is that word in lower case. -/
theorem lower_of_afterWord? {pattern text : List Char} (htext : ∀ c ∈ text, isAsciiWord c = true)
    (h : afterWord? pattern text = some []) : lower text = pattern := by
  obtain ⟨front, rfl, hfront⟩ := exists_append_of_afterWord? h
  rw [List.append_nil] at htext ⊢
  rw [← hfront, lower]
  exact List.map_congr_left fun c hc => (fold_of_isAsciiWord (htext c hc)).symm

theorem callArguments?_of_word {c : Char} (h : isAsciiWord c = true) (rest : List Char) :
    callArguments? (c :: rest) = none := by
  rw [callArguments?, trimStart_cons_of_not_isBlank (by simp [isBlank_of_isAsciiWord h])]
  split
  · next heq =>
      cases heq
      exact absurd h (by decide)
  · rfl

/-- Which words begin a spelling of the current time. -/
theorem nowSpelling?_word {text : List Char} (htext : ∀ c ∈ text, isAsciiWord c = true)
    (hrest : beginsInWord rest = false) :
    nowSpelling? (text ++ rest) =
      if lower text = "current_timestamp".toList then some rest
      else if lower text = "datetime".toList then callArguments? rest
      else none := by
  by_cases hstamp : lower text = "current_timestamp".toList
  · have hread := afterWord?_of_lower htext rest
    rw [hstamp] at hread
    rw [if_pos hstamp, nowSpelling?, hread]
    dsimp only
    rw [hrest]
    rfl
  rw [if_neg hstamp]
  by_cases hcall : lower text = "datetime".toList
  · have hread := afterWord?_of_lower htext rest
    rw [hcall] at hread
    rw [if_pos hcall, nowSpelling?, hread]
    -- The two words differ in their first letter, so only one of them can be read.
    obtain ⟨c, tail, heq, hc, -⟩ := exists_cons_of_afterWord? hread
    have hother : afterWord? "current_timestamp".toList (text ++ rest) = none := by
      rw [heq]
      exact afterWord?_cons_of_ne (by rw [hc]; decide) _ _
    rw [hother]
    rfl
  rw [if_neg hcall, nowSpelling?]
  split
  · next found hfound =>
      obtain ⟨tail, rfl, htail⟩ := afterWord?_append_word (by decide) hrest hfound
      cases tail with
      | nil => exact absurd (lower_of_afterWord? htext htail) hstamp
      | cons c tail =>
          have hc : isAsciiWord c = true :=
            htext c ((suffix_of_afterWord? htail).mem List.mem_cons_self)
          exact if_pos (isWord_of_isAsciiWord hc)
  · rw [Option.bind_eq_none_iff]
    intro found hfound
    obtain ⟨tail, rfl, htail⟩ := afterWord?_append_word (by decide) hrest hfound
    cases tail with
    | nil => exact absurd (lower_of_afterWord? htext htail) hcall
    | cons c tail =>
        exact callArguments?_of_word
          (htext c ((suffix_of_afterWord? htail).mem List.mem_cons_self)) (tail ++ rest)

/-- A text in quotes is passed over. -/
theorem replaceNow_enquote {quote : Char} (hquote : IsQuote quote) (text : List Char)
    (inWord : Bool) :
    replaceNow now inWord (enquote quote text ++ rest) =
      enquote quote text ++ replaceNow now false rest := by
  have hspan : ∀ inWord inner rest, quote ∉ inner →
      replaceNow now inWord (quote :: (inner ++ quote :: rest)) =
        (quote :: (inner ++ [quote])).map id ++ replaceNow now false rest := by
    intro inWord inner rest hinner
    simpa using replaceNow_span now inWord hquote hinner rest
  simpa using enquote_append_of_span id (hspan inWord) (hspan false) text rest

/-- Characters that begin no spelling are passed over. -/
theorem replaceNow_inert_chars {kept : List Char} (hkept : ∀ c ∈ kept, Inert c) (hne : kept ≠ [])
    (inWord : Bool) :
    replaceNow now inWord (kept ++ rest) =
      kept ++ replaceNow now (kept.getLast?.any isWord) rest := by
  rw [replaceNow_inert now inWord hkept, goesOn_of_ne_nil hne]

/-- A word that begins a spelling of the current time is replaced together with what it takes along.
-/
theorem replaceNow_of_word {text tail : List Char} (h : isIdentifier text = true)
    (hspelling : nowSpelling? (text ++ rest) = some tail) :
    replaceNow now false (text ++ rest) = now ++ replaceNow now false tail := by
  obtain ⟨c, letters, rfl, hc, -⟩ := exists_cons_of_isIdentifier h
  have hword := isWord_of_isAsciiWord hc.isAsciiWord
  exact replaceNow_of_spelling now (quotedRun?_plain (not_isQuote_of_isWord hword) _) hspelling

/-- A token is kept unless it is a word that begins a spelling. -/
theorem replaceNow_lexeme {token : Token} (h : Lexeme token) {inWord : Bool}
    (hspelling : ∀ word, token = .word word → inWord = false →
      nowSpelling? (word.toList ++ rest) = none) :
    replaceNow now inWord (token.chars ++ rest) =
      token.chars ++ replaceNow now token.endsInWord rest := by
  have hsigns : ∀ c ∈ signs, Inert c := by decide
  cases h with
  | @word text identifier =>
      obtain ⟨c, tail, hchars, hc, htail⟩ := exists_cons_of_isIdentifier identifier
      have hword := isWord_of_isAsciiWord hc.isAsciiWord
      have hrun := quotedRun?_plain (not_isQuote_of_isWord hword) (tail ++ rest)
      replace hspelling := hspelling text rfl
      rw [hchars, List.cons_append] at hspelling
      rw [endsInWord_word identifier, chars, hchars, List.cons_append]
      cases inWord with
      | true => rw [replaceNow_inWord now hrun, hword, replaceNow_word_tail now htail]; rfl
      | false =>
          rw [replaceNow_of_no_spelling now false hrun (hspelling rfl), hword,
            replaceNow_word_tail now htail]
          rfl
  | name content =>
      rw [endsInWord, chars, getLast?_enquote]
      exact replaceNow_enquote now (.inr rfl) content.toList inWord
  | text content =>
      rw [endsInWord, chars, getLast?_enquote]
      exact replaceNow_enquote now (.inl rfl) content.toList inWord
  | number numeral =>
      obtain ⟨c, tail, hchars⟩ := numeral.exists_cons
      refine replaceNow_inert_chars now (fun c hc => inert_of_isNumeric (numeral.isNumeric c hc)) ?_
        inWord
      rw [hchars]
      exact List.cons_ne_nil c tail
  | operator symbol =>
      refine replaceNow_inert_chars now ?_ ?_ inWord
      · cases symbol <;> decide
      · cases symbol <;> decide
  | mark isMark =>
      obtain ⟨c, hchars, -, hc⟩ := exists_of_isMark isMark
      rw [endsInWord, hchars]
      exact replaceNow_inert_chars now (List.forall_mem_singleton.2 (hsigns c hc))
        (List.cons_ne_nil c []) inWord

end Now

/-! ## Truth values -/

theorem beginsValue_of_isWord {c : Char} (h : isWord c = true) : beginsValue (some c) = false := by
  have hne : ∀ d, isWord d = false → c ≠ d := fun d hd => ne_of_true_of_false h hd
  simp [beginsValue, hne '=' (by decide), hne ',' (by decide), hne '(' (by decide)]

/-- No value begins where a word could go on. -/
theorem opensValue_of_endsInWord {token : Token} (h : token.endsInWord = true) :
    token.opensValue = false := by
  rw [endsInWord, Option.any_eq_true] at h
  obtain ⟨c, hlast, hc⟩ := h
  rw [opensValue, hlast]
  exact beginsValue_of_isWord hc

/-- A zero or one is no truth value where no value may begin. -/
theorem beginsFlag_eq_false {before : Option Char} (h : beginsValue before = false)
    (inWord : Bool) (c : Char) : beginsFlag before inWord c = false := by
  simp [beginsFlag, h]

/-- Characters that are neither quotes nor blank and after which no value begins. -/
def Dull (c : Char) : Prop :=
  ¬IsQuote c ∧ isBlank c = false ∧ beginsValue (some c) = false

theorem dull_of_isAsciiWord {c : Char} (h : isAsciiWord c = true) : Dull c :=
  ⟨not_isQuote_of_isWord (isWord_of_isAsciiWord h), isBlank_of_isAsciiWord h,
    beginsValue_of_isWord (isWord_of_isAsciiWord h)⟩

theorem dull_of_isNumeric {c : Char} (h : IsNumeric c) : Dull c := by
  rcases h with h | rfl | rfl
  · exact dull_of_isAsciiWord (isAsciiWord_of_isDigit h)
  · exact ⟨by decide, by decide, rfl⟩
  · exact ⟨by decide, by decide, rfl⟩

/-- A zero or one within a number does not stand alone. -/
theorem endsFlag_of_isNumeric {c : Char} (h : IsNumeric c) (rest : List Char) :
    endsFlag (c :: rest) = false := by
  rcases h with h | rfl | rfl
  · simp [endsFlag, beginsInWord, isWord_of_isAsciiWord (isAsciiWord_of_isDigit h)]
  · rfl
  · rfl

/-- The last character that is not blank is the last one where none is blank. -/
theorem lastShown_of_shown {passed : List Char} (hne : passed ≠ [])
    (h : ∀ c ∈ passed, isBlank c = false) (before : Option Char) :
    lastShown before passed = passed.getLast? := by
  obtain ⟨front, c, rfl⟩ := List.eq_nil_or_concat passed |>.resolve_left hne
  have hc : isBlank c = false := h c (by simp)
  simp [lastShown, hc]

section Flags

variable {before : Option Char} {rest : List Char}

/-- Within a run of dull characters only the first one can be a truth value. -/
theorem replaceFlagsIn_dull {c : Char} {tail : List Char} (hc : Dull c) (htail : ∀ d ∈ tail, Dull d)
    {inWord : Bool}
    (hflag : beginsFlag before inWord c = false ∨ endsFlag (tail ++ rest) = false) :
    replaceFlagsIn before inWord (c :: (tail ++ rest)) =
      c :: (tail ++ replaceFlagsIn (c :: tail).getLast? ((c :: tail).getLast?.any isWord) rest) := by
  induction tail generalizing c before inWord with
  | nil =>
      have hblank : ¬isBlank c = true := by simp [hc.2.1]
      exact (replaceFlagsIn_of_not_flag before inWord (quotedRun?_plain hc.1 _) hflag).trans
        (by rw [if_neg hblank]; rfl)
  | cons d tail ih =>
      obtain ⟨hd, htail⟩ := List.forall_mem_cons.1 htail
      have hblank : ¬isBlank c = true := by simp [hc.2.1]
      rw [replaceFlagsIn_of_not_flag before inWord (quotedRun?_plain hc.1 _) hflag,
        if_neg hblank, List.cons_append,
        ih hd htail (.inl (beginsFlag_eq_false hc.2.2 (isWord c) d)), List.getLast?_cons_cons]
      rfl

theorem replaceFlagsIn_enquote {quote : Char} (hquote : IsQuote quote) (text : List Char)
    (inWord : Bool) :
    replaceFlagsIn before inWord (enquote quote text ++ rest) =
      enquote quote text ++ replaceFlagsIn (some quote) false rest := by
  have hspan : ∀ before inWord inner rest, quote ∉ inner →
      replaceFlagsIn before inWord (quote :: (inner ++ quote :: rest)) =
        (quote :: (inner ++ [quote])).map id ++ replaceFlagsIn (some quote) false rest := by
    intro before inWord inner rest hinner
    simpa using replaceFlagsIn_span before inWord hquote hinner rest
  simpa using
    enquote_append_of_span id (hspan before inWord) (hspan (some quote) false) text rest

theorem replaceFlagsIn_blanks {gap : List Char} (h : ∀ c ∈ gap, isAsciiBlank c = true)
    (inWord : Bool) :
    replaceFlagsIn before inWord (gap ++ rest) =
      gap ++ replaceFlagsIn before (goesOn inWord gap) rest := by
  have hkept : ∀ c ∈ delimiters, ¬IsQuote c ∧ c ≠ '0' ∧ c ≠ '1' := by decide
  rw [replaceFlagsIn_kept before inWord fun c hc => hkept c
    (mem_delimiters_of_isAsciiBlank (h c hc)),
    lastShown_of_blank fun c hc => isBlank_of_isAsciiBlank (h c hc)]

/-- Signs stay. -/
theorem replaceFlagsIn_signs {kept : List Char} (hkept : ∀ c ∈ kept, c ∈ signs) (hne : kept ≠ [])
    (inWord : Bool) :
    replaceFlagsIn before inWord (kept ++ rest) =
      kept ++ replaceFlagsIn kept.getLast? (kept.getLast?.any isWord) rest := by
  have hsigns : ∀ c ∈ signs, (¬IsQuote c ∧ c ≠ '0' ∧ c ≠ '1') ∧ isBlank c = false := by decide
  rw [replaceFlagsIn_kept before inWord fun c hc => (hsigns c (hkept c hc)).1,
    lastShown_of_shown hne fun c hc => (hsigns c (hkept c hc)).2, goesOn_of_ne_nil hne]

/-- A token is kept unless it is a zero or one that stands for a truth value. -/
theorem replaceFlagsIn_lexeme {token : Token} (h : Lexeme token) (inWord : Bool)
    (hflag : token = .number "0" ∨ token = .number "1" →
      beginsValue before = false ∨ endsFlag rest = false) :
    replaceFlagsIn before inWord (token.chars ++ rest) =
      token.chars ++ replaceFlagsIn token.chars.getLast? token.endsInWord rest := by
  cases h with
  | @word text identifier =>
      obtain ⟨c, tail, hchars, hc, htail⟩ := exists_cons_of_isIdentifier identifier
      have hdigit : beginsFlag before inWord c = false := by
        simp [beginsFlag, hc.ne (show ('0'.isAlpha || '0' == '_') = false by decide),
          hc.ne (show ('1'.isAlpha || '1' == '_') = false by decide)]
      rw [endsInWord, chars, hchars]
      exact replaceFlagsIn_dull (dull_of_isAsciiWord hc.isAsciiWord)
        (fun d hd => dull_of_isAsciiWord (htail d hd)) (.inl hdigit)
  | name content =>
      rw [endsInWord, chars, getLast?_enquote]
      exact replaceFlagsIn_enquote (.inr rfl) content.toList inWord
  | text content =>
      rw [endsInWord, chars, getLast?_enquote]
      exact replaceFlagsIn_enquote (.inl rfl) content.toList inWord
  | @number text numeral =>
      obtain ⟨c, tail, hchars⟩ := numeral.exists_cons
      have hnumeric := numeral.isNumeric
      rw [hchars, List.forall_mem_cons] at hnumeric
      have halone : beginsFlag before inWord c = false ∨ endsFlag (tail ++ rest) = false := by
        cases tail with
        | cons d tail =>
            exact .inr (endsFlag_of_isNumeric (hnumeric.2 d List.mem_cons_self) _)
        | nil =>
            by_cases hbegins : beginsFlag before inWord c = true
            · obtain ⟨hdigit, -, hopens⟩ := beginsFlag_iff.1 hbegins
              have htoken : Token.number text = .number "0" ∨ Token.number text = .number "1" := by
                refine hdigit.imp ?_ ?_
                · rintro rfl
                  rw [String.toList_inj.1 (hchars.trans (by decide : ['0'] = "0".toList))]
                · rintro rfl
                  rw [String.toList_inj.1 (hchars.trans (by decide : ['1'] = "1".toList))]
              refine .inr ((hflag htoken).resolve_left ?_)
              rw [hopens]
              decide
            · exact .inl (Bool.eq_false_iff.2 hbegins)
      rw [endsInWord, chars, hchars]
      exact replaceFlagsIn_dull (dull_of_isNumeric hnumeric.1)
        (fun d hd => dull_of_isNumeric (hnumeric.2 d hd)) halone
  | operator symbol =>
      refine replaceFlagsIn_signs ?_ ?_ inWord
      · cases symbol <;> decide
      · cases symbol <;> decide
  | mark isMark =>
      obtain ⟨c, hchars, -, hc⟩ := exists_of_isMark isMark
      rw [endsInWord, hchars]
      exact replaceFlagsIn_signs (List.forall_mem_singleton.2 hc) (List.cons_ne_nil c []) inWord

end Flags

end Dialect

end ClosedSql
