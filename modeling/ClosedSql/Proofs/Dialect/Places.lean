import ClosedSql.Proofs.Dialect.Closed
import ClosedSql.Proofs.Dialect.Idempotence
import ClosedSql.Proofs.Dialect.Lexemes

/-!
# Places for a value

A question mark cuts a text in two, and either part is normalized by itself. What stands before it
in the normalized text ends in a sign that a value may follow, if a value is meant. Then the text
before it is normalized in the same way whatever else stands in the place of the question mark.
-/

namespace ClosedSql.Dialect

open Text

/-! ## Truth values before a cut -/

theorem takeWhile_append_of_neg {α : Type} {test : α → Bool} {a : α} (h : test a = false)
    (front rest : List α) : (front ++ a :: rest).takeWhile test = front.takeWhile test := by
  induction front with
  | nil => rw [List.nil_append, List.takeWhile_cons_of_neg (by simp [h]), List.takeWhile_nil]
  | cons b front ih =>
      rw [List.cons_append, List.takeWhile_cons, List.takeWhile_cons, ih]

def openers : List Char :=
  "(,=<>".toList

theorem of_mem_openers : ∀ c ∈ openers,
    ¬IsQuote c ∧ isBlank c = false ∧ isWord c = false ∧ isAsciiWord c = false ∧
      c.isAlpha = false ∧ c ≠ '0' ∧ c ≠ '1' := by
  decide

/-- Whether a truth value ends before a text is settled once a sign comes. -/
theorem endsFlag_append {sign : Char} (hsign : sign ∈ openers) (text rest : List Char) :
    endsFlag (text ++ sign :: rest) = endsFlag (text ++ [sign]) := by
  obtain ⟨-, hblank, -, hword, halpha, -⟩ := of_mem_openers sign hsign
  have hvalue : endsValue (text ++ sign :: rest) = endsValue (text ++ [sign]) := by
    rw [endsValue, endsValue, trimStart_append_shown hblank, trimStart_append_shown hblank]
    cases trimStart text with
    | nil =>
        simp only [List.nil_append, halpha]
        rfl
    | cons c tail =>
        have hrest := takeWhile_append_of_neg hword (c :: tail) rest
        have hnone := takeWhile_append_of_neg hword (c :: tail) []
        rw [List.cons_append] at hrest hnone
        simp only [List.cons_append, hrest, hnone]
  have hbegins : beginsInWord (text ++ sign :: rest) = beginsInWord (text ++ [sign]) := by
    cases text <;> rfl
  rw [endsFlag, endsFlag, hvalue, hbegins]

/-- No word goes on behind a sign and blanks. -/
theorem goesOn_sign {sign : Char} (hsign : sign ∈ openers) {gap : List Char}
    (hgap : ∀ c ∈ gap, isAsciiBlank c = true) (inWord : Bool) (front : List Char) :
    goesOn inWord (front ++ sign :: gap) = false := by
  obtain ⟨-, -, hword, -⟩ := of_mem_openers sign hsign
  have hstep : goesOn inWord (front ++ sign :: gap) = goesOn (isWord sign) gap := by
    simp [goesOn]
  rw [hstep, goesOn_blanks hgap, hword]
  rfl

/-- Truth values are replaced in a closed text by itself, if it ends in a sign and blanks. -/
theorem Closed.replaceFlagsIn_append {front : List Char} (h : Closed front) {sign : Char}
    (hsign : sign ∈ openers) {gap : List Char} (hgap : ∀ c ∈ gap, isAsciiBlank c = true)
    (before : Option Char) (inWord : Bool) (rest : List Char) :
    replaceFlagsIn before inWord (front ++ sign :: (gap ++ rest)) =
      replaceFlagsIn before inWord (front ++ sign :: gap) ++
        replaceFlagsIn (some sign) false rest := by
  obtain ⟨hquote, hblank, hword, -, -, hzero, hone⟩ := of_mem_openers sign hsign
  induction h using Closed.induction generalizing before inWord with
  | nil =>
      have hgoes : goesOn inWord (sign :: gap) = false := goesOn_sign hsign hgap inWord []
      have hshown : lastShown before (sign :: gap) = some sign := by
        have hlast :=
          lastShown_of_blank (fun c hc => isBlank_of_isAsciiBlank (hgap c hc)) (some sign)
        rw [lastShown, List.foldl_cons, hblank]
        exact hlast
      have hkept : ∀ c ∈ sign :: gap, ¬IsQuote c ∧ c ≠ '0' ∧ c ≠ '1' := by
        have hdelimiters : ∀ c ∈ Token.delimiters, ¬IsQuote c ∧ c ≠ '0' ∧ c ≠ '1' := by decide
        refine List.forall_mem_cons.2 ⟨⟨hquote, hzero, hone⟩, fun c hc => ?_⟩
        exact hdelimiters c (Token.mem_delimiters_of_isAsciiBlank (hgap c hc))
      have hmore := replaceFlagsIn_kept before inWord hkept
      rw [hgoes, hshown] at hmore
      have hnone := hmore []
      rw [List.append_nil, replaceFlagsIn_nil, List.append_nil] at hnone
      rw [List.nil_append, List.nil_append, hnone]
      exact hmore rest
  | span quote inner text isQuote closes tail ih =>
      have happend : ∀ more, quote :: (inner ++ quote :: text) ++ more =
          quote :: (inner ++ quote :: (text ++ more)) := by simp
      rw [happend, happend, replaceFlagsIn_span _ _ isQuote closes,
        replaceFlagsIn_span _ _ isQuote closes, ih]
      simp
  | plain c text notQuote tail ih =>
      have hrun := quotedRun?_plain notQuote
      have hends : endsFlag (text ++ sign :: (gap ++ rest)) = endsFlag (text ++ sign :: gap) :=
        (endsFlag_append hsign _ _).trans (endsFlag_append hsign _ _).symm
      rw [List.cons_append, List.cons_append, replaceFlagsIn_of_plain _ _ (hrun _),
        replaceFlagsIn_of_plain _ _ (hrun _), hends, ih text tail (Nat.le_refl _),
        List.append_assoc]

/-! ## What the replacements keep -/

/-- The new text is the old one with texts put in place of some of its parts; each text put in
ends in a character of one kind. -/
inductive Rewritten (ends : Char → Prop) : List Char → List Char → Prop
  | nil : Rewritten ends [] []
  | keep (c : Char) {old new : List Char} (tail : Rewritten ends old new) :
      Rewritten ends (c :: old) (c :: new)
  | put (skipped front : List Char) {last : Char} {old new : List Char} (isEnd : ends last)
      (tail : Rewritten ends old new) :
      Rewritten ends (skipped ++ old) (front ++ last :: new)

namespace Rewritten

variable {ends : Char → Prop} {old new : List Char}

/-- A text may be kept in front of one that is rewritten. -/
theorem keep_append (kept : List Char) (h : Rewritten ends old new) :
    Rewritten ends (kept ++ old) (kept ++ new) := by
  induction kept with
  | nil => exact h
  | cons c kept ih => exact .keep c ih

/-- Where no such character is, nothing was put in. -/
theorem eq_of_free (h : Rewritten ends old new) (hfree : ∀ c ∈ new, ¬ends c) : new = old := by
  induction h with
  | nil => rfl
  | keep c _ ih => rw [ih (List.forall_mem_cons.1 hfree).2]
  | put skipped front isEnd _ _ => exact absurd isEnd (hfree _ (by simp))

/-- A text without such characters that the new text ends in is one that the old text ends in. -/
theorem suffix (h : Rewritten ends old new) {last : List Char} (hfree : ∀ c ∈ last, ¬ends c)
    (hlast : last <:+ new) : last <:+ old := by
  induction h with
  | nil => exact hlast
  | @keep c old new tail ih =>
      rcases List.suffix_cons_iff.1 hlast with rfl | hlast
      · have hsame := tail.eq_of_free fun d hd => hfree d (List.mem_cons_of_mem _ hd)
        simp [hsame]
      · exact (ih hlast).trans (List.suffix_cons c old)
  | @put skipped front d old new isEnd tail ih =>
      have hd : d ∉ last := fun hmem => hfree d hmem isEnd
      have hinside : last <:+ new := by
        rcases List.suffix_or_suffix_of_suffix hlast (List.suffix_append front (d :: new)) with
          hshort | hlong
        · rcases List.suffix_cons_iff.1 hshort with rfl | hshort
          · exact absurd List.mem_cons_self hd
          · exact hshort
        · exact absurd (hlong.mem List.mem_cons_self) hd
      exact (ih hinside).trans (List.suffix_append skipped old)

end Rewritten

/-- What replaces the current time ends in a quote. -/
theorem rewritten_replaceNow (inWord : Bool) (text : List Char) :
    Rewritten IsQuote text (replaceNow nowChars inWord text) := by
  fun_induction replaceNow nowChars inWord text with
  | case1 => exact .nil
  | case2 inWord c rest run tail hrun ih =>
      rw [← quotedRun?_append hrun]
      exact ih.keep_append run
  | case3 c rest _ ih | case5 inWord c rest _ _ _ ih => exact .keep c ih
  | case4 inWord c rest _ _ tail hspelling ih =>
      obtain ⟨skipped, hskipped⟩ := suffix_of_nowSpelling? hspelling
      rw [← hskipped]
      exact .put skipped "'now()".toList (.inl rfl) ih

/-- A text stays closed when the current time is replaced. -/
theorem closed_replaceNow {text : List Char} (h : Closed text) (inWord : Bool) :
    Closed (replaceNow nowChars inWord text) := by
  induction h using Closed.induction generalizing inWord with
  | nil =>
      rw [replaceNow_nil]
      exact closed_nil
  | span quote inner rest isQuote closes _ ih =>
      rw [replaceNow_span _ _ isQuote closes]
      exact (closed_span_iff isQuote closes _).2 (ih false)
  | plain c rest notQuote tail ih =>
      have hrun := quotedRun?_plain notQuote rest
      have hkept := (closed_cons_iff notQuote _).2 (ih rest tail (Nat.le_refl _) (isWord c))
      cases inWord with
      | true => rwa [replaceNow_inWord _ hrun]
      | false =>
          cases hspelling : nowSpelling? (c :: rest) with
          | none => rwa [replaceNow_of_no_spelling _ _ hrun hspelling]
          | some found =>
              have hclosed := ((closed_cons_iff notQuote rest).2 tail).of_nowSpelling? hspelling
              have hlength := length_nowSpelling? hspelling
              rw [List.length_cons] at hlength
              have hnow : Closed nowChars := by decide
              rw [replaceNow_of_spelling _ hrun hspelling]
              exact hnow.append_iff.2 (ih found hclosed (by omega) false)

/-- What becomes of a closed text before another one when truth values are replaced. -/
theorem Closed.exists_replaceFlagsIn {text : List Char} (h : Closed text) (before : Option Char)
    (inWord : Bool) (rest : List Char) :
    ∃ front passed goesOn, Closed front ∧ Rewritten (fun c => isWord c = true) text front ∧
      replaceFlagsIn before inWord (text ++ rest) = front ++ replaceFlagsIn passed goesOn rest := by
  induction h using Closed.induction generalizing before inWord with
  | nil => exact ⟨[], before, inWord, closed_nil, .nil, rfl⟩
  | span quote inner text isQuote closes _ ih =>
      obtain ⟨front, passed, goesOn, hclosed, hrewritten, hflags⟩ := ih (some quote) false
      have happend : quote :: (inner ++ quote :: text) ++ rest =
          quote :: (inner ++ quote :: (text ++ rest)) := by simp
      refine ⟨quote :: (inner ++ quote :: front), passed, goesOn,
        (closed_span_iff isQuote closes _).2 hclosed,
        .keep quote (.keep_append inner (.keep quote hrewritten)), ?_⟩
      rw [happend, replaceFlagsIn_span _ _ isQuote closes, hflags]
      simp
  | plain c text notQuote tail ih =>
      obtain ⟨front, passed, goesOn, hclosed, hrewritten, hflags⟩ :=
        ih text tail (Nat.le_refl _) (if isBlank c then before else some c) (isWord c)
      have hrun := quotedRun?_plain notQuote (text ++ rest)
      rw [List.cons_append, replaceFlagsIn_of_plain _ _ hrun, hflags, ← List.append_assoc]
      refine ⟨_, passed, goesOn, ?_, ?_, rfl⟩
      · refine (closed_of_free fun d hd => ?_).append_iff.2 hclosed
        split at hd
        · rw [flagWord] at hd
          revert d
          split <;> decide
        · rwa [List.mem_singleton.1 hd]
      · split
        · rw [flagWord]
          split
          · exact .put [c] "tru".toList (by decide) hrewritten
          · exact .put [c] "fals".toList (by decide) hrewritten
        · exact .keep c hrewritten

/-- The quotes of a text are closed where those of a longer text are, if it goes on without any. -/
theorem Closed.of_append_free {front last : List Char} (h : Closed (front ++ last))
    (hfree : ∀ c ∈ last, ¬IsQuote c) : Closed front := by
  rw [Closed, openQuote_append] at h
  cases hopen : openQuote none front with
  | none => exact hopen
  | some quote =>
      have hquote : IsQuote quote := isQuote_of_openQuote (by simp) quote hopen
      rw [hopen, openQuote_of_not_mem fun hmem => hfree quote hmem hquote] at h
      cases h

/-! ## A place for a value -/

/-- A value may begin at the end of a text: there is a sign that a value may follow, and blanks. -/
def AwaitsValue (text : List Char) : Prop :=
  ∃ front sign gap, text = front ++ sign :: gap ∧ sign ∈ openers ∧
    ∀ c ∈ gap, isAsciiBlank c = true

theorem replaceNow_placeholder (now : List Char) (inWord : Bool) (rest : List Char) :
    replaceNow now inWord ('?' :: rest) = '?' :: replaceNow now false rest :=
  replaceNow_of_no_spelling now inWord (quotedRun?_plain (by decide) rest)
    (nowSpelling?_eq_none (by decide) (by decide) rest)

/-- Behind a question mark, truth values are replaced as at the beginning of a text. -/
theorem replaceFlagsIn_placeholder (before : Option Char) (inWord : Bool) (rest : List Char) :
    replaceFlagsIn before inWord ('?' :: rest) = '?' :: replaceFlagsIn none false rest := by
  have hbegins : beginsValue (some '?') = beginsValue none := rfl
  rw [replaceFlagsIn_of_not_flag _ _ (quotedRun?_plain (by decide) rest) (.inl rfl),
    ← replaceFlagsIn_congr hbegins]
  rfl

/-- The text around a question mark is normalized by itself: what is behind it as a text of its own,
and what is before it as well where the question mark stands for a value. What then begins with
another token in its place has the same beginning. -/
theorem Closed.normalizeChars_placeholder {text : List Char} (h : Closed text)
    (rest : List Char) :
    ∃ front, Closed front ∧
      normalizeChars nowChars (text ++ '?' :: rest) =
        front ++ '?' :: normalizeChars nowChars rest ∧
      (AwaitsValue front →
        front = normalizeChars nowChars text ∧
        ∃ sign, ∀ {c}, Stands c → ∀ more, normalizeChars nowChars (text ++ c :: more) =
          front ++ replaceFlagsIn (some sign) false (replaceNow nowChars false (c :: more))) := by
  have hstamped := closed_replaceNow h false
  obtain ⟨front, passed, goesOn, hclosed, hrewritten, hflags⟩ :=
    hstamped.exists_replaceFlagsIn none false ('?' :: replaceNow nowChars false rest)
  rw [replaceFlagsIn_placeholder] at hflags
  refine ⟨front, hclosed, ?_, ?_⟩
  · change replaceFlagsIn none false (replaceNow nowChars false (text ++ '?' :: rest)) = _
    rw [h.replaceNow_append (by decide) (fun hword => absurd hword (by decide)),
      replaceNow_placeholder]
    exact hflags
  · rintro ⟨first, sign, gap, rfl, hsign, hgap⟩
    have hfree : ∀ c ∈ sign :: gap, ¬isWord c = true ∧ ¬IsQuote c := by
      have hdelimiters : ∀ c ∈ Token.delimiters, ¬isWord c = true ∧ ¬IsQuote c := by decide
      obtain ⟨hquote, -, hword, -⟩ := of_mem_openers sign hsign
      refine List.forall_mem_cons.2 ⟨⟨by simp [hword], hquote⟩, fun c hc => ?_⟩
      exact hdelimiters c (Token.mem_delimiters_of_isAsciiBlank (hgap c hc))
    -- the sign and the blanks come from the text, since nothing that is put in ends like them
    have hsuffix : sign :: gap <:+ replaceNow nowChars false text :=
      hrewritten.suffix (fun c hc => (hfree c hc).1) (List.suffix_append first _)
    obtain ⟨before, htext⟩ := (rewritten_replaceNow false text).suffix
      (fun c hc => (hfree c hc).2) hsuffix
    obtain ⟨stamped, happend⟩ := hsuffix
    have hcut : ∀ more,
        replaceFlagsIn none false (replaceNow nowChars false text ++ more) =
          normalizeChars nowChars text ++ replaceFlagsIn (some sign) false more := by
      intro more
      change _ = replaceFlagsIn none false (replaceNow nowChars false text) ++ _
      rw [← happend] at hstamped ⊢
      have hopening := hstamped.of_append_free fun c hc => (hfree c hc).2
      rw [List.append_assoc, List.cons_append]
      exact hopening.replaceFlagsIn_append hsign hgap none false more
    have hfront : first ++ sign :: gap = normalizeChars nowChars text := by
      have hsame := hcut ('?' :: replaceNow nowChars false rest)
      rw [hflags, replaceFlagsIn_placeholder] at hsame
      exact List.append_cancel_right hsame
    refine ⟨hfront, sign, fun {c} hc more => ?_⟩
    change replaceFlagsIn none false (replaceNow nowChars false (text ++ c :: more)) = _
    rw [h.replaceNow_append hc fun _ => by rw [← htext]; exact goesOn_sign hsign hgap false before,
      hcut, hfront]

end ClosedSql.Dialect
