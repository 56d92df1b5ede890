import ClosedSql.Proofs.Dialect.Literal
import ClosedSql.Statement.Bound

/-!
# Normalizing twice

Normalizing a normalized statement changes nothing when the literal for the current time is
insulated. A text is settled when it spells the current time nowhere outside of quotes. Replacing
the current time settles every text, though the literal may close a quote that was open before;
and the words for truth values, whose replacement is idempotent by itself, leave a text settled.
-/

namespace ClosedSql.Dialect

open Text

/-! ## Settled texts -/

/-- Outside of quoted spans no spelling of the current time begins. The flag tells whether a word
goes on where the text begins. -/
inductive Settled : Bool → List Char → Prop
  | nil {inWord : Bool} : Settled inWord []
  | span {inWord : Bool} {quote : Char} {inner rest : List Char} (isQuote : IsQuote quote)
      (closes : quote ∉ inner) (tail : Settled false rest) :
      Settled inWord (quote :: (inner ++ quote :: rest))
  | dangling {inWord : Bool} {quote : Char} {rest : List Char} (isQuote : IsQuote quote)
      (open_ : quote ∉ rest) (tail : Settled false rest) : Settled inWord (quote :: rest)
  | plain {inWord : Bool} {c : Char} {rest : List Char} (notQuote : ¬IsQuote c)
      (spells : inWord = false → nowSpelling? (c :: rest) = none)
      (tail : Settled (isWord c) rest) : Settled inWord (c :: rest)

/-- A settled text is left as it is. -/
theorem Settled.replaceNow {inWord : Bool} {text : List Char} (h : Settled inWord text)
    (now : List Char) : replaceNow now inWord text = text := by
  induction h with
  | nil => rw [replaceNow_nil]
  | span isQuote closes _ ih => rw [replaceNow_span _ _ isQuote closes, ih]
  | dangling isQuote open_ _ ih => rw [replaceNow_dangling _ _ isQuote open_, ih]
  | @plain inWord c rest notQuote spells _ ih =>
      have hrun := quotedRun?_plain notQuote rest
      cases inWord with
      | true => rw [replaceNow_inWord _ hrun, ih]
      | false => rw [replaceNow_of_no_spelling _ _ hrun (spells rfl), ih]

/-- A settled text stays settled where a word goes on. -/
theorem Settled.inWord {text : List Char} (h : Settled false text) (inWord : Bool) :
    Settled inWord text := by
  cases h with
  | nil => exact .nil
  | span isQuote closes tail => exact .span isQuote closes tail
  | dangling isQuote open_ tail => exact .dangling isQuote open_ tail
  | plain notQuote spells tail => exact .plain notQuote (fun _ => spells rfl) tail

/-- Text without quotes may stand before a settled text, if no spelling begins in it. -/
theorem Settled.append {front rest : List Char} (hfree : ∀ c ∈ front, ¬IsQuote c) {inWord : Bool}
    (hspells : ∀ passed c left, front = passed ++ c :: left → goesOn inWord passed = false →
      nowSpelling? (c :: left ++ rest) = none)
    (h : Settled (goesOn inWord front) rest) : Settled inWord (front ++ rest) := by
  induction front generalizing inWord with
  | nil => exact h
  | cons c front ih =>
      obtain ⟨hc, hfront⟩ := List.forall_mem_cons.1 hfree
      refine .plain hc (fun hword => hspells [] c front rfl hword) ?_
      refine ih hfront (fun passed d left happend hword => ?_) h
      exact hspells (c :: passed) d left (by rw [happend]; rfl) hword

/-! ## The current time -/

theorem not_mem_replaceNow {now : List Char} {quote : Char} (hquote : quote ∉ now) {inWord : Bool}
    {text : List Char} (h : quote ∉ text) : quote ∉ replaceNow now inWord text := by
  fun_induction replaceNow now inWord text with
  | case1 => exact h
  | case2 inWord c rest run tail hrun ih =>
      rw [← quotedRun?_append hrun, List.mem_append, not_or] at h
      rw [List.mem_append, not_or]
      exact ⟨h.1, ih h.2⟩
  | case3 c rest _ ih | case5 inWord c rest _ _ _ ih =>
      rw [List.mem_cons, not_or] at h ⊢
      exact ⟨h.1, ih h.2⟩
  | case4 inWord c rest _ _ tail hspelling ih =>
      rw [List.mem_append, not_or]
      exact ⟨hquote, ih fun hmem => h ((suffix_of_nowSpelling? hspelling).mem hmem)⟩

/-- Replacing the current time respells a text. -/
theorem alike_replaceNow {now : List Char} (hblocks : Blocks now) (inWord : Bool)
    (text : List Char) : Alike inWord text (replaceNow now inWord text) := by
  induction text using spans_induction generalizing inWord with
  | nil =>
      rw [replaceNow_nil]
      exact .nil
  | span quote inner rest isQuote closes ih =>
      rw [replaceNow_span _ _ isQuote closes]
      exact .span isQuote closes (ih false)
  | dangling quote rest isQuote open_ ih =>
      rw [replaceNow_dangling _ _ isQuote open_]
      exact .dangling isQuote open_ (ih rest (Nat.le_refl _) false)
  | plain c rest notQuote ih =>
      have hrun := quotedRun?_plain notQuote rest
      have htail : Alike inWord _ _ := .plain notQuote (ih rest (Nat.le_refl _) (isWord c))
      cases inWord with
      | true =>
          rw [replaceNow_inWord _ hrun]
          exact htail
      | false =>
          cases hspelling : nowSpelling? (c :: rest) with
          | none =>
              rw [replaceNow_of_no_spelling _ _ hrun hspelling]
              exact htail
          | some tail =>
              rw [replaceNow_of_spelling _ hrun hspelling]
              refine .put hblocks fun hnow hold => not_mem_replaceNow hnow fun hmem => ?_
              exact hold ((suffix_of_nowSpelling? hspelling).mem hmem)

/-- Where the old text does not hold a quote, the first ones of the new text are those of the first
literal that was put in. -/
def FirstLiteral (quote : Char) (now old new : List Char) : Prop :=
  new = old ∨ ∃ before after, quote ∉ before ∧ quote ∉ after ∧ after.length < old.length ∧
    new = before ++ now ++ replaceNow now false after

theorem FirstLiteral.append {quote : Char} {now old new skipped : List Char}
    (hskipped : quote ∉ skipped) (h : FirstLiteral quote now old new) :
    FirstLiteral quote now (skipped ++ old) (skipped ++ new) := by
  rcases h with rfl | ⟨before, after, hbefore, hafter, hlength, rfl⟩
  · exact .inl rfl
  · refine .inr ⟨skipped ++ before, after, ?_, hafter, ?_, ?_⟩
    · rw [List.mem_append, not_or]
      exact ⟨hskipped, hbefore⟩
    · rw [List.length_append]
      omega
    · simp only [List.append_assoc]

/-- The first quotes that replacing puts into a text come from the literal. -/
theorem firstLiteral_replaceNow (now : List Char) {quote : Char} {inWord : Bool} {text : List Char}
    (h : quote ∉ text) : FirstLiteral quote now text (replaceNow now inWord text) := by
  induction text using spans_induction generalizing inWord with
  | nil =>
      rw [replaceNow_nil]
      exact .inl rfl
  | span other inner rest isQuote closes ih =>
      rw [replaceNow_span _ _ isQuote closes]
      have happend : ∀ tail, other :: (inner ++ other :: tail) =
          (other :: (inner ++ [other])) ++ tail := by simp
      rw [happend rest, List.mem_append, not_or] at h
      rw [happend rest, happend (replaceNow now false rest)]
      exact (ih h.2).append h.1
  | dangling other rest isQuote open_ ih =>
      rw [replaceNow_dangling _ _ isQuote open_]
      rw [← List.singleton_append, List.mem_append, not_or] at h
      exact (ih rest (Nat.le_refl _) h.2).append h.1
  | plain c rest notQuote ih =>
      have hrun := quotedRun?_plain notQuote rest
      have hmem := h
      rw [← List.singleton_append, List.mem_append, not_or] at hmem
      have hrest : FirstLiteral quote now rest (replaceNow now (isWord c) rest) :=
        ih rest (Nat.le_refl _) hmem.2
      have htail := hrest.append hmem.1
      cases inWord with
      | true =>
          rw [replaceNow_inWord _ hrun]
          exact htail
      | false =>
          cases hspelling : nowSpelling? (c :: rest) with
          | none =>
              rw [replaceNow_of_no_spelling _ _ hrun hspelling]
              exact htail
          | some tail =>
              rw [replaceNow_of_spelling _ hrun hspelling]
              exact .inr ⟨[], tail, by simp,
                fun hmem => h ((suffix_of_nowSpelling? hspelling).mem hmem),
                length_nowSpelling? hspelling, rfl⟩

/-- A literal that may be put in without a spelling coming about, neither from it and the text around
it nor in it. -/
structure Safe (now : List Char) : Prop where
  shown : trimStart now ≠ []
  unspelled : Unspelled now
  insulated : Insulated now

/-- The literal before a settled text makes a settled text. -/
theorem Safe.settled_append {now : List Char} (h : Safe now) {rest : List Char}
    (hrest : Settled false rest) : Settled false (now ++ rest) := by
  obtain ⟨_, hspelled, hinsulated⟩ := h
  cases hinsulated with
  | @quoted quote inner isQuote free noArgument =>
      have happend : (quote :: (inner ++ [quote])) ++ rest = quote :: (inner ++ quote :: rest) := by
        simp
      rw [happend]
      exact .span isQuote (fun hmem => free _ hmem isQuote) hrest
  | bare free mark ending =>
      refine .append free (fun passed c left happend hpassed => ?_) (hrest.inWord _)
      exact hspelled.nowSpelling?_ending ending happend hpassed rest

/-- The literal may close the quote that was dangling. What stood between its own quotes is then
outside of them, and its last quote dangles in turn. -/
theorem Safe.settled_closed {now : List Char} (h : Safe now) {quote : Char}
    (hquote : IsQuote quote) (hmem : quote ∈ now) {before rest : List Char}
    (hbefore : quote ∉ before) (hrest : Settled false (quote :: rest)) (inWord : Bool) :
    Settled inWord (quote :: (before ++ now ++ rest)) := by
  obtain ⟨_, hspelled, hinsulated⟩ := h
  cases hinsulated with
  | bare free => exact absurd hquote (free _ hmem)
  | @quoted other inner isQuote free noArgument =>
      obtain rfl : quote = other := by
        simp only [List.mem_cons, List.mem_append, List.not_mem_nil, or_false] at hmem
        rcases hmem with hfirst | hinner | hlast
        · exact hfirst
        · exact absurd hquote (free _ hinner)
        · exact hlast
      have hinside : Settled false (inner ++ quote :: rest) := by
        have happend : quote :: (inner ++ [quote]) = [quote] ++ (inner ++ [quote]) := rfl
        have hinner : Unspelled inner := (happend ▸ hspelled).of_append
        refine .append free (fun passed c left happend _ => ?_) (hrest.inWord _)
        exact hinner.nowSpelling?_quote happend hquote rest
      have happend : quote :: (before ++ (quote :: (inner ++ [quote])) ++ rest) =
          quote :: (before ++ quote :: (inner ++ quote :: rest)) := by
        simp
      rw [happend]
      exact .span hquote hbefore hinside

/-- Replacing the current time settles a text. -/
theorem Safe.settled_replaceNow {now : List Char} (h : Safe now) (inWord : Bool)
    (text : List Char) : Settled inWord (replaceNow now inWord text) := by
  induction text using spans_induction generalizing inWord with
  | nil =>
      rw [replaceNow_nil]
      exact .nil
  | span quote inner rest isQuote closes ih =>
      rw [replaceNow_span _ _ isQuote closes]
      exact .span isQuote closes (ih false)
  | dangling quote rest isQuote open_ ih =>
      rw [replaceNow_dangling _ _ isQuote open_]
      by_cases hopen : quote ∈ replaceNow now false rest
      · -- Only the literal brings in quotes, and the first of them closes the one that was dangling.
        have hmem : quote ∈ now :=
          Decidable.byContradiction fun hnow => not_mem_replaceNow hnow open_ hopen
        have hfirst : FirstLiteral quote now rest (replaceNow now false rest) :=
          firstLiteral_replaceNow now open_
        rcases hfirst with hsame | ⟨before, after, hbefore, hafter, hlength, hnew⟩
        · rw [hsame] at hopen
          exact absurd hopen open_
        · have hrest := ih (quote :: after) hlength false
          rw [replaceNow_dangling _ _ isQuote hafter] at hrest
          rw [hnew]
          exact h.settled_closed isQuote hmem hbefore hrest inWord
      · exact .dangling isQuote hopen (ih rest (Nat.le_refl _) false)
  | plain c rest notQuote ih =>
      have hrun := quotedRun?_plain notQuote rest
      have htail := ih rest (Nat.le_refl _) (isWord c)
      cases inWord with
      | true =>
          rw [replaceNow_inWord _ hrun]
          exact .plain notQuote (fun hword => by cases hword) htail
      | false =>
          cases hspelling : nowSpelling? (c :: rest) with
          | none =>
              rw [replaceNow_of_no_spelling _ _ hrun hspelling]
              have hblocks := h.insulated.blocks h.shown
              exact .plain notQuote
                (fun _ => (alike_replaceNow hblocks _ rest).nowSpelling?_eq_none hspelling) htail
          | some tail =>
              have hlength := length_nowSpelling? hspelling
              rw [List.length_cons] at hlength
              rw [replaceNow_of_spelling _ hrun hspelling]
              exact h.settled_append (ih tail (by omega) false)

/-! ## Truth values -/

theorem not_mem_flagWord {quote : Char} (hquote : IsQuote quote) (c : Char) :
    quote ∉ flagWord c := by
  rw [flagWord]
  split
  · rcases hquote with rfl | rfl <;> decide
  · rcases hquote with rfl | rfl <;> decide

theorem not_mem_replaceFlagsIn {quote : Char} (hquote : IsQuote quote) {before : Option Char}
    {inWord : Bool} {text : List Char} (h : quote ∉ text) :
    quote ∉ replaceFlagsIn before inWord text := by
  induction text using spans_induction generalizing before inWord with
  | nil => rwa [replaceFlagsIn_nil]
  | span other inner rest isQuote closes ih =>
      rw [replaceFlagsIn_span _ _ isQuote closes]
      simp only [List.mem_cons, List.mem_append, not_or] at h ⊢
      exact ⟨h.1, h.2.1, h.2.2.1, ih h.2.2.2⟩
  | dangling other rest isQuote open_ ih =>
      rw [replaceFlagsIn_dangling _ _ isQuote open_]
      rw [List.mem_cons, not_or] at h ⊢
      exact ⟨h.1, ih rest (Nat.le_refl _) h.2⟩
  | plain c rest notQuote ih =>
      rw [replaceFlagsIn_of_plain _ _ (quotedRun?_plain notQuote rest)]
      rw [List.mem_cons, not_or] at h
      rw [List.mem_append, not_or]
      refine ⟨?_, ih rest (Nat.le_refl _) h.2⟩
      split
      · exact not_mem_flagWord hquote c
      · simpa using h.1

/-- No call goes on with a word for a truth value. -/
theorem blocks_flagWord (c : Char) : Blocks (flagWord c) := by
  have hinsulated : Insulated (flagWord c) := by
    rw [flagWord]
    split
    · exact .bare (by decide) (by rintro d rest ⟨⟩; decide) (.inr (by decide))
    · exact .bare (by decide) (by rintro d rest ⟨⟩; decide) (.inr (by decide))
  apply hinsulated.blocks
  rw [flagWord]
  split <;> decide

/-- Replacing truth values respells a text. -/
theorem alike_replaceFlagsIn (before : Option Char) (inWord : Bool) (text : List Char) :
    Alike inWord text (replaceFlagsIn before inWord text) := by
  induction text using spans_induction generalizing before inWord with
  | nil =>
      rw [replaceFlagsIn_nil]
      exact .nil
  | span quote inner rest isQuote closes ih =>
      rw [replaceFlagsIn_span _ _ isQuote closes]
      exact .span isQuote closes (ih _ _)
  | dangling quote rest isQuote open_ ih =>
      rw [replaceFlagsIn_dangling _ _ isQuote open_]
      exact .dangling isQuote open_ (ih rest (Nat.le_refl _) _ _)
  | plain c rest notQuote ih =>
      rcases flag_cases before inWord c rest with ⟨hbegins, hends⟩ | hflag
      · rw [replaceFlagsIn_of_flag _ _ hbegins hends]
        obtain ⟨-, rfl, -⟩ := beginsFlag_iff.1 hbegins
        refine .put (blocks_flagWord c) fun _ hold => not_mem_replaceFlagsIn (.inl rfl) fun hmem => ?_
        exact hold (List.mem_cons_of_mem _ hmem)
      · rw [replaceFlagsIn_of_not_flag _ _ (quotedRun?_plain notQuote rest) hflag]
        exact .plain notQuote (ih rest (Nat.le_refl _) _ _)

/-- Of the text before, only whether a value may begin matters. -/
theorem replaceFlagsIn_congr {before other : Option Char}
    (h : beginsValue before = beginsValue other) (inWord : Bool) (text : List Char) :
    replaceFlagsIn before inWord text = replaceFlagsIn other inWord text := by
  induction text using spans_induction generalizing before other inWord with
  | nil => rw [replaceFlagsIn_nil, replaceFlagsIn_nil]
  | span quote inner rest isQuote closes _ =>
      rw [replaceFlagsIn_span _ _ isQuote closes, replaceFlagsIn_span _ _ isQuote closes]
  | dangling quote rest isQuote open_ _ =>
      rw [replaceFlagsIn_dangling _ _ isQuote open_, replaceFlagsIn_dangling _ _ isQuote open_]
  | plain c rest notQuote ih =>
      have hrun := quotedRun?_plain notQuote rest
      rw [replaceFlagsIn_of_plain _ _ hrun, replaceFlagsIn_of_plain _ _ hrun, beginsFlag,
        beginsFlag, h]
      by_cases hblank : isBlank c = true
      · rw [if_pos hblank, if_pos hblank, ih rest (Nat.le_refl _) h]
      · rw [if_neg hblank, if_neg hblank]

theorem beginsFlag_inWord (before : Option Char) (c : Char) : beginsFlag before true c = false := by
  simp [beginsFlag]

theorem takeWhile_replaceFlagsIn (before : Option Char) (text : List Char) :
    (replaceFlagsIn before true text).takeWhile isAsciiWord = text.takeWhile isAsciiWord := by
  induction text using spans_induction generalizing before with
  | nil => rw [replaceFlagsIn_nil]
  | span quote inner rest isQuote closes _ =>
      rw [replaceFlagsIn_span _ _ isQuote closes]
      rcases isQuote with rfl | rfl <;> rfl
  | dangling quote rest isQuote open_ _ =>
      rw [replaceFlagsIn_dangling _ _ isQuote open_]
      rcases isQuote with rfl | rfl <;> rfl
  | plain c rest notQuote ih =>
      rw [replaceFlagsIn_of_not_flag _ _ (quotedRun?_plain notQuote rest)
        (.inl (beginsFlag_inWord before c))]
      by_cases hc : isAsciiWord c = true
      · rw [List.takeWhile_cons_of_pos hc, List.takeWhile_cons_of_pos hc,
          isWord_of_isAsciiWord hc, ih rest (Nat.le_refl _)]
      · rw [List.takeWhile_cons_of_neg hc, List.takeWhile_cons_of_neg hc]

/-- Where no value may begin, the text up to the end of its first word is kept, and no more than
that tells whether a value ends. -/
theorem endsValue_replaceFlagsIn {before : Option Char} (h : beginsValue before = false)
    (inWord : Bool) (text : List Char) :
    endsValue (replaceFlagsIn before inWord text) = endsValue text := by
  induction text using spans_induction generalizing inWord with
  | nil => rw [replaceFlagsIn_nil]
  | span quote inner rest isQuote closes _ =>
      rw [replaceFlagsIn_span _ _ isQuote closes, endsValue, endsValue,
        trimStart_cons_of_isQuote isQuote, trimStart_cons_of_isQuote isQuote]
      rcases isQuote with rfl | rfl <;> rfl
  | dangling quote rest isQuote open_ _ =>
      rw [replaceFlagsIn_dangling _ _ isQuote open_, endsValue, endsValue,
        trimStart_cons_of_isQuote isQuote, trimStart_cons_of_isQuote isQuote]
      rcases isQuote with rfl | rfl <;> rfl
  | plain c rest notQuote ih =>
      have hflag : beginsFlag before inWord c = false := by simp [beginsFlag, h]
      rw [replaceFlagsIn_of_not_flag _ _ (quotedRun?_plain notQuote rest) (.inl hflag)]
      by_cases hblank : isBlank c = true
      · rw [if_pos hblank]
        have hskip : ∀ tail, endsValue (c :: tail) = endsValue tail := by
          intro tail
          rw [endsValue, endsValue, trimStart_cons_of_isBlank hblank]
        rw [hskip, hskip, ih rest (Nat.le_refl _)]
      · rw [if_neg hblank, endsValue, endsValue, trimStart_cons_of_not_isBlank hblank,
          trimStart_cons_of_not_isBlank hblank]
        by_cases halpha : c.isAlpha = true
        · have hc : isAsciiWord c = true := isAsciiWord_of_isAlpha halpha
          simp only [List.takeWhile_cons_of_pos hc, isWord_of_isAsciiWord hc,
            takeWhile_replaceFlagsIn]
        · simp only [halpha]
          rfl

/-- A text ends a value whether or not its truth values are replaced. -/
theorem endsFlag_replaceFlagsIn {before : Option Char} (h : beginsValue before = false)
    (text : List Char) : endsFlag (replaceFlagsIn before true text) = endsFlag text := by
  rw [endsFlag, endsFlag, endsValue_replaceFlagsIn h, beginsInWord_eq, beginsInWord_eq,
    (alike_replaceFlagsIn before true text).head?_eq]

/-- The word that is put in for a flag is left alone by a second pass. -/
theorem replaceFlagsIn_flagWord (before : Option Char) (inWord : Bool) (c : Char)
    (rest : List Char) :
    replaceFlagsIn before inWord (flagWord c ++ rest) =
      flagWord c ++ replaceFlagsIn (some 'e') true rest := by
  have hkept : ∀ d ∈ flagWord c, ¬IsQuote d ∧ d ≠ '0' ∧ d ≠ '1' := by
    rw [flagWord]
    split <;> decide
  rw [replaceFlagsIn_kept before inWord hkept, flagWord]
  split <;> rfl

/-- Replacing truth values in a replaced text changes nothing. -/
theorem replaceFlagsIn_replaceFlagsIn (before : Option Char) (inWord : Bool) (text : List Char) :
    replaceFlagsIn before inWord (replaceFlagsIn before inWord text) =
      replaceFlagsIn before inWord text := by
  induction text using spans_induction generalizing before inWord with
  | nil => rw [replaceFlagsIn_nil, replaceFlagsIn_nil]
  | span quote inner rest isQuote closes ih =>
      rw [replaceFlagsIn_span _ _ isQuote closes, replaceFlagsIn_span _ _ isQuote closes, ih]
  | dangling quote rest isQuote open_ ih =>
      rw [replaceFlagsIn_dangling _ _ isQuote open_,
        replaceFlagsIn_dangling _ _ isQuote (not_mem_replaceFlagsIn isQuote open_),
        ih rest (Nat.le_refl _)]
  | plain c rest notQuote ih =>
      have htail := ih rest (Nat.le_refl _)
      have hrun := quotedRun?_plain notQuote
      cases hbegins : beginsFlag before inWord c with
      | false =>
          rw [replaceFlagsIn_of_not_flag _ _ (hrun _) (.inl hbegins),
            replaceFlagsIn_of_not_flag _ _ (hrun _) (.inl hbegins), htail]
      | true =>
          obtain ⟨hc, -, -⟩ := beginsFlag_iff.1 hbegins
          have hvalue : beginsValue (some c) = false := by
            rcases hc with rfl | rfl <;> rfl
          cases hends : endsFlag rest with
          | true =>
              have hsame : beginsValue (some 'e') = beginsValue (some c) := hvalue.symm
              rw [replaceFlagsIn_of_flag _ _ hbegins hends, replaceFlagsIn_flagWord,
                replaceFlagsIn_congr hsame, htail]
          | false =>
              -- No value begins after the digit, so it stays one that stands for no truth value.
              have hkept : replaceFlagsIn before inWord (c :: rest) =
                  c :: replaceFlagsIn (some c) true rest := by
                rw [replaceFlagsIn_of_not_flag _ _ (hrun _) (.inr hends)]
                rcases hc with rfl | rfl <;> rfl
              have hstill : endsFlag (replaceFlagsIn (some c) true rest) = false := by
                rw [endsFlag_replaceFlagsIn hvalue, hends]
              have hblank : isBlank c = false := by
                rcases hc with rfl | rfl <;> rfl
              have hword : isWord c = true := by
                rcases hc with rfl | rfl <;> rfl
              rw [hkept, replaceFlagsIn_of_not_flag _ _ (hrun _) (.inr hstill), hblank, hword]
              exact congrArg (c :: ·) (htail (some c) true)

/-! ## Both -/

/-- A text stays settled when its truth values are replaced. -/
theorem Settled.replaceFlagsIn {inWord : Bool} {text : List Char} (h : Settled inWord text)
    (before : Option Char) : Settled inWord (replaceFlagsIn before inWord text) := by
  induction h generalizing before with
  | nil =>
      rw [replaceFlagsIn_nil]
      exact .nil
  | span isQuote closes _ ih =>
      rw [replaceFlagsIn_span _ _ isQuote closes]
      exact .span isQuote closes (ih _)
  | dangling isQuote open_ _ ih =>
      rw [replaceFlagsIn_dangling _ _ isQuote open_]
      exact .dangling isQuote (not_mem_replaceFlagsIn isQuote open_) (ih _)
  | @plain inWord c rest notQuote spells _ ih =>
      rcases flag_cases before inWord c rest with ⟨hbegins, hends⟩ | hflag
      · obtain ⟨hc, -, -⟩ := beginsFlag_iff.1 hbegins
        have hword : isWord c = true := by
          rcases hc with rfl | rfl <;> rfl
        rw [replaceFlagsIn_of_flag _ _ hbegins hends]
        rw [hword] at ih
        have hinert : ∀ d ∈ flagWord c, Inert d := by
          rw [flagWord]
          split <;> decide
        refine .append (fun d hd => (hinert d hd).1) (fun passed d left happend _ => ?_) ?_
        · obtain ⟨-, hstamp, hcall⟩ := hinert d (by rw [happend]; simp)
          exact nowSpelling?_eq_none hstamp hcall _
        · have hgoesOn : goesOn inWord (flagWord c) = true := by
            rw [flagWord]
            split <;> rfl
          rw [hgoesOn]
          exact ih _
      · rw [replaceFlagsIn_of_not_flag _ _ (quotedRun?_plain notQuote rest) hflag]
        exact .plain notQuote
          (fun hword => (alike_replaceFlagsIn _ _ rest).nowSpelling?_eq_none (spells hword)) (ih _)

/-- Where a literal is safe a second pass changes nothing. -/
theorem Safe.normalizeChars_normalizeChars {now : List Char} (h : Safe now) (text : List Char) :
    normalizeChars now (normalizeChars now text) = normalizeChars now text := by
  have hsettled := (h.settled_replaceNow false text).replaceFlagsIn none
  change replaceFlagsIn none false (replaceNow now false (replaceFlagsIn none false _)) = _
  rw [hsettled.replaceNow]
  exact replaceFlagsIn_replaceFlagsIn none false _

def nowChars : List Char :=
  "'now()'".toList

/-- The literal that stands for the current time by default is safe. -/
theorem safe_nowChars : Safe nowChars := by
  have hvalid : ({} : Config).validate = .ok {} := by rfl
  refine ⟨by decide, unspelled_of_validate hvalid (by decide), ?_⟩
  have hfree : ∀ c ∈ "now()".toList, ¬IsQuote c := by decide
  exact .quoted (.inl rfl) hfree fun _ => by decide

theorem normalizeChars_normalizeChars (text : List Char) :
    normalizeChars nowChars (normalizeChars nowChars text) = normalizeChars nowChars text :=
  safe_nowChars.normalizeChars_normalizeChars text

end ClosedSql.Dialect

namespace ClosedSql.Config

/-- Under the default settings, a statement that has been normalized is not changed by normalizing
it again. -/
theorem normalize_normalize (text : String) :
    ({} : Config).normalize (({} : Config).normalize text) = ({} : Config).normalize text := by
  apply String.toList_inj.1
  simp only [Config.normalize, Dialect.normalize, String.toList_ofList]
  exact Dialect.normalizeChars_normalizeChars text.toList

/-- The same holds under all accepted settings whose literal is insulated and holds no long s. -/
theorem normalize_normalize_of_validate {config : Config} (hvalid : config.validate = .ok config)
    (hlong : '\u017f' ∉ config.nowLiteral.toList)
    (hinsulated : Dialect.Insulated config.nowLiteral.toList) (text : String) :
    config.normalize (config.normalize text) = config.normalize text := by
  have hsafe : Dialect.Safe config.nowLiteral.toList :=
    ⟨(Dialect.literal_of_validate hvalid).1, Dialect.unspelled_of_validate hvalid hlong, hinsulated⟩
  apply String.toList_inj.1
  simp only [Config.normalize, Dialect.normalize, String.toList_ofList]
  exact hsafe.normalizeChars_normalizeChars text.toList

theorem normalize_normalize_of_validate_call :
    ({ nowLiteral := "NOW()" } : Config).validate = .ok { nowLiteral := "NOW()" } ∧
      '\u017f' ∉ "NOW()".toList ∧ Dialect.Insulated "NOW()".toList ∧
      ∀ text, ({ nowLiteral := "NOW()" } : Config).normalize
          (({ nowLiteral := "NOW()" } : Config).normalize text) =
        ({ nowLiteral := "NOW()" } : Config).normalize text := by
  have hvalid : ({ nowLiteral := "NOW()" } : Config).validate = .ok { nowLiteral := "NOW()" } := by
    rfl
  have hlong : '\u017f' ∉ "NOW()".toList := by decide
  have hinsulated : Dialect.Insulated "NOW()".toList :=
    .bare (by decide) (by rintro c rest ⟨⟩; decide) (.inl (by decide))
  exact ⟨hvalid, hlong, hinsulated, normalize_normalize_of_validate hvalid hlong hinsulated⟩

/-- Accepted settings alone are not enough: a literal may be an argument of the call that it is put
into. -/
theorem normalize_normalize_ne :
    ¬∀ config : Config, config.validate = .ok config → ∀ text,
      config.normalize (config.normalize text) = config.normalize text := by
  intro hall
  have hsame := hall { nowLiteral := "'now'" } (by rfl)
    "SELECT * FROM t WHERE a = datetime(CURRENT_TIMESTAMP)"
  revert hsame
  decide +kernel

/-- The other conditions are needed as well: a literal may hold a word that the check does not see,
open a quote, or begin a word. -/
example : ∀ sample ∈ [("x CURRENT_TIME\u017fTAMP", "CURRENT_TIMESTAMP"),
      ("'", "CURRENT_TIMESTAMP 'CURRENT_TIMESTAMP'"), ("CURRENT_", "datetime('now')TIMESTAMP")],
    ({ nowLiteral := sample.1 } : Config).fault? = none ∧
      ({ nowLiteral := sample.1 } : Config).normalize
          (({ nowLiteral := sample.1 } : Config).normalize sample.2) ≠
        ({ nowLiteral := sample.1 } : Config).normalize sample.2 := by
  decide +kernel

end ClosedSql.Config
