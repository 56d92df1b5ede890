import ClosedSql.Proofs.Dialect.Respelling

/-!
# Texts whose quotes are closed

Where every quote of a text is closed, the current time is replaced in it without a look at what
follows. No quoted run reaches beyond the end of the text, and a call that is not complete could
only go on with one of its marks, with a text in quotes or within its word.
-/

namespace ClosedSql.Dialect

open Text

/-! ## Open quotes -/

/-- The quote that is open after one more character. -/
def quoteAfter (before : Option Char) (c : Char) : Option Char :=
  match before with
  | none => if IsQuote c then some c else none
  | some quote => if c = quote then none else some quote

/-- The quote that is open at the end of a text, given the one that is open before it. -/
def openQuote (before : Option Char) (text : List Char) : Option Char :=
  text.foldl quoteAfter before

theorem openQuote_cons (before : Option Char) (c : Char) (rest : List Char) :
    openQuote before (c :: rest) = openQuote (quoteAfter before c) rest :=
  rfl

/-- Every quote that opens in the text closes in it. -/
def Closed (text : List Char) : Prop :=
  openQuote none text = none

instance (text : List Char) : Decidable (Closed text) :=
  inferInstanceAs (Decidable (openQuote none text = none))

/-- Within quotes only the same quote ends what is open. -/
theorem openQuote_of_not_mem {quote : Char} {inner : List Char} (h : quote ∉ inner) :
    openQuote (some quote) inner = some quote := by
  induction inner with
  | nil => rfl
  | cons c inner ih =>
      obtain ⟨hc, hinner⟩ := not_or.1 (mt List.mem_cons.2 h)
      have hstep : quoteAfter (some quote) c = some quote := if_neg (Ne.symm hc)
      rw [openQuote_cons, hstep]
      exact ih hinner

/-- What is open at the end is known from what is open before. -/
theorem openQuote_append (before : Option Char) (text rest : List Char) :
    openQuote before (text ++ rest) = openQuote (openQuote before text) rest :=
  List.foldl_append

theorem isQuote_of_openQuote {before : Option Char} (h : ∀ quote ∈ before, IsQuote quote)
    {text : List Char} : ∀ quote ∈ openQuote before text, IsQuote quote := by
  induction text generalizing before with
  | nil => exact h
  | cons c text ih =>
      refine @ih (quoteAfter before c) fun quote hquote => ?_
      cases before with
      | none =>
          rw [quoteAfter] at hquote
          split at hquote
          · next hc =>
              cases hquote
              exact hc
          · cases hquote
      | some opened =>
          rw [quoteAfter] at hquote
          split at hquote
          · cases hquote
          · cases hquote
            exact h _ rfl

theorem closed_nil : Closed [] :=
  rfl

/-- Behind a closed text nothing is open that is not open without it. -/
theorem Closed.append_iff {text rest : List Char} (h : Closed text) :
    Closed (text ++ rest) ↔ Closed rest := by
  rw [Closed, openQuote_append, show openQuote none text = none from h]
  exact Iff.rfl

theorem closed_cons_iff {c : Char} (h : ¬IsQuote c) (rest : List Char) :
    Closed (c :: rest) ↔ Closed rest := by
  have hstep : quoteAfter none c = none := if_neg h
  rw [Closed, openQuote_cons, hstep]
  exact Iff.rfl

/-- A text between two quotes is closed. -/
theorem closed_span {quote : Char} {inner : List Char} (isQuote : IsQuote quote)
    (closes : quote ∉ inner) : Closed (quote :: (inner ++ [quote])) := by
  have hopens : quoteAfter none quote = some quote := if_pos isQuote
  have hinner : openQuote none (quote :: (inner ++ [quote])) =
      openQuote (some quote) (inner ++ [quote]) := by
    rw [openQuote_cons, hopens]
  rw [Closed, hinner, openQuote_append, openQuote_of_not_mem closes]
  exact if_pos rfl

theorem closed_span_iff {quote : Char} {inner : List Char} (isQuote : IsQuote quote)
    (closes : quote ∉ inner) (rest : List Char) :
    Closed (quote :: (inner ++ quote :: rest)) ↔ Closed rest := by
  have happend : quote :: (inner ++ quote :: rest) = (quote :: (inner ++ [quote])) ++ rest := by
    simp
  rw [happend]
  exact (closed_span isQuote closes).append_iff

/-- A quote that is never closed leaves the text open. -/
theorem not_closed_dangling {quote : Char} {rest : List Char} (isQuote : IsQuote quote)
    (open_ : quote ∉ rest) : ¬Closed (quote :: rest) := by
  have hopens : quoteAfter none quote = some quote := if_pos isQuote
  have hstill : openQuote none (quote :: rest) = some quote := by
    rw [openQuote_cons, hopens]
    exact openQuote_of_not_mem open_
  rw [Closed, hstill]
  exact Option.some_ne_none quote

theorem closed_of_free {text : List Char} (h : ∀ c ∈ text, ¬IsQuote c) : Closed text := by
  induction text with
  | nil => exact closed_nil
  | cons c text ih =>
      obtain ⟨hc, htext⟩ := List.forall_mem_cons.1 h
      exact (closed_cons_iff hc text).2 (ih htext)

/-- Induction along a closed text, span by span. -/
@[elab_as_elim]
theorem Closed.induction {motive : (text : List Char) → Closed text → Prop}
    (nil : motive [] closed_nil)
    (span : ∀ quote inner rest (isQuote : IsQuote quote) (closes : quote ∉ inner)
      (tail : Closed rest), motive rest tail →
        motive (quote :: (inner ++ quote :: rest)) ((closed_span_iff isQuote closes rest).2 tail))
    (plain : ∀ c rest (notQuote : ¬IsQuote c) (tail : Closed rest),
      (∀ text (h : Closed text), text.length ≤ rest.length → motive text h) →
        motive (c :: rest) ((closed_cons_iff notQuote rest).2 tail))
    {text : List Char} (h : Closed text) : motive text h := by
  induction text using spans_induction with
  | nil => exact nil
  | span quote inner rest isQuote closes ih =>
      have htail := (closed_span_iff isQuote closes rest).1 h
      exact span quote inner rest isQuote closes htail (ih htail)
  | dangling quote rest isQuote open_ _ => exact absurd h (not_closed_dangling isQuote open_)
  | plain c rest notQuote ih =>
      have htail := (closed_cons_iff notQuote rest).1 h
      exact plain c rest notQuote htail fun text hclosed hlength => ih text hlength hclosed

/-! ## Calls before a cut -/

/-- Behind a closed text the reader stops where it stops in the text alone, and what it leaves of
the text is closed. -/
structure Local (rest : List Char) (read : List Char → Option (List Char)) : Prop where
  keeps : ∀ {text}, Closed text → read (text ++ rest) = (read text).map (· ++ rest)
  closed : ∀ {text tail}, Closed text → read text = some tail → Closed tail

/-- A character that begins a token of its own, with which no call goes on. -/
def Stands (c : Char) : Prop :=
  ¬IsQuote c ∧ isBlank c = false ∧ ¬IsCallMark c

instance (c : Char) : Decidable (Stands c) :=
  inferInstanceAs (Decidable (¬IsQuote c ∧ isBlank c = false ∧ ¬IsCallMark c))

theorem stands_of_isAsciiWord {c : Char} (h : isAsciiWord c = true) : Stands c := by
  refine ⟨not_isQuote_of_isWord (isWord_of_isAsciiWord h), isBlank_of_isAsciiWord h, ?_⟩
  rintro (rfl | rfl | rfl) <;> exact absurd h (by decide)

/-- Blanks are removed from the front alone. -/
theorem trimStart_append_shown {c : Char} (h : isBlank c = false) (text more : List Char) :
    trimStart (text ++ c :: more) = trimStart text ++ c :: more := by
  have hshown : ¬isBlank c = true := by simp [h]
  rw [trimStart, List.dropWhile_append, trimStart]
  split
  · next hempty =>
      rw [List.isEmpty_iff.1 hempty, List.dropWhile_cons_of_neg hshown]
      rfl
  · rfl

theorem Closed.trimStart {text : List Char} (h : Closed text) : Closed (trimStart text) := by
  induction text with
  | nil => exact h
  | cons c text ih =>
      by_cases hblank : isBlank c = true
      · rw [trimStart_cons_of_isBlank hblank]
        exact ih ((closed_cons_iff (not_isQuote_of_isBlank hblank) text).1 h)
      · rwa [trimStart_cons_of_not_isBlank hblank]

theorem Closed.of_trimStart {text rest : List Char} {c : Char} (h : Closed text)
    (htrim : Text.trimStart text = c :: rest) (hc : ¬IsQuote c) : Closed rest := by
  have hshown := h.trimStart
  rw [htrim] at hshown
  exact (closed_cons_iff hc rest).1 hshown

theorem Closed.of_afterWord? {text tail word : List Char} (h : Closed text)
    (hword : ∀ w ∈ word, isAsciiWord w = true) (hread : Text.afterWord? word text = some tail) :
    Closed tail := by
  obtain ⟨letters, rfl, rfl⟩ := exists_append_of_afterWord? hread
  have hfree : ∀ c ∈ letters, ¬IsQuote c := fun c hc =>
    not_isQuote_of_isWord (isWord_of_fold (hword _ (List.mem_map_of_mem hc)) rfl)
  exact (closed_of_free hfree).append_iff.1 h

section Local

variable {c : Char} {more : List Char}

/-- A word is read before the cut, as no word goes on across it. -/
theorem afterWord?_append_apart {word : List Char} (hword : ∀ w ∈ word, isAsciiWord w = true)
    {text : List Char} (hapart : isWord c = true → goesOn true text = false) :
    afterWord? word (text ++ c :: more) = (afterWord? word text).map (· ++ c :: more) := by
  induction word generalizing text with
  | nil => rfl
  | cons w word ih =>
      obtain ⟨hw, hletters⟩ := List.forall_mem_cons.1 hword
      cases text with
      | nil =>
          refine afterWord?_cons_of_ne (fun hfold => ?_) _ _
          have hgoes : goesOn true [] = false := hapart (isWord_of_fold hw hfold)
          cases hgoes
      | cons d text =>
          by_cases hfold : fold d = w
          · rw [List.cons_append, afterWord?_cons_of_eq hfold, afterWord?_cons_of_eq hfold]
            refine ih hletters fun hc => ?_
            have hgoes : goesOn (isWord d) text = false := hapart hc
            rwa [isWord_of_fold hw hfold] at hgoes
          · rw [List.cons_append, afterWord?_cons_of_ne hfold, afterWord?_cons_of_ne hfold]
            rfl

/-- What is left behind a word ends where the text ends. -/
theorem goesOn_of_afterWord? {word text tail : List Char}
    (hword : ∀ w ∈ word, isAsciiWord w = true) (h : afterWord? word text = some tail) :
    goesOn true text = goesOn true tail := by
  induction word generalizing text with
  | nil =>
      cases h
      rfl
  | cons w word ih =>
      obtain ⟨hw, hletters⟩ := List.forall_mem_cons.1 hword
      obtain ⟨d, text, rfl, hfold, hread⟩ := exists_cons_of_afterWord? h
      have hgoes : goesOn true (d :: text) = goesOn (isWord d) text := rfl
      rw [hgoes, isWord_of_fold hw hfold]
      exact ih hletters hread

variable (hc : Stands c)

include hc

/-- A text in quotes is read as an argument as a whole. -/
theorem local_argument {word : List Char} (hword : '\'' ∉ word) :
    Local (c :: more) (afterWord? ('\'' :: (word ++ ['\'']))) where
  keeps {text} h := by
    cases front text with
    | nil =>
        refine afterWord?_cons_of_ne (fun hfold => hc.1 (.inl ?_)) _ _
        exact eq_of_fold (by decide) hfold
    | @span quote inner rest isQuote closes =>
        by_cases hquote : quote = '\''
        · subst hquote
          have hquote : fold '\'' = '\'' := rfl
          rw [List.cons_append, List.append_assoc, List.cons_append, afterWord?_cons_of_eq hquote,
            afterWord?_cons_of_eq hquote]
          cases hread : afterWord? (word ++ ['\'']) (inner ++ '\'' :: rest) with
          | some tail =>
              obtain ⟨rfl, hother⟩ := afterWord?_span hword closes hread
              exact hother _
          | none =>
              cases hlonger :
                  afterWord? (word ++ ['\'']) (inner ++ '\'' :: (rest ++ c :: more)) with
              | none => rfl
              | some tail =>
                  rw [(afterWord?_span hword closes hlonger).2 rest] at hread
                  cases hread
        · have hfold : fold quote ≠ '\'' := fun hfold => hquote (eq_of_fold (by decide) hfold)
          rw [List.cons_append, afterWord?_cons_of_ne hfold, afterWord?_cons_of_ne hfold]
          rfl
    | dangling isQuote open_ => exact absurd h (not_closed_dangling isQuote open_)
    | @plain d rest notQuote =>
        have hfold : fold d ≠ '\'' := fun hfold => notQuote (.inl (eq_of_fold (by decide) hfold))
        rw [List.cons_append, afterWord?_cons_of_ne hfold, afterWord?_cons_of_ne hfold]
        rfl
  closed {text tail} h hread := by
    obtain ⟨d, rest, rfl, hfold, hread⟩ := exists_cons_of_afterWord? hread
    obtain rfl : d = '\'' := eq_of_fold (by decide) hfold
    cases hfront : front ('\'' :: rest) with
    | span isQuote closes =>
        obtain ⟨rfl, -⟩ := afterWord?_span hword closes hread
        exact (closed_span_iff isQuote closes _).1 h
    | dangling isQuote open_ => exact absurd h (not_closed_dangling isQuote open_)
    | plain notQuote => exact absurd (.inl rfl) notQuote

/-- A modifier is read within a closed text or not at all. -/
theorem local_modifier : Local (c :: more) modifier? := by
  have hlocaltime : Local (c :: more) (afterWord? "'localtime'".toList) :=
    local_argument hc (by decide : '\'' ∉ "localtime".toList)
  have hutc : Local (c :: more) (afterWord? "'utc'".toList) :=
    local_argument hc (by decide : '\'' ∉ "utc".toList)
  constructor
  case keeps =>
    intro text h
    rw [modifier?, modifier?, hlocaltime.keeps h, hutc.keeps h]
    cases afterWord? "'localtime'".toList text <;> rfl
  case closed =>
    intro text tail h hread
    rcases modifier?_eq_some_iff.1 hread with hread | hread
    · exact hlocaltime.closed h hread
    · exact hutc.closed h hread

/-- The end of a call is read within a closed text or not at all. -/
theorem local_callTail : Local (c :: more) callTail? where
  keeps {text} h := by
    have hlocal : Local (c :: more) modifier? := local_modifier hc
    obtain ⟨hquote, hblank, hmark⟩ := hc
    fun_induction callTail? text with
    | case1 text htrim =>
        have hcut : trimStart (text ++ c :: more) = c :: more := by
          rw [trimStart_append_shown hblank, htrim, List.nil_append]
        rw [callTail?_cons hcut, if_neg fun heq => hmark (.inr (.inl heq)),
          if_neg fun heq => hmark (.inr (.inr heq))]
        rfl
    | case2 text rest htrim =>
        have hcut : trimStart (text ++ c :: more) = ')' :: (rest ++ c :: more) := by
          rw [trimStart_append_shown hblank, htrim, List.cons_append]
        rw [callTail?_cons hcut, if_pos rfl]
        rfl
    | case3 text rest tail hmodifier htrim _ ih =>
        have hrest := (h.of_trimStart htrim (by decide)).trimStart
        have hcut : trimStart (text ++ c :: more) = ',' :: (rest ++ c :: more) := by
          rw [trimStart_append_shown hblank, htrim, List.cons_append]
        rw [callTail?_cons hcut, if_neg (by decide), if_pos rfl, trimStart_append_shown hblank,
          hlocal.keeps hrest, hmodifier]
        exact ih (hlocal.closed hrest hmodifier)
    | case4 text rest hmodifier htrim _ =>
        have hrest := (h.of_trimStart htrim (by decide)).trimStart
        have hcut : trimStart (text ++ c :: more) = ',' :: (rest ++ c :: more) := by
          rw [trimStart_append_shown hblank, htrim, List.cons_append]
        rw [callTail?_cons hcut, if_neg (by decide), if_pos rfl, trimStart_append_shown hblank,
          hlocal.keeps hrest, hmodifier]
        rfl
    | case5 text d rest htrim hclose hcomma =>
        have hcut : trimStart (text ++ c :: more) = d :: (rest ++ c :: more) := by
          rw [trimStart_append_shown hblank, htrim, List.cons_append]
        rw [callTail?_cons hcut, if_neg hclose, if_neg hcomma]
        rfl
  closed {text tail} h hread := by
    have hlocal : Local (c :: more) modifier? := local_modifier hc
    fun_induction callTail? text with
    | case1 => cases hread
    | case2 text rest htrim =>
        cases hread
        exact h.of_trimStart htrim (by decide)
    | case3 text rest found hmodifier htrim _ ih =>
        have hrest := (h.of_trimStart htrim (by decide)).trimStart
        exact ih (hlocal.closed hrest hmodifier) hread
    | case4 => cases hread
    | case5 => cases hread

/-- The arguments of a call are read within a closed text or not at all. -/
theorem local_callArguments : Local (c :: more) callArguments? := by
  have hinstant : Local (c :: more) (afterWord? "'now'".toList) :=
    local_argument hc (by decide : '\'' ∉ "now".toList)
  have htail : Local (c :: more) callTail? := local_callTail hc
  obtain ⟨hquote, hblank, hmark⟩ := hc
  constructor
  case keeps =>
    intro text h
    have hcut := trimStart_append_shown hblank text more
    cases htrim : trimStart text with
    | nil =>
        rw [htrim, List.nil_append] at hcut
        rw [callArguments?, callArguments?, hcut, htrim]
        split
        · next heq =>
            cases heq
            exact absurd (.inl rfl) hmark
        · rfl
    | cons d rest =>
        rw [htrim, List.cons_append] at hcut
        rw [callArguments?, callArguments?, hcut, htrim]
        by_cases hopens : d = '('
        · subst hopens
          have hrest := (h.of_trimStart htrim (by decide)).trimStart
          simp only [trimStart_append_shown hblank, hinstant.keeps hrest]
          cases hread : afterWord? "'now'".toList (trimStart rest) with
          | none => rfl
          | some tail => exact htail.keeps (hinstant.closed hrest hread)
        · split
          · next heq =>
              cases heq
              exact absurd rfl hopens
          · split
            · next heq =>
                cases heq
                exact absurd rfl hopens
            · rfl
  case closed =>
    intro text tail h hread
    rw [callArguments?] at hread
    split at hread
    · next rest htrim =>
        obtain ⟨found, hfound, hclose⟩ := Option.bind_eq_some_iff.1 hread
        have hrest := (h.of_trimStart htrim (by decide)).trimStart
        exact htail.closed (hinstant.closed hrest hfound) hclose
    · cases hread

/-- A spelling of the current time begins before the cut as it does without what stands behind. -/
theorem Closed.nowSpelling?_append {text : List Char} (h : Closed text)
    (hapart : isWord c = true → goesOn true text = false) :
    nowSpelling? (text ++ c :: more) = (nowSpelling? text).map (· ++ c :: more) := by
  have hstamp : ∀ w ∈ "current_timestamp".toList, isAsciiWord w = true := by decide
  have hcall : ∀ w ∈ "datetime".toList, isAsciiWord w = true := by decide
  have hlocal : Local (c :: more) callArguments? := local_callArguments hc
  rw [nowSpelling?, nowSpelling?, afterWord?_append_apart hstamp hapart,
    afterWord?_append_apart hcall hapart]
  cases hread : afterWord? "current_timestamp".toList text with
  | some tail =>
      have hbegins : beginsInWord (tail ++ c :: more) = beginsInWord tail := by
        cases tail with
        | cons d tail => rfl
        | nil =>
            -- the text ends in the word, so no word goes on behind the cut
            have hgoes : goesOn true text = true := goesOn_of_afterWord? hstamp hread
            refine Bool.eq_false_iff.2 fun hword => ?_
            rw [hapart hword] at hgoes
            cases hgoes
      simp only [Option.map_some, hbegins]
      split <;> rfl
  | none =>
      simp only [Option.map_none]
      cases hdatetime : afterWord? "datetime".toList text with
      | none => rfl
      | some tail => exact hlocal.keeps (h.of_afterWord? hcall hdatetime)

end Local

/-- What follows a spelling of the current time in a closed text is closed. -/
theorem Closed.of_nowSpelling? {text tail : List Char} (h : Closed text)
    (hread : nowSpelling? text = some tail) : Closed tail := by
  have hlocal : Local ['?'] callArguments? := local_callArguments (by decide)
  rw [nowSpelling?] at hread
  split at hread
  · next found hfound =>
      have hclosed := h.of_afterWord? (by decide) hfound
      split at hread
      · cases hread
      · cases hread
        exact hclosed
  · obtain ⟨found, hfound, hcall⟩ := Option.bind_eq_some_iff.1 hread
    exact hlocal.closed (h.of_afterWord? (by decide) hfound) hcall

/-! ## The current time before a cut -/

theorem goesOn_span {quote : Char} (isQuote : IsQuote quote) (inWord : Bool)
    (inner rest : List Char) :
    goesOn inWord (quote :: (inner ++ quote :: rest)) = goesOn false rest := by
  simp [goesOn, isWord_of_isQuote isQuote]

theorem goesOn_of_suffix {text tail : List Char} (h : tail <:+ text) {inWord : Bool}
    (hends : goesOn inWord text = false) : goesOn false tail = false := by
  obtain ⟨front, rfl⟩ := h
  cases tail with
  | nil => rfl
  | cons c tail =>
      rw [goesOn, List.foldl_append] at hends
      exact hends

/-- The current time is replaced in a closed text by itself. -/
theorem Closed.replaceNow_append {text : List Char} (h : Closed text) {c : Char} (hc : Stands c)
    {inWord : Bool} (hword : isWord c = true → goesOn inWord text = false) (now more : List Char) :
    replaceNow now inWord (text ++ c :: more) =
      replaceNow now inWord text ++ replaceNow now false (c :: more) := by
  induction h using Closed.induction generalizing inWord with
  | nil =>
      rw [replaceNow_nil, List.nil_append, List.nil_append]
      cases inWord with
      | false => rfl
      | true =>
          have hends : isWord c = false := by
            refine Bool.eq_false_iff.2 fun hgoes => ?_
            have hgoesOn : goesOn true [] = false := hword hgoes
            cases hgoesOn
          have hfold : ∀ w, isAsciiWord w = true → fold c ≠ w := by
            rintro w hw hfold
            rw [isWord_of_fold hw hfold] at hends
            cases hends
          have hspelling :=
            nowSpelling?_eq_none (hfold 'c' (by decide)) (hfold 'd' (by decide)) more
          have hrun := quotedRun?_plain hc.1 more
          rw [replaceNow_inWord _ hrun, replaceNow_of_no_spelling _ _ hrun hspelling]
  | span quote inner rest isQuote closes tail ih =>
      have happend : quote :: (inner ++ quote :: rest) ++ c :: more =
          quote :: (inner ++ quote :: (rest ++ c :: more)) := by simp
      rw [goesOn_span isQuote] at hword
      rw [happend, replaceNow_span _ _ isQuote closes, replaceNow_span _ _ isQuote closes, ih hword]
      simp
  | plain d rest notQuote tail ih =>
      have hrun := quotedRun?_plain notQuote
      have hrest : replaceNow now (isWord d) (rest ++ c :: more) =
          replaceNow now (isWord d) rest ++ replaceNow now false (c :: more) :=
        ih rest tail (Nat.le_refl _) hword
      cases inWord with
      | true =>
          rw [List.cons_append, replaceNow_inWord _ (hrun _), replaceNow_inWord _ (hrun _), hrest]
          rfl
      | false =>
          have hclosed := (closed_cons_iff notQuote rest).2 tail
          have hsame : nowSpelling? (d :: rest ++ c :: more) = _ :=
            hclosed.nowSpelling?_append hc hword
          cases hspelling : nowSpelling? (d :: rest) with
          | none =>
              rw [hspelling, List.cons_append] at hsame
              rw [replaceNow_of_no_spelling _ _ (hrun _) hspelling, List.cons_append,
                replaceNow_of_no_spelling _ _ (hrun _) hsame, hrest]
              rfl
          | some found =>
              rw [hspelling, List.cons_append] at hsame
              have hlength := length_nowSpelling? hspelling
              rw [List.length_cons] at hlength
              rw [replaceNow_of_spelling _ (hrun _) hspelling, List.cons_append,
                replaceNow_of_spelling _ (hrun _) hsame, List.append_assoc,
                ih found (hclosed.of_nowSpelling? hspelling) (by omega) fun hgoes =>
                  goesOn_of_suffix (suffix_of_nowSpelling? hspelling) (hword hgoes)]

end ClosedSql.Dialect
