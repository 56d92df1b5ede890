import ClosedSql.Proofs.Dialect.Spans

/-!
# No spelling comes about by replacing

Both replacements keep quoted spans as they are and put a fixed text in the place of something
outside of them. A text that has been changed in this way spells the current time only where the
old one did, as long as no call goes on with what is put in: it begins with no mark of a call, it is
not read as an argument, and it does not close a quote that was there before.
-/

namespace ClosedSql.Dialect

open Text

def IsArgument (word : List Char) : Prop :=
  word = "now".toList ∨ word = "localtime".toList ∨ word = "utc".toList

instance (word : List Char) : Decidable (IsArgument word) :=
  inferInstanceAs
    (Decidable (word = "now".toList ∨ word = "localtime".toList ∨ word = "utc".toList))

def IsCallMark (c : Char) : Prop :=
  c = '(' ∨ c = ')' ∨ c = ','

instance (c : Char) : Decidable (IsCallMark c) :=
  inferInstanceAs (Decidable (c = '(' ∨ c = ')' ∨ c = ','))

/-- A text that no call goes on with, nor ends in. -/
structure Blocks (put : List Char) : Prop where
  mark : ∃ c rest, trimStart put = c :: rest ∧ ¬IsCallMark c
  argument : ∀ word, IsArgument word → ∀ rest,
    afterWord? ('\'' :: (word ++ ['\''])) (trimStart (put ++ rest)) = none
  /-- A single quote in it is not the first that is met after a word. -/
  quote : '\'' ∉ put ∨ put.head? = some '\''

/-- The new text reads like the old one up to the first place where a text was put in; there is
no such place inside a span. The flag tells whether a word goes on where the texts begin; there
nothing is put in. -/
inductive Alike : Bool → List Char → List Char → Prop
  | nil {inWord : Bool} : Alike inWord [] []
  | span {inWord : Bool} {quote : Char} {inner old new : List Char} (isQuote : IsQuote quote)
      (closes : quote ∉ inner) (tail : Alike false old new) :
      Alike inWord (quote :: (inner ++ quote :: old)) (quote :: (inner ++ quote :: new))
  | dangling {inWord : Bool} {quote : Char} {old new : List Char} (isQuote : IsQuote quote)
      (open_ : quote ∉ old) (tail : Alike false old new) :
      Alike inWord (quote :: old) (quote :: new)
  | plain {inWord : Bool} {c : Char} {old new : List Char} (notQuote : ¬IsQuote c)
      (tail : Alike (isWord c) old new) : Alike inWord (c :: old) (c :: new)
  | put {put old new : List Char} (blocks : Blocks put)
      (closes : '\'' ∉ put → '\'' ∉ old → '\'' ∉ new) : Alike false old (put ++ new)

namespace Alike

variable {inWord : Bool} {old new : List Char}

/-- Where a word goes on both texts begin alike. -/
theorem head?_eq (h : Alike true old new) : new.head? = old.head? := by
  cases h <;> rfl

/-- A character that begins the new text begins the old one as well, unless it was put in. -/
theorem of_cons {c : Char} {rest : List Char} (h : Alike inWord old (c :: rest))
    (hquote : ¬IsQuote c) :
    (∃ tail, old = c :: tail ∧ Alike (isWord c) tail rest) ∨
      inWord = false ∧ ∃ put new, Blocks put ∧ c :: rest = put ++ new ∧
        ('\'' ∉ put → '\'' ∉ old → '\'' ∉ new) := by
  generalize heq : c :: rest = text at h
  cases h with
  | nil => cases heq
  | span isQuote =>
      cases heq
      exact absurd isQuote hquote
  | dangling isQuote =>
      cases heq
      exact absurd isQuote hquote
  | plain notQuote tail =>
      cases heq
      exact .inl ⟨_, rfl, tail⟩
  | put blocks closes => exact .inr ⟨rfl, _, _, blocks, rfl, closes⟩

/-- A word that goes on in the new text goes on in the old one. -/
theorem of_afterWord? {word rest : List Char} (hword : ∀ w ∈ word, isAsciiWord w = true)
    (h : Alike true old new) (hnew : afterWord? word new = some rest) :
    ∃ tail, afterWord? word old = some tail ∧ Alike true tail rest := by
  induction word generalizing old new with
  | nil =>
      cases hnew
      exact ⟨old, rfl, h⟩
  | cons w word ih =>
      obtain ⟨c, new, rfl, hfold, hnew⟩ := exists_cons_of_afterWord? hnew
      have hc : isWord c = true := isWord_of_fold (hword w List.mem_cons_self) hfold
      obtain ⟨old, rfl, htail⟩ :=
        (h.of_cons (not_isQuote_of_isWord hc)).resolve_right fun hput => by cases hput.1
      rw [hc] at htail
      rw [afterWord?_cons_of_eq hfold]
      exact ih (fun v hv => hword v (List.mem_cons_of_mem _ hv)) htail hnew

/-- A word of the new text whose first letter is kept is a word of the old one. -/
theorem of_afterWord?_cons {c w : Char} {word rest : List Char}
    (hword : ∀ v ∈ w :: word, isAsciiWord v = true) (h : Alike (isWord c) old new)
    (hnew : afterWord? (w :: word) (c :: new) = some rest) :
    fold c = w ∧ ∃ tail, afterWord? (w :: word) (c :: old) = some tail ∧ Alike true tail rest := by
  obtain ⟨_, _, heq, hfold, hread⟩ := exists_cons_of_afterWord? hnew
  cases heq
  obtain ⟨hw, hletters⟩ := List.forall_mem_cons.1 hword
  rw [isWord_of_fold hw hfold] at h
  obtain ⟨tail, htail, halike⟩ := h.of_afterWord? hletters hread
  exact ⟨hfold, tail, (afterWord?_cons_of_eq hfold _ old).trans htail, halike⟩

/-- A mark of a call that begins the new text after blanks begins the old one after blanks. -/
theorem of_trimStart {c : Char} {rest : List Char} (h : Alike inWord old new)
    (hnew : trimStart new = c :: rest) (hmark : IsCallMark c) :
    ∃ goesOn tail, trimStart old = c :: tail ∧ Alike goesOn tail rest := by
  have hquote : ¬IsQuote c := by
    rcases hmark with rfl | rfl | rfl <;> decide
  induction h with
  | nil => cases hnew
  | span isQuote | dangling isQuote =>
      rw [trimStart_cons_of_isQuote isQuote] at hnew
      cases hnew
      exact absurd isQuote hquote
  | @plain _ d old new notQuote tail ih =>
      by_cases hblank : isBlank d = true
      · rw [trimStart_cons_of_isBlank hblank] at hnew
        rw [trimStart_cons_of_isBlank hblank]
        exact ih hnew
      · rw [trimStart_cons_of_not_isBlank hblank] at hnew
        cases hnew
        rw [trimStart_cons_of_not_isBlank hblank]
        exact ⟨_, old, rfl, tail⟩
  | put blocks =>
      obtain ⟨d, tail, hput, hd⟩ := blocks.mark
      rw [trimStart_append_of_cons hput] at hnew
      cases hnew
      exact absurd hmark hd

end Alike

/-! ## Texts in quotes -/

/-- An argument is a word. -/
theorem exists_cons_of_isArgument {word : List Char} (h : IsArgument word) :
    ∃ w rest, word = w :: rest ∧ ∀ v ∈ word, isAsciiWord v = true := by
  rcases h with rfl | rfl | rfl
  · exact ⟨_, _, rfl, by decide⟩
  · exact ⟨_, _, rfl, by decide⟩
  · exact ⟨_, _, rfl, by decide⟩

/-- When a word is read from a span, the span holds nothing else. -/
theorem afterWord?_span {word inner rest tail : List Char} (hword : '\'' ∉ word)
    (hinner : '\'' ∉ inner)
    (h : afterWord? (word ++ ['\'']) (inner ++ '\'' :: rest) = some tail) :
    tail = rest ∧ ∀ other,
      afterWord? (word ++ ['\'']) (inner ++ '\'' :: other) = some other := by
  induction word generalizing inner with
  | nil =>
      cases inner with
      | nil =>
          cases h
          exact ⟨rfl, fun other => rfl⟩
      | cons c inner =>
          obtain ⟨d, _, heq, hfold, -⟩ := exists_cons_of_afterWord? h
          cases heq
          rw [eq_of_fold (by decide) hfold] at hinner
          exact absurd List.mem_cons_self hinner
  | cons w word ih =>
      obtain ⟨d, text, heq, hfold, hread⟩ := exists_cons_of_afterWord? h
      cases inner with
      | nil =>
          cases heq
          have hw : w = '\'' := hfold.symm
          rw [hw] at hword
          exact absurd List.mem_cons_self hword
      | cons c inner =>
          cases heq
          obtain ⟨rfl, hother⟩ := ih (fun hmem => hword (List.mem_cons_of_mem _ hmem))
            (fun hmem => hinner (List.mem_cons_of_mem _ hmem)) hread
          refine ⟨rfl, fun other => ?_⟩
          rw [List.cons_append, List.cons_append, afterWord?_cons_of_eq hfold]
          exact hother other

namespace Alike

variable {inWord : Bool} {old new : List Char}

/-- A dangling quote of the old text opens no argument of the new one. -/
theorem not_argument_of_dangling {word rest : List Char} (hword : IsArgument word)
    (h : Alike false old new) (hopen : '\'' ∉ old) :
    afterWord? (word ++ ['\'']) new ≠ some rest := by
  intro hnew
  obtain ⟨w, letters, rfl, hascii⟩ := exists_cons_of_isArgument hword
  obtain ⟨c, new, rfl, hfold, hread⟩ := exists_cons_of_afterWord? hnew
  have hc : isWord c = true := isWord_of_fold (hascii w List.mem_cons_self) hfold
  obtain ⟨closing, hletters, hclosing⟩ := exists_of_afterWord?_append hread
  obtain ⟨d, text, rfl, hd, -⟩ := exists_cons_of_afterWord? hclosing
  rw [eq_of_fold (by decide) hd] at hletters
  rcases h.of_cons (not_isQuote_of_isWord hc) with
    ⟨old, rfl, htail⟩ | ⟨-, put, added, blocks, happend, hcloses⟩
  · rw [hc] at htail
    obtain ⟨tail, hold, hlast⟩ :=
      htail.of_afterWord? (fun v hv => hascii v (List.mem_cons_of_mem _ hv)) hletters
    -- The quote that closes the argument was not put in, since a word ends there.
    have hhead : tail.head? = some '\'' := hlast.head?_eq.symm
    exact hopen (List.mem_cons_of_mem _
      ((suffix_of_afterWord? hold).mem (List.mem_of_mem_head? (Option.mem_def.2 hhead))))
  · have hmem : '\'' ∈ put ++ added := by
      rw [← happend]
      exact List.mem_cons_of_mem _ ((suffix_of_afterWord? hletters).mem List.mem_cons_self)
    rcases blocks.quote with hnone | hfirst
    · exact (List.mem_append.1 hmem).elim hnone (hcloses hnone hopen)
    · have hquote : (c :: new).head? = some '\'' := by
        rw [happend, List.head?_append, hfirst]
        rfl
      cases hquote
      exact absurd hc (by decide)

/-- A text in quotes that is an argument of the new text is one of the old text. -/
theorem of_argument {word rest : List Char} (hword : IsArgument word) (h : Alike inWord old new)
    (hnew : afterWord? ('\'' :: (word ++ ['\''])) (trimStart new) = some rest) :
    ∃ tail, afterWord? ('\'' :: (word ++ ['\''])) (trimStart old) = some tail ∧
      Alike false tail rest := by
  induction h with
  | nil => cases hnew
  | @span _ quote inner old new isQuote closes tail =>
      rw [trimStart_cons_of_isQuote isQuote] at hnew
      obtain ⟨c, text, heq, hfold, hread⟩ := exists_cons_of_afterWord? hnew
      cases heq
      obtain rfl : quote = '\'' := eq_of_fold (by decide) hfold
      have hfree : '\'' ∉ word := by
        rcases hword with rfl | rfl | rfl <;> decide
      obtain ⟨rfl, hother⟩ := afterWord?_span hfree closes hread
      rw [trimStart_cons_of_isQuote isQuote, afterWord?_cons_of_eq hfold]
      exact ⟨old, hother old, tail⟩
  | @dangling _ quote old new isQuote open_ tail =>
      rw [trimStart_cons_of_isQuote isQuote] at hnew
      obtain ⟨c, text, heq, hfold, hread⟩ := exists_cons_of_afterWord? hnew
      cases heq
      obtain rfl : quote = '\'' := eq_of_fold (by decide) hfold
      exact absurd hread (tail.not_argument_of_dangling hword open_)
  | @plain _ d old new notQuote tail ih =>
      by_cases hblank : isBlank d = true
      · rw [trimStart_cons_of_isBlank hblank] at hnew
        rw [trimStart_cons_of_isBlank hblank]
        exact ih hnew
      · rw [trimStart_cons_of_not_isBlank hblank] at hnew
        obtain ⟨c, text, heq, hfold, hread⟩ := exists_cons_of_afterWord? hnew
        cases heq
        rw [eq_of_fold (by decide) hfold] at notQuote
        exact absurd (.inl rfl) notQuote
  | put blocks =>
      rw [blocks.argument _ hword] at hnew
      cases hnew

/-! ## Calls -/

/-- A modifier that is read after respelling was there before. -/
theorem of_modifier? {rest : List Char} (h : Alike inWord old new)
    (hnew : modifier? (trimStart new) = some rest) :
    ∃ tail, modifier? (trimStart old) = some tail ∧ Alike false tail rest := by
  rw [modifier?_eq_some_iff] at hnew
  simp only [modifier?_eq_some_iff]
  rcases hnew with hnew | hnew
  · obtain ⟨tail, hold, htail⟩ := h.of_argument (.inr (.inl rfl)) hnew
    exact ⟨tail, .inl hold, htail⟩
  · obtain ⟨tail, hold, htail⟩ := h.of_argument (.inr (.inr rfl)) hnew
    exact ⟨tail, .inr hold, htail⟩

/-- The end of a call that is read after respelling was there before. -/
theorem of_callTail? (h : Alike inWord old new) (hnew : callTail? new ≠ none) :
    callTail? old ≠ none := by
  fun_induction callTail? new generalizing inWord old with
  | case1 => exact absurd rfl hnew
  | case2 new rest htrim =>
      obtain ⟨_, tail, hold, -⟩ := h.of_trimStart htrim (by decide)
      rw [callTail?_cons hold, if_pos rfl]
      exact Option.some_ne_none tail
  | case3 new rest found hmodifier htrim _ ih =>
      obtain ⟨_, tail, hold, htail⟩ := h.of_trimStart htrim (by decide)
      obtain ⟨other, hother, hfound⟩ := htail.of_modifier? hmodifier
      rw [callTail?_cons hold, if_neg (by decide), if_pos rfl, hother]
      exact ih hfound hnew
  | case4 => exact absurd rfl hnew
  | case5 => exact absurd rfl hnew

/-- The arguments of a call that are read after respelling were there before. -/
theorem of_callArguments? (h : Alike inWord old new) (hnew : callArguments? new ≠ none) :
    callArguments? old ≠ none := by
  obtain ⟨result, hresult⟩ := Option.ne_none_iff_exists'.1 hnew
  rw [callArguments?] at hresult
  split at hresult
  · next rest htrim =>
      obtain ⟨_, tail, hold, htail⟩ := h.of_trimStart htrim (by decide)
      obtain ⟨found, hfound, hcall⟩ := Option.bind_eq_some_iff.1 hresult
      obtain ⟨other, hother, hafter⟩ := htail.of_argument (.inl rfl) hfound
      have hlast := hafter.of_callTail? (by rw [hcall]; exact Option.some_ne_none result)
      rw [callArguments?, hold]
      simp only [show afterWord? "'now'".toList (trimStart tail) = some other from hother,
        Option.bind_some]
      exact hlast
  · cases hresult

/-- No spelling of the current time comes about. -/
theorem nowSpelling?_eq_none {c : Char} (h : Alike (isWord c) old new)
    (hold : nowSpelling? (c :: old) = none) : nowSpelling? (c :: new) = none := by
  rw [Option.eq_none_iff_forall_not_mem]
  intro result hresult
  rw [Option.mem_def, nowSpelling?] at hresult
  split at hresult
  · next rest hstamp =>
      obtain ⟨-, tail, hafter, halike⟩ := h.of_afterWord?_cons (by decide) hstamp
      have hbegins : beginsInWord tail = beginsInWord rest := by
        rw [beginsInWord_eq, beginsInWord_eq, halike.head?_eq]
      rw [nowSpelling?, show afterWord? "current_timestamp".toList (c :: old) = some tail from
        hafter] at hold
      dsimp only at hold
      rw [hbegins] at hold
      split at hresult
      · cases hresult
      · next hends =>
          rw [if_neg hends] at hold
          cases hold
  · obtain ⟨rest, hdatetime, harguments⟩ := Option.bind_eq_some_iff.1 hresult
    obtain ⟨hfold, tail, hafter, halike⟩ := h.of_afterWord?_cons (by decide) hdatetime
    have hstamp : afterWord? "current_timestamp".toList (c :: old) = none :=
      afterWord?_cons_of_ne (by rw [hfold]; decide) _ old
    rw [nowSpelling?, hstamp] at hold
    dsimp only at hold
    rw [show afterWord? "datetime".toList (c :: old) = some tail from hafter] at hold
    exact halike.of_callArguments? (by rw [harguments]; exact Option.some_ne_none result) hold

end Alike

end ClosedSql.Dialect
