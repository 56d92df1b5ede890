import ClosedSql.Dialect
import ClosedSql.Proofs.Text.Folding

/-!
# Spans of quoted text

Both replacements skip quoted runs, and a run in single quotes takes in the runs that stand
directly after it. Cutting a run at every closing quote makes no difference to either of them, so
they can be described by spans alone: a quote reaches to the next quote of its kind, and a quote
without such a partner is a character like any other.
-/

namespace ClosedSql.Dialect

open Text

def IsQuote (c : Char) : Prop :=
  c = '\'' ∨ c = '"'

instance (c : Char) : Decidable (IsQuote c) :=
  inferInstanceAs (Decidable (c = '\'' ∨ c = '"'))

theorem isWord_of_isQuote {c : Char} (h : IsQuote c) : isWord c = false := by
  rcases h with rfl | rfl <;> decide

theorem not_isQuote_of_isWord {c : Char} (h : isWord c = true) : ¬IsQuote c := by
  intro hquote
  rw [isWord_of_isQuote hquote] at h
  cases h

theorem isBlank_of_isQuote {c : Char} (h : IsQuote c) : isBlank c = false := by
  rcases h with rfl | rfl <;> decide

theorem not_isQuote_of_isBlank {c : Char} (h : isBlank c = true) : ¬IsQuote c := by
  intro hquote
  rw [isBlank_of_isQuote hquote] at h
  cases h

theorem trimStart_cons_of_isQuote {c : Char} (h : IsQuote c) (rest : List Char) :
    trimStart (c :: rest) = c :: rest := by
  rw [trimStart_cons_of_not_isBlank (by simp [isBlank_of_isQuote h])]

/-- The ways in which a text can begin. -/
inductive Front : List Char → Prop
  | nil : Front []
  | span {quote : Char} {inner rest : List Char} (isQuote : IsQuote quote)
      (closes : quote ∉ inner) : Front (quote :: (inner ++ quote :: rest))
  | dangling {quote : Char} {rest : List Char} (isQuote : IsQuote quote)
      (open_ : quote ∉ rest) : Front (quote :: rest)
  | plain {c : Char} {rest : List Char} (notQuote : ¬IsQuote c) : Front (c :: rest)

/-- A character of a text has a first occurrence. -/
theorem exists_first {c : Char} {text : List Char} (h : c ∈ text) :
    ∃ inner rest, text = inner ++ c :: rest ∧ c ∉ inner := by
  induction text with
  | nil => cases h
  | cons d text ih =>
      by_cases hd : c = d
      · subst hd
        exact ⟨[], text, rfl, by simp⟩
      · obtain ⟨inner, rest, rfl, hinner⟩ := ih ((List.mem_cons.1 h).resolve_left hd)
        exact ⟨d :: inner, rest, rfl, by simp [hd, hinner]⟩

/-- There is no other way for a text to begin. -/
theorem front (text : List Char) : Front text := by
  cases text with
  | nil => exact .nil
  | cons c rest =>
      by_cases hquote : IsQuote c
      · by_cases hmem : c ∈ rest
        · obtain ⟨inner, tail, rfl, hinner⟩ := exists_first hmem
          exact .span hquote hinner
        · exact .dangling hquote hmem
      · exact .plain hquote

/-- Induction along a text, span by span. A character outside of spans may begin a spelling of
several characters, so there every shorter text is known. -/
@[elab_as_elim]
theorem spans_induction {motive : List Char → Prop} (nil : motive [])
    (span : ∀ quote inner rest, IsQuote quote → quote ∉ inner → motive rest →
      motive (quote :: (inner ++ quote :: rest)))
    (dangling : ∀ quote rest, IsQuote quote → quote ∉ rest →
      (∀ text, text.length ≤ rest.length → motive text) → motive (quote :: rest))
    (plain : ∀ c rest, ¬IsQuote c → (∀ text, text.length ≤ rest.length → motive text) →
      motive (c :: rest)) (text : List Char) : motive text := by
  induction hlength : text.length using Nat.strongRecOn generalizing text with
  | ind length ih =>
      subst hlength
      have shorter : ∀ {c : Char} {rest : List Char}, text = c :: rest →
          ∀ other : List Char, other.length ≤ rest.length → motive other := by
        rintro c rest rfl other hother
        exact ih other.length (by rw [List.length_cons]; omega) other rfl
      cases front text with
      | nil => exact nil
      | span isQuote closes =>
          refine span _ _ _ isQuote closes (shorter rfl _ ?_)
          rw [List.length_append, List.length_cons]
          omega
      | dangling isQuote open_ => exact dangling _ _ isQuote open_ (shorter rfl)
      | plain notQuote => exact plain _ _ notQuote (shorter rfl)

/-! ## Quoted runs -/

/-- The run that a run in single quotes takes in besides, and what follows it. -/
def adjacentRun (quote : Char) (text : List Char) : List Char × List Char :=
  match text with
  | '\'' :: _ => if quote = '\'' then (quotedRun? text).getD ([], text) else ([], text)
  | _ => ([], text)

/-- Without a second quote there is no quoted run. -/
theorem singleQuotedRun?_eq_none {text : List Char} (h : '\'' ∉ text) :
    singleQuotedRun? text = none := by
  fun_induction singleQuotedRun? text with
  | case1 => rfl
  | case2 => simp at h
  | case3 => rfl
  | case4 => simp at h
  | case5 => simp at h
  | case6 => simp at h
  | case7 c d rest hc ih =>
      rw [ih fun hmem => h (List.mem_cons_of_mem _ hmem)]
      rfl

/-- A quoted run ends at its quote, or goes on where another run follows at once. -/
theorem singleQuotedRun?_append_quote {inner : List Char} (h : '\'' ∉ inner)
    (rest : List Char) :
    singleQuotedRun? (inner ++ '\'' :: rest) =
      some (inner ++ '\'' :: (adjacentRun '\'' rest).1, (adjacentRun '\'' rest).2) := by
  induction inner with
  | nil =>
      cases rest with
      | nil => rfl
      | cons d rest =>
          by_cases hd : d = '\''
          · subst hd
            rw [List.nil_append, singleQuotedRun?]
            cases hrun : singleQuotedRun? rest with
            | none => simp [adjacentRun, quotedRun?, hrun]
            | some found => simp [adjacentRun, quotedRun?, hrun]
          · simp [singleQuotedRun?, adjacentRun, hd]
  | cons c inner ih =>
      obtain ⟨hc, hinner⟩ := not_or.1 (mt List.mem_cons.2 h)
      -- The reader looks one character ahead, and there is one: at the latest the closing quote.
      obtain ⟨d, tail, htail⟩ : ∃ d tail, inner ++ '\'' :: rest = d :: tail := by
        cases inner with
        | nil => exact ⟨_, _, rfl⟩
        | cons d inner => exact ⟨_, _, rfl⟩
      have hread := ih hinner
      rw [htail] at hread
      rw [List.cons_append, htail, singleQuotedRun?, if_neg (Ne.symm hc), hread]
      rfl

theorem doubleQuotedRun?_eq_none {text : List Char} (h : '"' ∉ text) :
    doubleQuotedRun? text = none := by
  induction text with
  | nil => rfl
  | cons c text ih =>
      obtain ⟨hc, htext⟩ := not_or.1 (mt List.mem_cons.2 h)
      rw [doubleQuotedRun?, if_neg (Ne.symm hc), ih htext]
      rfl

theorem doubleQuotedRun?_append_quote {inner : List Char} (h : '"' ∉ inner) (rest : List Char) :
    doubleQuotedRun? (inner ++ '"' :: rest) = some (inner ++ ['"'], rest) := by
  induction inner with
  | nil => rfl
  | cons c inner ih =>
      obtain ⟨hc, hinner⟩ := not_or.1 (mt List.mem_cons.2 h)
      rw [List.cons_append, doubleQuotedRun?, if_neg (Ne.symm hc), ih hinner]
      rfl

theorem quotedRun?_span {quote : Char} {inner : List Char} (hquote : IsQuote quote)
    (h : quote ∉ inner) (rest : List Char) :
    quotedRun? (quote :: (inner ++ quote :: rest)) =
      some (quote :: (inner ++ quote :: (adjacentRun quote rest).1),
        (adjacentRun quote rest).2) := by
  rcases hquote with rfl | rfl
  · rw [quotedRun?, if_pos rfl, singleQuotedRun?_append_quote h]
    rfl
  · have hadjacent : adjacentRun '"' rest = ([], rest) := by
      rw [adjacentRun.eq_def]
      split <;> rfl
    rw [quotedRun?, if_neg (by decide), if_pos rfl, doubleQuotedRun?_append_quote h, hadjacent]
    rfl

/-- A quote that is never closed begins no quoted run. -/
theorem quotedRun?_dangling {quote : Char} {rest : List Char} (hquote : IsQuote quote)
    (h : quote ∉ rest) : quotedRun? (quote :: rest) = none := by
  rcases hquote with rfl | rfl
  · rw [quotedRun?, if_pos rfl, singleQuotedRun?_eq_none h]
    rfl
  · rw [quotedRun?, if_neg (by decide), if_pos rfl, doubleQuotedRun?_eq_none h]
    rfl

theorem quotedRun?_plain {c : Char} (h : ¬IsQuote c) (rest : List Char) :
    quotedRun? (c :: rest) = none := by
  obtain ⟨hsingle, hdouble⟩ := not_or.1 h
  rw [quotedRun?, if_neg hsingle, if_neg hdouble]

theorem getLast?_singleQuotedRun? {text : List Char} {found : List Char × List Char}
    (h : singleQuotedRun? text = some found) : found.1.getLast? = some '\'' := by
  fun_induction singleQuotedRun? text generalizing found with
  | case1 => cases h
  | case2 => cases h; rfl
  | case3 => cases h
  | case4 rest inner hinner ih =>
      cases h
      simp [List.getLast?_cons, ih hinner]
  | case5 => cases h; rfl
  | case6 => cases h; rfl
  | case7 c d rest hc ih =>
      obtain ⟨inner, hinner, rfl⟩ := Option.map_eq_some_iff.1 h
      simp [List.getLast?_cons, ih hinner]

/-- What a run takes in besides is nothing, or the whole run after it, which ends as it does. -/
theorem adjacentRun_cases (quote : Char) (rest : List Char) :
    adjacentRun quote rest = ([], rest) ∨
      ∃ run tail, adjacentRun quote rest = (run, tail) ∧ quotedRun? rest = some (run, tail) ∧
        run.getLast? = some quote := by
  rw [adjacentRun.eq_def]
  split
  · next tail =>
      split
      · next hquote =>
          subst hquote
          rw [quotedRun?, if_pos rfl]
          cases hrun : singleQuotedRun? tail with
          | none => exact .inl rfl
          | some found =>
              refine .inr ⟨'\'' :: found.1, found.2, rfl, rfl, ?_⟩
              simp [List.getLast?_cons, getLast?_singleQuotedRun? hrun]
      · exact .inl rfl
  · exact .inl rfl

/-! ## The current time -/

theorem modifier?_eq_some_iff {text rest : List Char} :
    modifier? text = some rest ↔
      afterWord? "'localtime'".toList text = some rest ∨
        afterWord? "'utc'".toList text = some rest := by
  rw [modifier?]
  split
  · next found hfound =>
      -- The two modifiers differ in their first letter, so only one of them can be read.
      have hother : afterWord? "'utc'".toList text = none := by
        obtain ⟨c, text, rfl, hfold, hread⟩ := exists_cons_of_afterWord? hfound
        obtain ⟨d, text, rfl, hd, -⟩ := exists_cons_of_afterWord? hread
        rw [show afterWord? "'utc'".toList (c :: d :: text) = _ from
          afterWord?_cons_of_eq hfold _ _]
        exact afterWord?_cons_of_ne (by rw [hd]; decide) _ text
      rw [hfound, hother]
      exact (or_iff_left (by simp)).symm
  · next hfound =>
      rw [hfound]
      exact (or_iff_right (by simp)).symm

/-- The end of a call is a parenthesis, or a comma with a modifier and the end of the call. -/
theorem callTail?_cons {text rest : List Char} {c : Char} (h : trimStart text = c :: rest) :
    callTail? text =
      if c = ')' then some rest
      else if c = ',' then (modifier? (trimStart rest)).bind callTail?
      else none := by
  rw [callTail?]
  split
  · next h' =>
      rw [h] at h'
      cases h'
  · next h' =>
      rw [h] at h'
      cases h'
      split
      · rfl
      · split
        · split
          · next hm =>
              rw [hm]
              rfl
          · next hm =>
              rw [hm]
              rfl
        · rfl

theorem suffix_of_modifier? {text rest : List Char} (h : modifier? text = some rest) :
    rest <:+ text := by
  rcases modifier?_eq_some_iff.1 h with hword | hword
  · exact suffix_of_afterWord? hword
  · exact suffix_of_afterWord? hword

theorem suffix_of_trimStart {c : Char} {text rest : List Char} (h : trimStart text = c :: rest) :
    rest <:+ text := by
  have htrim : trimStart text <:+ text := List.dropWhile_suffix _
  rw [h] at htrim
  exact (List.suffix_cons c rest).trans htrim

theorem suffix_of_callTail? {text rest : List Char} (h : callTail? text = some rest) :
    rest <:+ text := by
  fun_induction callTail? text with
  | case1 => cases h
  | case2 text tail htrim =>
      cases h
      exact suffix_of_trimStart htrim
  | case3 text tail found hmodifier htrim _ ih =>
      have hfound := (suffix_of_modifier? hmodifier).trans (List.dropWhile_suffix _)
      exact (ih h).trans (hfound.trans (suffix_of_trimStart htrim))
  | case4 => cases h
  | case5 => cases h

/-- What follows a spelling of the current time is the rest of the text. -/
theorem suffix_of_nowSpelling? {text rest : List Char} (h : nowSpelling? text = some rest) :
    rest <:+ text := by
  rw [nowSpelling?] at h
  split at h
  · next found hfound =>
      split at h
      · cases h
      · cases h
        exact suffix_of_afterWord? hfound
  · obtain ⟨tail, htail, hcall⟩ := Option.bind_eq_some_iff.1 h
    rw [callArguments?] at hcall
    split at hcall
    · next inner htrim =>
        obtain ⟨found, hfound, hclose⟩ := Option.bind_eq_some_iff.1 hcall
        have hinner := (suffix_of_afterWord? hfound).trans (List.dropWhile_suffix _)
        have hrest := (suffix_of_callTail? hclose).trans (hinner.trans (suffix_of_trimStart htrim))
        exact hrest.trans (suffix_of_afterWord? htail)
    · cases hcall

theorem beginsInWord_eq (text : List Char) : beginsInWord text = text.head?.any isWord := by
  cases text <;> rfl

/-- The letters that begin a spelling of the current time. -/
theorem nowSpelling?_eq_none {c : Char} (hc : fold c ≠ 'c') (hd : fold c ≠ 'd')
    (rest : List Char) : nowSpelling? (c :: rest) = none := by
  have hstamp : afterWord? "current_timestamp".toList (c :: rest) = none :=
    afterWord?_cons_of_ne hc _ rest
  have hdatetime : afterWord? "datetime".toList (c :: rest) = none :=
    afterWord?_cons_of_ne hd _ rest
  rw [nowSpelling?, hstamp]
  dsimp only
  rw [hdatetime]
  rfl

/-- Characters that are neither quotes nor begin a spelling of the current time. -/
def Inert (c : Char) : Prop :=
  ¬IsQuote c ∧ fold c ≠ 'c' ∧ fold c ≠ 'd'

instance (c : Char) : Decidable (Inert c) :=
  inferInstanceAs (Decidable (¬IsQuote c ∧ fold c ≠ 'c' ∧ fold c ≠ 'd'))

/-- Whether a word goes on after some characters, given whether one goes on before them. -/
def goesOn (inWord : Bool) (passed : List Char) : Bool :=
  passed.foldl (fun _ c => isWord c) inWord

section Now

variable (now : List Char) (inWord : Bool)

theorem replaceNow_nil : replaceNow now inWord [] = [] := by
  rw [replaceNow]

/-- A text is replaced from its first quoted run, spelling or character on. -/
theorem replaceNow_cons (c : Char) (rest : List Char) :
    replaceNow now inWord (c :: rest) =
      match quotedRun? (c :: rest) with
      | some (run, tail) => run ++ replaceNow now false tail
      | none =>
          match inWord, nowSpelling? (c :: rest) with
          | false, some tail => now ++ replaceNow now false tail
          | _, _ => c :: replaceNow now (isWord c) rest := by
  rw [replaceNow]
  split
  · next hrun => rw [hrun]
  · next hrun =>
      rw [hrun]
      cases inWord with
      | true => rfl
      | false =>
          rw [if_neg Bool.false_ne_true]
          split
          · next hspelling => rw [hspelling]
          · next hspelling => rw [hspelling]

/-- A quoted run is kept. -/
theorem replaceNow_of_run {text run tail : List Char} (h : quotedRun? text = some (run, tail)) :
    replaceNow now inWord text = run ++ replaceNow now false tail := by
  cases text with
  | nil => cases h
  | cons c rest => rw [replaceNow_cons, h]

/-- Inside a word no spelling begins. -/
theorem replaceNow_inWord {c : Char} {rest : List Char} (h : quotedRun? (c :: rest) = none) :
    replaceNow now true (c :: rest) = c :: replaceNow now (isWord c) rest := by
  rw [replaceNow_cons, h]

/-- A spelling of the current time is replaced. -/
theorem replaceNow_of_spelling {c : Char} {rest tail : List Char}
    (hrun : quotedRun? (c :: rest) = none) (h : nowSpelling? (c :: rest) = some tail) :
    replaceNow now false (c :: rest) = now ++ replaceNow now false tail := by
  rw [replaceNow_cons, hrun, h]

/-- Any other character is kept. -/
theorem replaceNow_of_no_spelling {c : Char} {rest : List Char}
    (hrun : quotedRun? (c :: rest) = none) (h : nowSpelling? (c :: rest) = none) :
    replaceNow now inWord (c :: rest) = c :: replaceNow now (isWord c) rest := by
  rw [replaceNow_cons, hrun, h]
  cases inWord <;> rfl

/-- Inert characters stay. -/
theorem replaceNow_inert {kept : List Char} (h : ∀ c ∈ kept, Inert c) (rest : List Char) :
    replaceNow now inWord (kept ++ rest) = kept ++ replaceNow now (goesOn inWord kept) rest := by
  induction kept generalizing inWord with
  | nil => rfl
  | cons c kept ih =>
      obtain ⟨⟨hquote, hc, hd⟩, hkept⟩ := List.forall_mem_cons.1 h
      rw [List.cons_append, replaceNow_of_no_spelling now inWord (quotedRun?_plain hquote _)
        (nowSpelling?_eq_none hc hd _), ih (isWord c) hkept]
      rfl

/-- What stands between two quotes is kept. -/
theorem replaceNow_span {quote : Char} {inner : List Char} (hquote : IsQuote quote)
    (h : quote ∉ inner) (rest : List Char) :
    replaceNow now inWord (quote :: (inner ++ quote :: rest)) =
      quote :: (inner ++ quote :: replaceNow now false rest) := by
  rw [replaceNow_of_run now inWord (quotedRun?_span hquote h rest)]
  rcases adjacentRun_cases quote rest with hnone | ⟨run, tail, hadjacent, hrun, -⟩
  · simp [hnone]
  · simp [hadjacent, replaceNow_of_run now false hrun]

/-- A quote that is never closed is kept, and what follows it is searched. -/
theorem replaceNow_dangling {quote : Char} {rest : List Char} (hquote : IsQuote quote)
    (h : quote ∉ rest) :
    replaceNow now inWord (quote :: rest) = quote :: replaceNow now false rest := by
  have hspelling : nowSpelling? (quote :: rest) = none := by
    rcases hquote with rfl | rfl
    · exact nowSpelling?_eq_none (by decide) (by decide) rest
    · exact nowSpelling?_eq_none (by decide) (by decide) rest
  rw [replaceNow_of_no_spelling now inWord (quotedRun?_dangling hquote h) hspelling,
    isWord_of_isQuote hquote]

end Now

/-! ## Truth values -/

/-- A text with its truth values replaced, after what is known of the text before it. -/
def replaceFlagsIn (before : Option Char) (inWord : Bool) (text : List Char) : List Char :=
  replaceFlags before inWord (pieces text)

/-- The last character that is not blank once some characters are passed, given the last one
before them. -/
def lastShown (before : Option Char) (passed : List Char) : Option Char :=
  passed.foldl (fun last c => if isBlank c then last else some c) before

theorem lastShown_of_blank {passed : List Char} (h : ∀ c ∈ passed, isBlank c = true)
    (before : Option Char) : lastShown before passed = before := by
  induction passed with
  | nil => rfl
  | cons c passed ih =>
      obtain ⟨hc, hpassed⟩ := List.forall_mem_cons.1 h
      rw [lastShown, List.foldl_cons, if_pos hc]
      exact ih hpassed

/-- A flag is a zero or one by itself where a value may begin. -/
theorem beginsFlag_iff {before : Option Char} {inWord : Bool} {c : Char} :
    beginsFlag before inWord c = true ↔
      (c = '0' ∨ c = '1') ∧ inWord = false ∧ beginsValue before = true := by
  simp [beginsFlag, and_assoc]

theorem flag_cases (before : Option Char) (inWord : Bool) (c : Char) (rest : List Char) :
    (beginsFlag before inWord c = true ∧ endsFlag rest = true) ∨
      (beginsFlag before inWord c = false ∨ endsFlag rest = false) := by
  cases beginsFlag before inWord c with
  | false => exact .inr (.inl rfl)
  | true =>
      cases endsFlag rest with
      | false => exact .inr (.inr rfl)
      | true => exact .inl ⟨rfl, rfl⟩

section Flags

variable (before : Option Char) (inWord : Bool)

theorem pieces_cons (c : Char) (rest : List Char) :
    pieces (c :: rest) =
      match quotedRun? (c :: rest) with
      | some (run, tail) => .quoted run :: pieces tail
      | none => .plain c :: pieces rest := by
  rw [pieces]
  split
  · next hrun => rw [hrun]
  · next hrun => rw [hrun]

theorem replaceFlagsIn_nil : replaceFlagsIn before inWord [] = [] := by
  rw [replaceFlagsIn, pieces, replaceFlags]

/-- A quoted run keeps its zeros and ones. -/
theorem replaceFlagsIn_of_run {text run tail : List Char}
    (h : quotedRun? text = some (run, tail)) :
    replaceFlagsIn before inWord text = run ++ replaceFlagsIn run.getLast? false tail := by
  cases text with
  | nil => cases h
  | cons c rest =>
      rw [replaceFlagsIn, pieces_cons, h]
      dsimp only
      rw [replaceFlags, replaceFlagsIn]

theorem replaceFlagsIn_of_plain {c : Char} {rest : List Char} (h : quotedRun? (c :: rest) = none) :
    replaceFlagsIn before inWord (c :: rest) =
      (if beginsFlag before inWord c && endsFlag rest then flagWord c else [c]) ++
        replaceFlagsIn (if isBlank c then before else some c) (isWord c) rest := by
  rw [replaceFlagsIn, pieces_cons, h]
  dsimp only
  rw [replaceFlags, flatMap_chars_pieces, replaceFlagsIn]

/-- A character stays unless it is a zero or one that stands for a truth value. -/
theorem replaceFlagsIn_of_not_flag {c : Char} {rest : List Char}
    (hrun : quotedRun? (c :: rest) = none)
    (h : beginsFlag before inWord c = false ∨ endsFlag rest = false) :
    replaceFlagsIn before inWord (c :: rest) =
      c :: replaceFlagsIn (if isBlank c then before else some c) (isWord c) rest := by
  have hflag : (beginsFlag before inWord c && endsFlag rest) = false := by
    rcases h with h | h <;> simp [h]
  rw [replaceFlagsIn_of_plain before inWord hrun, hflag]
  rfl

/-- A flag is replaced by its word. -/
theorem replaceFlagsIn_of_flag {c : Char} {rest : List Char}
    (hbegins : beginsFlag before inWord c = true) (hends : endsFlag rest = true) :
    replaceFlagsIn before inWord (c :: rest) =
      flagWord c ++ replaceFlagsIn (some c) true rest := by
  obtain ⟨hc, -, -⟩ := beginsFlag_iff.1 hbegins
  have hrun : quotedRun? (c :: rest) = none := by
    refine quotedRun?_plain ?_ rest
    rcases hc with rfl | rfl <;> decide
  rw [replaceFlagsIn_of_plain before inWord hrun, hbegins, hends]
  rcases hc with rfl | rfl <;> rfl

/-- Characters that are neither quotes nor digits of truth values stay. -/
theorem replaceFlagsIn_kept {kept : List Char} (h : ∀ c ∈ kept, ¬IsQuote c ∧ c ≠ '0' ∧ c ≠ '1')
    (rest : List Char) :
    replaceFlagsIn before inWord (kept ++ rest) =
      kept ++ replaceFlagsIn (lastShown before kept) (goesOn inWord kept) rest := by
  induction kept generalizing before inWord with
  | nil => rfl
  | cons c kept ih =>
      obtain ⟨⟨hquote, hzero, hone⟩, hkept⟩ := List.forall_mem_cons.1 h
      have hflag : beginsFlag before inWord c = false := by simp [beginsFlag, hzero, hone]
      rw [List.cons_append, replaceFlagsIn_of_not_flag before inWord (quotedRun?_plain hquote _)
        (.inl hflag), ih _ (isWord c) hkept]
      rfl

theorem replaceFlagsIn_span {quote : Char} {inner : List Char} (hquote : IsQuote quote)
    (h : quote ∉ inner) (rest : List Char) :
    replaceFlagsIn before inWord (quote :: (inner ++ quote :: rest)) =
      quote :: (inner ++ quote :: replaceFlagsIn (some quote) false rest) := by
  rw [replaceFlagsIn_of_run before inWord (quotedRun?_span hquote h rest)]
  have hlast : ∀ run : List Char, (run = [] ∨ run.getLast? = some quote) →
      (quote :: (inner ++ quote :: run)).getLast? = some quote := by
    rintro run (rfl | hrun)
    · simp [List.getLast?_cons]
    · simp [List.getLast?_cons, hrun]
  rcases adjacentRun_cases quote rest with hnone | ⟨run, tail, hadjacent, hrun, hend⟩
  · simp only [hnone, hlast [] (.inl rfl)]
    simp
  · simp only [hadjacent, hlast run (.inr hend), replaceFlagsIn_of_run _ _ hrun, hend]
    simp

theorem replaceFlagsIn_dangling {quote : Char} {rest : List Char} (hquote : IsQuote quote)
    (h : quote ∉ rest) :
    replaceFlagsIn before inWord (quote :: rest) =
      quote :: replaceFlagsIn (some quote) false rest := by
  have hflag : beginsFlag before inWord quote = false := by
    rcases hquote with rfl | rfl <;> rfl
  rw [replaceFlagsIn_of_plain before inWord (quotedRun?_dangling hquote h), hflag,
    isBlank_of_isQuote hquote, isWord_of_isQuote hquote]
  rfl

end Flags

end ClosedSql.Dialect
