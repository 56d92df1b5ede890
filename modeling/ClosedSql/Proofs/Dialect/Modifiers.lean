import ClosedSql.Proofs.Dialect.Clock
import ClosedSql.Proofs.Dialect.Flags
import ClosedSql.Proofs.Dialect.Idempotence

/-!
# Calls with modifiers

A call for the current time may carry modifiers. Those that only name a time zone keep the instant,
and with no others the call is a spelling of the current time. With any other one among them it is
none, and both replacements pass over the call as it is written, quotes, digits and commas included.
-/

namespace ClosedSql.Dialect

open Text

def KeepsInstant (modifier : String) : Prop :=
  lower modifier.toList = "localtime".toList ∨ lower modifier.toList = "utc".toList

instance (modifier : String) : Decidable (KeepsInstant modifier) :=
  inferInstanceAs (Decidable
    (lower modifier.toList = "localtime".toList ∨ lower modifier.toList = "utc".toList))

/-- The tokens behind the instant of a call: each modifier after a comma, and the closing
parenthesis. -/
def modifierTokens : List String → List Token
  | [] => [.rightParen]
  | modifier :: rest => .comma :: .quotedText modifier :: modifierTokens rest

/-- A call of `datetime` for the current time as it is written: the word in any case, and the
arguments with any blanks between their tokens. -/
structure Call where
  word : String
  arguments : Layout
  modifiers : List String
  isDatetime : lower word.toList = "datetime".toList
  tokens : arguments.map Prod.snd = .leftParen :: .quotedText "now" :: modifierTokens modifiers
  blanks : ∀ item ∈ arguments, ∀ c ∈ item.1, isAsciiBlank c = true

namespace Call

variable (call : Call)

def Keeps : Prop :=
  ∀ modifier ∈ call.modifiers, KeepsInstant modifier

instance : Decidable call.Keeps :=
  inferInstanceAs (Decidable (∀ modifier ∈ call.modifiers, KeepsInstant modifier))

def layout : Layout :=
  ([], .word call.word) :: call.arguments

def text : List Char :=
  call.layout.text

end Call

/-! ## The layout of a call -/

theorem isAlpha_of_toLower {c : Char} (h : c.toLower.isAlpha = true) : c.isAlpha = true := by
  by_cases hupper : c.isUpper = true
  · exact isAlpha_iff.2 (.inl hupper)
  · rwa [toLower_of_not_isUpper hupper] at h

theorem Call.isIdentifier (call : Call) : isIdentifier call.word.toList = true := by
  have hletters : ∀ c ∈ call.word.toList, c.isAlpha = true := by
    intro c hc
    have hlower : c.toLower ∈ "datetime".toList := by
      rw [← call.isDatetime]
      exact List.mem_map_of_mem hc
    have halpha : ∀ w ∈ "datetime".toList, w.isAlpha = true := by decide
    exact isAlpha_of_toLower (halpha _ hlower)
  cases hword : call.word.toList with
  | nil =>
      have hempty := call.isDatetime
      rw [hword] at hempty
      cases hempty
  | cons c tail =>
      rw [hword, List.forall_mem_cons] at hletters
      exact Token.isIdentifier_cons (.inl hletters.1) fun d hd =>
        isAsciiWord_of_isAlpha (hletters.2 d hd)

/-- A call begins with a letter. -/
theorem Call.exists_cons (call : Call) :
    ∃ c tail, call.text = c :: tail ∧ Token.IsLetter c := by
  obtain ⟨c, tail, hword, hletter, -⟩ := Token.exists_cons_of_isIdentifier call.isIdentifier
  refine ⟨c, tail ++ call.arguments.text, ?_, hletter⟩
  rw [Call.text, Call.layout, Layout.text, Token.chars, hword]
  rfl

/-- The tokens behind the instant begin with a mark, and no two run together. -/
theorem spaced_modifiers {modifiers : List String} {layout : Layout}
    (htokens : layout.map Prod.snd = modifierTokens modifiers)
    (hblanks : ∀ item ∈ layout, ∀ c ∈ item.1, isAsciiBlank c = true) :
    Layout.Spaced layout ∧ Layout.Apart layout := by
  induction modifiers generalizing layout with
  | nil =>
      obtain ⟨⟨gap, token⟩, rest, rfl, rfl, hrest⟩ := List.map_eq_cons_iff.1 htokens
      rw [List.map_eq_nil_iff] at hrest
      subst hrest
      exact ⟨.cons (hblanks _ List.mem_cons_self) (.mark rfl) (.inl rfl) .nil, .inr rfl⟩
  | cons modifier modifiers ih =>
      obtain ⟨⟨gap, token⟩, rest, rfl, rfl, hrest⟩ := List.map_eq_cons_iff.1 htokens
      obtain ⟨⟨between, token⟩, others, rfl, rfl, hothers⟩ := List.map_eq_cons_iff.1 hrest
      obtain ⟨hgap, hrest⟩ := List.forall_mem_cons.1 hblanks
      obtain ⟨hbetween, hothersBlank⟩ := List.forall_mem_cons.1 hrest
      obtain ⟨hspaced, happart⟩ := ih hothers hothersBlank
      exact ⟨.cons hgap (.mark rfl) (.inl rfl)
        (.cons hbetween (.text modifier) (.inr happart) hspaced), .inr rfl⟩

/-- The arguments of a call: a parenthesis, the instant and what is behind it. -/
theorem Call.exists_arguments (call : Call) : ∃ gap between rest,
    call.arguments = (gap, .leftParen) :: (between, .quotedText "now") :: rest ∧
      rest.map Prod.snd = modifierTokens call.modifiers ∧ Layout.Legible call.layout := by
  obtain ⟨⟨gap, token⟩, others, harguments, rfl, hothers⟩ := List.map_eq_cons_iff.1 call.tokens
  obtain ⟨⟨between, token⟩, rest, rfl, rfl, hrest⟩ := List.map_eq_cons_iff.1 hothers
  have hblanks := call.blanks
  rw [harguments, List.forall_mem_cons, List.forall_mem_cons] at hblanks
  obtain ⟨hspaced, happart⟩ := spaced_modifiers hrest hblanks.2.2
  refine ⟨gap, between, rest, harguments, hrest, Layout.Spaced.legible ?_⟩
  rw [Call.layout, harguments]
  exact .cons (List.forall_mem_nil _) (.word call.isIdentifier) (.inr (.inr rfl))
    (.cons hblanks.1 (.mark rfl) (.inl rfl)
      (.cons hblanks.2.1 (.text "now") (.inr happart) hspaced))

/-- A call can be read back as it is written. -/
theorem Call.legible (call : Call) : Layout.Legible call.layout := by
  obtain ⟨_, _, _, -, -, hlegible⟩ := call.exists_arguments
  exact hlegible

/-- The arguments of a call are marks and texts in quotes. -/
theorem Call.of_mem_arguments (call : Call) {token : Token}
    (h : token ∈ call.arguments.map Prod.snd) :
    token.isMark = true ∨ ∃ content, token = .quotedText content := by
  have hmodifiers : ∀ {modifiers : List String}, token ∈ modifierTokens modifiers →
      token.isMark = true ∨ ∃ content, token = .quotedText content := by
    intro modifiers hmem
    induction modifiers with
    | nil => exact .inl (by rw [List.mem_singleton.1 hmem]; rfl)
    | cons modifier modifiers ih =>
        rcases List.mem_cons.1 hmem with rfl | hmem
        · exact .inl rfl
        · rcases List.mem_cons.1 hmem with rfl | hmem
          · exact .inr ⟨modifier, rfl⟩
          · exact ih hmem
  rw [call.tokens, List.mem_cons, List.mem_cons] at h
  rcases h with rfl | rfl | hmem
  · exact .inl rfl
  · exact .inr ⟨_, rfl⟩
  · exact hmodifiers hmem

theorem exists_modifierTokens (modifiers : List String) :
    ∃ front, modifierTokens modifiers = front ++ [.rightParen] := by
  induction modifiers with
  | nil => exact ⟨[], rfl⟩
  | cons modifier modifiers ih =>
      obtain ⟨front, hfront⟩ := ih
      exact ⟨.comma :: .quotedText modifier :: front, by rw [modifierTokens, hfront]; rfl⟩

/-- A call ends in its closing parenthesis. -/
theorem Call.exists_getLast? (call : Call) :
    ∃ gap, call.layout.getLast? = some (gap, .rightParen) := by
  obtain ⟨front, hfront⟩ := exists_modifierTokens call.modifiers
  have hlast : (call.layout.map Prod.snd).getLast? = some .rightParen := by
    rw [Call.layout, List.map_cons, call.tokens, hfront, ← List.cons_append, ← List.cons_append,
      ← List.cons_append, List.getLast?_concat]
  rw [List.getLast?_map, Option.map_eq_some_iff] at hlast
  obtain ⟨⟨gap, token⟩, hlast, rfl⟩ := hlast
  exact ⟨gap, hlast⟩

theorem Call.legibleBefore (call : Call) (after : List Char) :
    Layout.LegibleBefore after call.layout := by
  obtain ⟨gap, hlast⟩ := call.exists_getLast?
  refine call.legible.before fun item hitem => ?_
  rw [hlast] at hitem
  cases hitem
  exact Token.endsBefore_of_isMark rfl after

/-! ## Calls that are spellings -/

/-- Which letters fold to a letter that neither the long s nor the Kelvin sign stands for. -/
theorem fold_eq_iff {c w : Char} (hword : isAsciiWord w = true) (hs : w ≠ 's') (hk : w ≠ 'k') :
    fold c = w ↔ c.toLower = w := by
  rw [fold]
  split
  · next h =>
      rw [beq_iff_eq.1 h]
      refine ⟨fun heq => absurd heq.symm hs, ?_⟩
      rintro rfl
      exact absurd hword (by decide)
  · split
    · next h =>
        rw [beq_iff_eq.1 h]
        refine ⟨fun heq => absurd heq.symm hk, ?_⟩
        rintro rfl
        exact absurd hword (by decide)
    · exact Iff.rfl

theorem map_fold_eq_iff {word : List Char}
    (hword : ∀ w ∈ word, isAsciiWord w = true ∧ w ≠ 's' ∧ w ≠ 'k') {content : List Char} :
    content.map fold = word ↔ lower content = word := by
  induction content generalizing word with
  | nil => exact Iff.rfl
  | cons c content ih =>
      cases word with
      | nil => simp [lower]
      | cons w word =>
          obtain ⟨⟨hw, hs, hk⟩, hletters⟩ := List.forall_mem_cons.1 hword
          rw [lower, List.map_cons, List.map_cons, List.cons_eq_cons, List.cons_eq_cons,
            fold_eq_iff hw hs hk, ih hletters, lower]

/-- A modifier keeps the instant if it folds to one of the two words for that. -/
theorem keepsInstant_iff {modifier : String} :
    modifier.toList.map fold = "localtime".toList ∨ modifier.toList.map fold = "utc".toList ↔
      KeepsInstant modifier := by
  rw [map_fold_eq_iff (by decide), map_fold_eq_iff (by decide)]
  exact Iff.rfl

/-- What is behind the instant belongs to a spelling where every modifier keeps the instant. -/
theorem callTail?_modifiers {modifiers : List String} {layout : Layout}
    (hlegible : layout.Legible) (htokens : layout.map Prod.snd = modifierTokens modifiers)
    (after : List Char) :
    callTail? (layout.text ++ after) =
      if ∀ modifier ∈ modifiers, KeepsInstant modifier then some after else none := by
  induction modifiers generalizing layout with
  | nil =>
      obtain ⟨⟨gap, token⟩, rest, rfl, rfl, hrest⟩ := List.map_eq_cons_iff.1 htokens
      rw [List.map_eq_nil_iff] at hrest
      subst hrest
      rw [callTail?_cons (Layout.trimStart_text_append hlegible after), if_pos rfl,
        if_pos (List.forall_mem_nil _)]
      rfl
  | cons modifier modifiers ih =>
      obtain ⟨⟨gap, token⟩, rest, rfl, rfl, hrest⟩ := List.map_eq_cons_iff.1 htokens
      obtain ⟨⟨between, token⟩, others, rfl, rfl, hothers⟩ := List.map_eq_cons_iff.1 hrest
      rw [Layout.callTail?_comma hlegible, Layout.trimStart_text_append hlegible.tail, Token.chars,
        bind_modifier?_enquote, ih hlegible.tail.tail hothers]
      simp only [keepsInstant_iff, List.forall_mem_cons]
      by_cases hkeeps : KeepsInstant modifier
      · simp only [hkeeps, true_and, if_true]
      · simp only [hkeeps, false_and, if_false]

/-- A call is a spelling of the current time where all its modifiers keep the instant. -/
theorem Call.nowSpelling? (call : Call) (after : List Char) :
    Dialect.nowSpelling? (call.word.toList ++ (call.arguments.text ++ after)) =
      if call.Keeps then some after else none := by
  obtain ⟨gap, between, rest, harguments, htokens, hlegible⟩ := call.exists_arguments
  have hletters : ∀ c ∈ call.word.toList, isAsciiWord c = true := by
    obtain ⟨c, tail, hchars, hc, htail⟩ := Token.exists_cons_of_isIdentifier call.isIdentifier
    rw [hchars, List.forall_mem_cons]
    exact ⟨hc.isAsciiWord, htail⟩
  rw [Call.layout, harguments] at hlegible
  have hbegins : beginsInWord (call.arguments.text ++ after) = false := by
    rw [harguments]
    cases hlegible.tail with
    | cons blank _ _ _ =>
        cases gap with
        | nil => rfl
        | cons c gap =>
            exact Token.isWord_delimiters c
              (Token.mem_delimiters_of_isAsciiBlank (blank c List.mem_cons_self))
  rw [nowSpelling?_word hletters hbegins, call.isDatetime, if_neg (by decide), if_pos rfl,
    harguments, Layout.callArguments?_paren hlegible.tail, if_pos (by decide),
    callTail?_modifiers hlegible.tail.tail.tail htokens]
  rfl

/-! ## Calls under both replacements -/

/-- Nothing is replaced in a layout without words. -/
theorem replaceNow_text_append {layout : Layout} {after : List Char}
    (h : layout.LegibleBefore after)
    (hwords : ∀ token ∈ layout.map Prod.snd, ∀ text, token ≠ .word text)
    {last : List Char × Token} (hlast : layout.getLast? = some last) (now : List Char)
    (inWord : Bool) :
    replaceNow now inWord (layout.text ++ after) =
      layout.text ++ replaceNow now last.2.endsInWord after := by
  induction h generalizing inWord with
  | nil => cases hlast
  | @cons gap token rest blank lexeme ends tail ih =>
      obtain ⟨htoken, hrest⟩ := List.forall_mem_cons.1 hwords
      have hmore : replaceNow now token.endsInWord (rest.text ++ after) =
          rest.text ++ replaceNow now last.2.endsInWord after := by
        cases rest with
        | nil =>
            cases hlast
            rfl
        | cons item rest =>
            rw [List.getLast?_cons_cons] at hlast
            exact ih hrest hlast _
      rw [Layout.text, List.append_assoc, List.append_assoc, replaceNow_inert _ _ fun c hc =>
        Layout.inert_of_isAsciiBlank (blank c hc), replaceNow_lexeme now lexeme, hmore]
      · simp
      · exact fun word hword _ => absurd hword (htoken word)

/-- A layout without numbers holds no truth values. -/
theorem putFlags_eq_self {layout : Layout}
    (h : ∀ token ∈ layout.map Prod.snd, ∀ text, token ≠ .number text) (opens : Bool) :
    layout.putFlags opens = layout := by
  induction layout generalizing opens with
  | nil => rfl
  | cons item rest ih =>
      obtain ⟨gap, token⟩ := item
      obtain ⟨htoken, hrest⟩ := List.forall_mem_cons.1 h
      rw [Layout.putFlags, ih hrest, Layout.taken_eq_self]
      rintro (hzero | hone)
      · exact absurd hzero (htoken _)
      · exact absurd hone (htoken _)

/-- A call is passed over where it is no spelling of the current time. -/
theorem Call.replaceNow_of_not_keeps (call : Call) (h : ¬call.Keeps) (after : List Char) :
    replaceNow nowChars false (call.text ++ after) =
      call.text ++ replaceNow nowChars false after := by
  obtain ⟨gap, hlast⟩ := call.exists_getLast?
  obtain ⟨_, _, rest, harguments, -, -⟩ := call.exists_arguments
  rw [Call.layout, harguments, List.getLast?_cons_cons, ← harguments] at hlast
  have hspelling := call.nowSpelling? after
  rw [if_neg h] at hspelling
  have hwords : ∀ token ∈ call.arguments.map Prod.snd, ∀ text, token ≠ .word text := by
    rintro _ hmem text rfl
    rcases call.of_mem_arguments hmem with hmark | ⟨content, heq⟩
    · cases hmark
    · cases heq
  cases call.legibleBefore after with
  | cons _ lexeme _ tail =>
      rw [Call.text, Call.layout, Layout.text, List.nil_append, List.append_assoc,
        replaceNow_lexeme nowChars lexeme, replaceNow_text_append tail hwords hlast,
        ← List.append_assoc]
      · rfl
      · rintro word ⟨⟩ _
        exact hspelling

/-- What becomes of a call behind a sign: the literal for the current time stands in place of a
spelling, and any other call stays as it is. -/
theorem Call.replaced (call : Call) (sign : Char) (after : List Char) :
    replaceFlagsIn (some sign) false (replaceNow nowChars false (call.text ++ after)) =
      (if call.Keeps then nowChars else call.text) ++ normalizeChars nowChars after := by
  have hstart : ∀ before, beginsValue before = false →
      replaceFlagsIn before false (replaceNow nowChars false after) =
        normalizeChars nowChars after := by
    intro before hbefore
    have hnone : beginsValue before = beginsValue none := hbefore
    rw [replaceFlagsIn_congr hnone]
    rfl
  by_cases h : call.Keeps
  · have hspelling := call.nowSpelling? after
    have htext : call.text = call.word.toList ++ call.arguments.text := rfl
    have hquote : '\'' ∉ "now()".toList := by decide
    have hspan := replaceFlagsIn_span (some sign) false (.inl rfl) hquote
      (replaceNow nowChars false after)
    rw [hstart _ rfl] at hspan
    rw [if_pos h] at hspelling ⊢
    rw [htext, List.append_assoc, replaceNow_of_word _ call.isIdentifier hspelling]
    exact hspan
  · obtain ⟨gap, hlast⟩ := call.exists_getLast?
    have hnumbers : ∀ token ∈ call.layout.map Prod.snd, ∀ text, token ≠ .number text := by
      rintro _ hmem text rfl
      rw [Call.layout, List.map_cons, List.mem_cons] at hmem
      rcases hmem with heq | hmem
      · cases heq
      · rcases call.of_mem_arguments hmem with hmark | ⟨content, heq⟩
        · cases hmark
        · cases heq
    rw [if_neg h, call.replaceNow_of_not_keeps h, Call.text,
      Layout.replaceFlagsIn_text_append (call.legibleBefore _) hlast (by simp) (by simp),
      putFlags_eq_self hnumbers]
    exact congrArg (_ ++ ·) (hstart _ rfl)

end ClosedSql.Dialect
