import ClosedSql.Proofs.Dialect.Lexemes
import ClosedSql.Proofs.Token.Layout

/-!
# The current time in a layout

Whether a spelling of the current time begins at a word is decided by the tokens from there on,
whatever blanks stand between them. The blanks before the word matter only after a number, where
without one the word goes on from the number. So the replacement of the current time in a text can
be told as a replacement of tokens in its layout.
-/

namespace ClosedSql

open Text Dialect

namespace Token

def isFolded (word text : String) : Bool :=
  text.toList.map fold == word.toList

/-- How many tokens the modifiers of a call and its closing parenthesis are. -/
def callTail? : List Token → Option Nat
  | .rightParen :: _ => some 1
  | .comma :: .quotedText modifier :: rest =>
      if isFolded "localtime" modifier || isFolded "utc" modifier then
        (callTail? rest).map (· + 2)
      else none
  | _ => none

/-- How many tokens the arguments of a call for the current time are, parentheses included. -/
def callArguments? : List Token → Option Nat
  | .leftParen :: .quotedText instant :: rest =>
      if isFolded "now" instant then (callTail? rest).map (· + 2) else none
  | _ => none

/-- Whether a spelling of the current time begins with the first token; the answer is the number of
further tokens it takes. -/
def nowSpelling? : List Token → Option Nat
  | .word text :: rest =>
      if lower text.toList = "current_timestamp".toList then some 0
      else if lower text.toList = "datetime".toList then callArguments? rest
      else none
  | _ => none

/-- Only a word begins a spelling of the current time. -/
theorem exists_word_of_nowSpelling? {token : Token} {rest : List Token} {count : Nat}
    (h : nowSpelling? (token :: rest) = some count) : ∃ text, token = .word text := by
  cases token with
  | word text => exact ⟨text, rfl⟩
  | _ => cases h

end Token

namespace Dialect

/-! ## Calls in a text -/

theorem callTail?_of_blank {text : List Char} (h : trimStart text = []) : callTail? text = none := by
  rw [callTail?]
  split
  · rfl
  · next h' =>
      rw [h] at h'
      cases h'

theorem callTail?_of_quote (rest : List Char) : callTail? ('\'' :: rest) = none := by
  rw [callTail?_cons (trimStart_cons_of_isQuote (.inl rfl) rest), if_neg (by decide),
    if_neg (by decide)]

/-- A word in quotes is read from a text in quotes that is this word. -/
theorem afterWord?_double_of_fold {word content : List Char}
    (hword : ∀ w ∈ word, isAsciiWord w = true) (h : content.map fold = word) (rest : List Char) :
    afterWord? (word ++ ['\'']) (double '\'' content ++ '\'' :: rest) = some rest := by
  induction content generalizing word with
  | nil =>
      subst h
      rfl
  | cons c content ih =>
      subst h
      obtain ⟨hc, htail⟩ := List.forall_mem_cons.1 hword
      have hne : c ≠ '\'' := by
        rintro rfl
        exact absurd hc (by decide)
      rw [double, if_neg hne]
      exact (afterWord?_cons_of_eq rfl _ _).trans (ih htail rfl)

/-- From any other text in quotes it is read at most up to a doubled quote. -/
theorem fold_of_afterWord?_double {word content rest found : List Char}
    (hword : ∀ w ∈ word, isAsciiWord w = true)
    (h : afterWord? (word ++ ['\'']) (double '\'' content ++ '\'' :: rest) = some found) :
    (content.map fold = word ∧ found = rest) ∨ ∃ tail, found = '\'' :: tail := by
  induction word generalizing content with
  | nil =>
      obtain ⟨c, tail, heq, hc, hread⟩ := exists_cons_of_afterWord? h
      cases hread
      obtain rfl := eq_of_fold (by decide) hc
      cases content with
      | nil =>
          cases heq
          exact .inl ⟨rfl, rfl⟩
      | cons d content =>
          rw [double] at heq
          split at heq
          · cases heq
            exact .inr ⟨_, rfl⟩
          · next hd =>
              cases heq
              exact absurd rfl hd
  | cons w word ih =>
      obtain ⟨hw, hrest⟩ := List.forall_mem_cons.1 hword
      obtain ⟨c, tail, heq, hc, hread⟩ := exists_cons_of_afterWord? h
      have hquote : c ≠ '\'' := by
        rintro rfl
        have hfold : fold '\'' = '\'' := rfl
        rw [← hc, hfold] at hw
        exact absurd hw (by decide)
      cases content with
      | nil =>
          cases heq
          exact absurd rfl hquote
      | cons d content =>
          rw [double] at heq
          split at heq
          · cases heq
            exact absurd rfl hquote
          · cases heq
            refine (ih hrest hread).imp_left ?_
            rintro ⟨hcontent, rfl⟩
            exact ⟨by rw [List.map_cons, hc, hcontent], rfl⟩

theorem afterWord?_enquote (word content rest : List Char) :
    afterWord? ('\'' :: word) (enquote '\'' content ++ rest) =
      afterWord? word (double '\'' content ++ '\'' :: rest) := by
  rw [enquote, List.append_assoc, List.cons_append]
  exact afterWord?_cons_of_eq rfl _ _

/-- A call goes on after a text in quotes only if this is the word that is looked for. -/
theorem bind_afterWord?_enquote {word : List Char} (hword : ∀ w ∈ word, isAsciiWord w = true)
    (content rest : List Char) :
    (afterWord? ('\'' :: (word ++ ['\''])) (enquote '\'' content ++ rest)).bind callTail? =
      if content.map fold = word then callTail? rest else none := by
  rw [afterWord?_enquote]
  by_cases hfold : content.map fold = word
  · rw [if_pos hfold, afterWord?_double_of_fold hword hfold]
    rfl
  · rw [if_neg hfold, Option.bind_eq_none_iff]
    intro found hfound
    obtain ⟨hsame, -⟩ | ⟨tail, rfl⟩ := fold_of_afterWord?_double hword hfound
    · exact absurd hsame hfold
    · exact callTail?_of_quote tail

/-- A text in quotes is a modifier of the call if it folds to one of the two that keep the instant.
-/
theorem bind_modifier?_enquote (content rest : List Char) :
    (modifier? (enquote '\'' content ++ rest)).bind callTail? =
      if content.map fold = "localtime".toList ∨ content.map fold = "utc".toList then callTail? rest
      else none := by
  have hlocal : ∀ w ∈ "localtime".toList, isAsciiWord w = true := by decide
  have hutc : ∀ w ∈ "utc".toList, isAsciiWord w = true := by decide
  split
  · next h =>
      have hmodifier : modifier? (enquote '\'' content ++ rest) = some rest := by
        refine modifier?_eq_some_iff.2 (h.imp (fun h => ?_) fun h => ?_)
        · exact (afterWord?_enquote _ _ _).trans (afterWord?_double_of_fold hlocal h rest)
        · exact (afterWord?_enquote _ _ _).trans (afterWord?_double_of_fold hutc h rest)
      rw [hmodifier]
      rfl
  · next h =>
      obtain ⟨hnotLocal, hnotUtc⟩ := not_or.1 h
      rw [Option.bind_eq_none_iff]
      intro found hfound
      rcases modifier?_eq_some_iff.1 hfound with hread | hread
      · have hnone := bind_afterWord?_enquote hlocal content rest
        rw [if_neg hnotLocal] at hnone
        exact Option.bind_eq_none_iff.1 hnone found hread
      · have hnone := bind_afterWord?_enquote hutc content rest
        rw [if_neg hnotUtc] at hnone
        exact Option.bind_eq_none_iff.1 hnone found hread

end Dialect

/-! ## Calls in a layout -/

namespace Layout

section After

variable {layout : Layout} {after : List Char}
  (hafter : ∀ c ∈ after, isAsciiBlank c = true)

theorem Legible.tail {item : List Char × Token} (h : Legible (item :: layout)) :
    Legible layout := by
  cases h with
  | cons _ _ _ tail => exact tail

theorem Legible.drop (h : Legible layout) (count : Nat) : Legible (layout.drop count) := by
  induction count generalizing layout with
  | zero => exact h
  | succ count ih =>
      cases layout with
      | nil => exact h
      | cons item rest => exact ih h.tail

/-- A call whose first argument is a text in quotes goes on if this is the instant. -/
theorem callArguments?_paren {gap between : List Char} {instant : String}
    (h : Legible ((gap, .leftParen) :: (between, .quotedText instant) :: layout))
    (after : List Char) :
    Dialect.callArguments?
        (text ((gap, .leftParen) :: (between, .quotedText instant) :: layout) ++ after) =
      if instant.toList.map fold = "now".toList then Dialect.callTail? (layout.text ++ after)
      else none := by
  rw [Dialect.callArguments?, trimStart_text_append h]
  change (afterWord? _ (trimStart (text _ ++ after))).bind Dialect.callTail? = _
  rw [trimStart_text_append h.tail]
  exact bind_afterWord?_enquote (by decide : ∀ w ∈ "now".toList, isAsciiWord w = true) _ _

/-- Where a comma follows, what counts is the text in quotes behind it. -/
theorem callTail?_comma {gap : List Char} (h : Legible ((gap, .comma) :: layout))
    (after : List Char) :
    Dialect.callTail? (text ((gap, .comma) :: layout) ++ after) =
      (modifier? (trimStart (layout.text ++ after))).bind Dialect.callTail? := by
  rw [callTail?_cons (trimStart_text_append h after), if_neg (by decide), if_pos rfl]
  rfl

include hafter

/-- What is read at the head of a text without its blanks is the first token. -/
theorem exists_cons_of_trimStart (h : Legible layout) {c : Char} {tail : List Char}
    (htrim : trimStart (layout.text ++ after) = c :: tail) :
    ∃ gap token rest, layout = (gap, token) :: rest ∧ token.chars ++ (text rest ++ after) = c :: tail ∧
      (∀ other, Token.ofMark? c = some other → token = other) ∧
      (c = '\'' → ∃ content, token = .quotedText content) := by
  cases layout with
  | nil =>
      rw [text, List.nil_append, trimStart_blanks hafter] at htrim
      cases htrim
  | cons item rest =>
      obtain ⟨gap, token⟩ := item
      rw [trimStart_text_append h] at htrim
      refine ⟨gap, token, rest, rfl, htrim, ?_⟩
      cases h with
      | cons _ lexeme _ _ =>
          obtain ⟨d, chars, hchars, -, -, hmark, hquote⟩ := lexeme.first
          rw [hchars] at htrim
          cases htrim
          exact ⟨hmark, hquote⟩

/-- A word that is read behind a quote is read from a text in quotes. -/
theorem exists_quotedText_of_afterWord? (h : Legible layout) {word found : List Char}
    (hread : afterWord? ('\'' :: word) (trimStart (layout.text ++ after)) = some found) :
    ∃ gap content rest, layout = (gap, .quotedText content) :: rest := by
  obtain ⟨c, tail, htrim, hc, -⟩ := exists_cons_of_afterWord? hread
  obtain ⟨gap, token, rest, rfl, -, -, hquote⟩ := exists_cons_of_trimStart hafter h htrim
  obtain ⟨content, rfl⟩ := hquote (eq_of_fold (by decide) hc)
  exact ⟨gap, content, rest, rfl⟩

/-- The tail of a call is found among tokens as it is found in their text. -/
theorem callTail?_text (h : Legible layout) :
    Dialect.callTail? (layout.text ++ after) =
      (Token.callTail? (layout.map Prod.snd)).map fun count =>
        text (layout.drop count) ++ after := by
  generalize htokens : layout.map Prod.snd = tokens
  fun_induction Token.callTail? tokens generalizing layout with
  | case1 rest =>
      obtain ⟨⟨gap, token⟩, others, rfl, rfl, rfl⟩ := List.map_eq_cons_iff.1 htokens
      rw [callTail?_cons (trimStart_text_append h after), if_pos rfl]
      rfl
  | case2 modifier rest hmodifier ih =>
      obtain ⟨⟨gap, token⟩, others, rfl, rfl, hothers⟩ := List.map_eq_cons_iff.1 htokens
      obtain ⟨⟨between, token⟩, others, rfl, rfl, rfl⟩ := List.map_eq_cons_iff.1 hothers
      rw [Bool.or_eq_true, Token.isFolded, Token.isFolded, beq_iff_eq, beq_iff_eq] at hmodifier
      rw [callTail?_comma h after, trimStart_text_append h.tail, Token.chars,
        bind_modifier?_enquote, if_pos hmodifier, ih h.tail.tail rfl, Option.map_map]
      rfl
  | case3 modifier rest hmodifier =>
      obtain ⟨⟨gap, token⟩, others, rfl, rfl, hothers⟩ := List.map_eq_cons_iff.1 htokens
      obtain ⟨⟨between, token⟩, others, rfl, rfl, rfl⟩ := List.map_eq_cons_iff.1 hothers
      rw [Bool.or_eq_true, Token.isFolded, Token.isFolded, beq_iff_eq, beq_iff_eq] at hmodifier
      rw [callTail?_comma h after, trimStart_text_append h.tail, Token.chars,
        bind_modifier?_enquote, if_neg hmodifier]
      rfl
  | case4 tokens hclose hcomma =>
      rw [Option.map_none]
      cases htrim : trimStart (layout.text ++ after) with
      | nil => exact callTail?_of_blank htrim
      | cons c tail =>
          obtain ⟨gap, token, rest, rfl, hchars, hmark, -⟩ := exists_cons_of_trimStart hafter h htrim
          rw [callTail?_cons htrim]
          split
          · next hc =>
              obtain rfl := hmark .rightParen (by rw [hc]; rfl)
              exact absurd htokens.symm (hclose _)
          · split
            · next hc =>
                obtain rfl := hmark .comma (by rw [hc]; rfl)
                cases hchars
                -- A modifier would be a text in quotes, and the tokens do not go on with one.
                rw [Option.bind_eq_none_iff]
                intro found hfound
                obtain ⟨between, content, others, rfl⟩ : ∃ gap content others,
                    rest = (gap, .quotedText content) :: others := by
                  rcases modifier?_eq_some_iff.1 hfound with hread | hread
                  · exact exists_quotedText_of_afterWord? hafter h.tail hread
                  · exact exists_quotedText_of_afterWord? hafter h.tail hread
                exact absurd htokens.symm (hcomma content _)
            · rfl

/-- The arguments of a call are found among tokens as they are found in their text. -/
theorem callArguments?_text (h : Legible layout) :
    Dialect.callArguments? (layout.text ++ after) =
      (Token.callArguments? (layout.map Prod.snd)).map fun count =>
        text (layout.drop count) ++ after := by
  generalize htokens : layout.map Prod.snd = tokens
  fun_cases Token.callArguments? tokens with
  | case1 instant rest hinstant =>
      obtain ⟨⟨gap, token⟩, others, rfl, rfl, hothers⟩ := List.map_eq_cons_iff.1 htokens
      obtain ⟨⟨between, token⟩, others, rfl, rfl, rfl⟩ := List.map_eq_cons_iff.1 hothers
      rw [Token.isFolded, beq_iff_eq] at hinstant
      rw [callArguments?_paren h, if_pos hinstant, callTail?_text hafter h.tail.tail, Option.map_map]
      rfl
  | case2 instant rest hinstant =>
      obtain ⟨⟨gap, token⟩, others, rfl, rfl, hothers⟩ := List.map_eq_cons_iff.1 htokens
      obtain ⟨⟨between, token⟩, others, rfl, rfl, rfl⟩ := List.map_eq_cons_iff.1 hothers
      rw [Token.isFolded, beq_iff_eq] at hinstant
      rw [callArguments?_paren h, if_neg hinstant]
      rfl
  | case3 tokens hcall =>
      rw [Dialect.callArguments?]
      split
      · next inner htrim =>
          obtain ⟨gap, token, rest, rfl, hchars, hmark, -⟩ := exists_cons_of_trimStart hafter h htrim
          obtain rfl := hmark .leftParen rfl
          cases hchars
          rw [Option.map_none, Option.bind_eq_none_iff]
          intro found hfound
          obtain ⟨between, content, others, rfl⟩ :=
            exists_quotedText_of_afterWord? hafter h.tail hfound
          exact absurd htokens.symm (hcall content _)
      · rfl

/-- A spelling in the text of a layout is a spelling made of its tokens. -/
theorem nowSpelling?_text {word : String} (hword : isIdentifier word.toList = true)
    (hends : (Token.word word).EndsBefore layout.text) (h : Legible layout) :
    Dialect.nowSpelling? (word.toList ++ (layout.text ++ after)) =
      (Token.nowSpelling? (.word word :: layout.map Prod.snd)).map fun count =>
        text (layout.drop count) ++ after := by
  have hletters : ∀ c ∈ word.toList, isAsciiWord c = true := by
    obtain ⟨c, tail, hchars, hc, htail⟩ := Token.exists_cons_of_isIdentifier hword
    rw [hchars, List.forall_mem_cons]
    exact ⟨hc.isAsciiWord, htail⟩
  have hrest : beginsInWord (layout.text ++ after) = false := by
    rw [beginsInWord_eq, Option.any_eq_false]
    exact h.not_beginsInWord hafter hends
  rw [nowSpelling?_word hletters hrest, Token.nowSpelling?]
  split
  · rfl
  · split
    · exact callArguments?_text hafter h
    · rfl

end After

/-! ## The replacement -/

/-- How many further tokens the spelling of the current time takes that begins at the head of a
layout, given whether a word goes on up to there. -/
def spelled? (inWord : Bool) : Layout → Option Nat
  | [] => none
  | (gap, token) :: rest =>
      if inWord && gap.isEmpty then none
      else Token.nowSpelling? (token :: rest.map Prod.snd)

/-- A layout with a token in place of each spelling of the current time. -/
def putNow (stamp : Token) (inWord : Bool) : Layout → Layout
  | [] => []
  | (gap, token) :: rest =>
      match spelled? inWord ((gap, token) :: rest) with
      | some count => (gap, stamp) :: putNow stamp false (rest.drop count)
      | none => (gap, token) :: putNow stamp token.endsInWord rest
termination_by layout => layout.length
decreasing_by
  · rw [List.length_drop, List.length_cons]
    omega
  · exact Nat.lt_succ_self _

theorem inert_of_isAsciiBlank {c : Char} (h : isAsciiBlank c = true) : Inert c := by
  have hdelimiters : ∀ d ∈ Token.delimiters, Inert d := by decide
  exact hdelimiters c (Token.mem_delimiters_of_isAsciiBlank h)

/-- Replacing the current time in the text of a layout replaces tokens. -/
theorem replaceNow_text {layout : Layout} (h : Legible layout) {after : List Char}
    (hafter : ∀ c ∈ after, isAsciiBlank c = true) (stamp : Token) (inWord : Bool) :
    replaceNow stamp.chars inWord (layout.text ++ after) =
      (putNow stamp inWord layout).text ++ after := by
  fun_induction putNow stamp inWord layout with
  | case1 inWord =>
      rw [text, List.nil_append, ← List.append_nil after, replaceNow_inert _ _ fun c hc =>
        inert_of_isAsciiBlank (hafter c hc), replaceNow_nil]
  | case2 inWord gap token rest count hspelled ih =>
      cases h with
      | cons blank lexeme ends tail =>
          rw [spelled?] at hspelled
          split at hspelled
          · cases hspelled
          next hgap =>
          obtain ⟨word, rfl⟩ := Token.exists_word_of_nowSpelling? hspelled
          have hspelling := nowSpelling?_text hafter lexeme.isIdentifier ends tail
          rw [hspelled] at hspelling
          rw [text, List.append_assoc, List.append_assoc, replaceNow_inert _ _ fun c hc =>
            inert_of_isAsciiBlank (blank c hc), goesOn_blanks blank, Bool.eq_false_iff.2 hgap,
            Token.chars, replaceNow_of_word _ lexeme.isIdentifier hspelling, ih (tail.drop count),
            text, List.append_assoc, List.append_assoc]
  | case3 inWord gap token rest hspelled ih =>
      cases h with
      | cons blank lexeme ends tail =>
          rw [text, List.append_assoc, List.append_assoc, replaceNow_inert _ _ fun c hc =>
            inert_of_isAsciiBlank (blank c hc), goesOn_blanks blank, replaceNow_lexeme _ lexeme,
            ih tail, text, List.append_assoc, List.append_assoc]
          rintro word rfl hgap
          rw [spelled?, hgap, if_neg (by decide)] at hspelled
          rw [nowSpelling?_text hafter lexeme.isIdentifier ends tail, hspelled]
          rfl

end Layout

end ClosedSql
