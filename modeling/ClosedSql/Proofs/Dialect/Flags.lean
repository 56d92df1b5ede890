import ClosedSql.Proofs.Dialect.Lexemes
import ClosedSql.Proofs.Token.Layout

/-!
# Truth values in a layout

Whether a zero or one stands for a truth value is decided by the token before it and the token after
it. The blanks around it matter only before one of the words that close a condition: there must be
some.
-/

namespace ClosedSql

open Text Dialect

namespace Token

/-- The word that a number stands for where it is a truth value. -/
def flag? : Token → Option Token
  | number text =>
      if text = "0" then some (word "false") else if text = "1" then some (word "true") else none
  | _ => none

theorem flag?_eq_none {token : Token} (h : ¬(token = number "0" ∨ token = number "1")) :
    token.flag? = none := by
  cases token with
  | number text =>
      rw [flag?, if_neg fun heq => h (.inl (congrArg _ heq)),
        if_neg fun heq => h (.inr (congrArg _ heq))]
  | _ => rfl

def isClosingWord : Token → Bool
  | word text => closingWords.contains (lower text.toList)
  | _ => false

/-- Whether a value may end before a token, whatever stands between them. -/
def isClosingMark : Token → Bool
  | comma | rightParen | semicolon => true
  | _ => false

/-- A token that begins with a letter is a word. -/
theorem word_of_isAlpha {token : Token} (h : Lexeme token) {c : Char} {tail : List Char}
    (hchars : token.chars = c :: tail) (hc : c.isAlpha = true) : ∃ text, token = .word text := by
  have hsigns : ∀ d ∈ signs, d.isAlpha = false := by decide
  have hother : ∀ d, d.isAlpha = false → c ≠ d := fun d hd => ne_of_true_of_false hc hd
  cases h with
  | word _ => exact ⟨_, rfl⟩
  | name content =>
      cases hchars
      exact absurd rfl (hother '"' (by decide))
  | text content =>
      cases hchars
      exact absurd rfl (hother '\'' (by decide))
  | number numeral =>
      rw [chars] at hchars
      have hmem : c ∈ c :: tail := List.mem_cons_self
      rw [← hchars] at hmem
      rcases numeral.isNumeric c hmem with hdigit | rfl | rfl
      · exact absurd hc (not_isAlpha_of_isDigit hdigit)
      · exact absurd rfl (hother '.' (by decide))
      · exact absurd rfl (hother '-' (by decide))
  | operator symbol =>
      obtain ⟨d, _, heq, hd, -⟩ := exists_cons_of_operator symbol
      cases (show c :: tail = d :: _ from hchars.symm.trans heq)
      exact absurd rfl (hother c (hsigns c hd))
  | mark isMark =>
      obtain ⟨d, heq, -, hd⟩ := exists_of_isMark isMark
      rw [hchars] at heq
      cases heq
      exact absurd rfl (hother c (hsigns c hd))

theorem isAlpha_of_isClosingWord {text : String} (h : (word text).isClosingWord = true) {c : Char}
    {tail : List Char} (hchars : text.toList = c :: tail) : c.isAlpha = true := by
  have hwords : ∀ word ∈ closingWords, (word.headD ' ').isLower = true := by decide
  have hlower : c.toLower.isLower = true := by
    have hword := hwords (lower text.toList) (List.contains_iff_mem.1 h)
    rwa [hchars] at hword
  rw [isAlpha_iff]
  by_cases hupper : c.isUpper = true
  · exact .inl hupper
  · rw [toLower_of_not_isUpper hupper] at hlower
    exact .inr hlower

end Token

namespace Layout

def endsValue : Layout → Bool
  | [] => true
  | (gap, token) :: _ => token.isClosingMark || !gap.isEmpty && token.isClosingWord

/-- What a token is taken for, given whether a value may begin with it and what follows it. -/
def taken (opens : Bool) (token : Token) (rest : Layout) : Token :=
  if opens && endsValue rest then token.flag?.getD token else token

/-- A layout with words in place of zeros and ones that stand for truth values. -/
def putFlags (opens : Bool) : Layout → Layout
  | [] => []
  | (gap, token) :: rest => (gap, taken opens token rest) :: putFlags token.opensValue rest

/-- A value ends before a closing mark or word. -/
theorem endsValue_append {token : Token} (h : Token.Lexeme token) {text rest : List Char}
    (hrest : token.EndsBefore rest) (htrim : trimStart text = token.chars ++ rest) :
    Dialect.endsValue text = (token.isClosingMark || token.isClosingWord) := by
  obtain ⟨c, tail, hchars, -, -, hmark, -⟩ := h.first
  rw [hchars, List.cons_append] at htrim
  rw [Dialect.endsValue, htrim]
  dsimp only
  split
  · next hc =>
      rcases hc with rfl | rfl | rfl
      · rw [hmark .comma rfl]
        rfl
      · rw [hmark .rightParen rfl]
        rfl
      · rw [hmark .semicolon rfl]
        rfl
  · next hc =>
      have hnotMark : token.isClosingMark = false := by
        cases token with
        | comma => cases hchars; exact absurd (.inl rfl) hc
        | rightParen => cases hchars; exact absurd (.inr (.inl rfl)) hc
        | semicolon => cases hchars; exact absurd (.inr (.inr rfl)) hc
        | _ => rfl
      rw [hnotMark, Bool.false_or]
      split
      · next halpha =>
          obtain ⟨word, rfl⟩ := Token.word_of_isAlpha h hchars halpha
          rw [Token.chars] at hchars
          obtain ⟨d, letters, heq, hd, hletters⟩ := Token.exists_cons_of_isIdentifier h.isIdentifier
          have hall : ∀ d ∈ word.toList, isAsciiWord d = true := by
            rw [heq, List.forall_mem_cons]
            exact ⟨hd.isAsciiWord, hletters⟩
          rw [← List.cons_append, ← hchars, (Token.span_append hall hrest).1]
          rfl
      · next halpha =>
          cases token with
          | word text =>
              exact (Bool.eq_false_iff.2 fun hclosing =>
                halpha (Token.isAlpha_of_isClosingWord hclosing hchars)).symm
          | _ => rfl

/-- A zero or one ends before a token where a value ends before it. -/
theorem endsFlag_cons {gap : List Char} {token : Token} {rest : Layout} {after : List Char}
    (h : LegibleBefore after ((gap, token) :: rest)) :
    endsFlag (text ((gap, token) :: rest) ++ after) = endsValue ((gap, token) :: rest) := by
  cases h with
  | cons blank lexeme ends _ =>
  have hvalue := endsValue_append lexeme ends (lexeme.trimStart_append blank _)
  rw [← List.append_assoc, ← List.append_assoc, List.append_assoc gap] at hvalue
  rw [endsFlag, text, hvalue, endsValue]
  cases gap with
  | cons c gap =>
      have hbegins : beginsInWord (text ((c :: gap, token) :: rest) ++ after) = false :=
        Token.isWord_delimiters c
          (Token.mem_delimiters_of_isAsciiBlank (blank c List.mem_cons_self))
      rw [text] at hbegins
      rw [hbegins]
      rfl
  | nil =>
      obtain ⟨c, letters, hchars, -⟩ := lexeme.first
      have hbegins : beginsInWord ([] ++ (token.chars ++ rest.text) ++ after) = isWord c := by
        rw [hchars]
        rfl
      rw [hbegins]
      cases token with
      | word word =>
          have hword : isWord c = true := by
            obtain ⟨d, _, heq, hd, -⟩ := Token.exists_cons_of_isIdentifier lexeme.isIdentifier
            cases (show c :: letters = d :: _ from hchars.symm.trans heq)
            exact isWord_of_isAsciiWord hd.isAsciiWord
          rw [hword]
          rfl
      | comma | rightParen | semicolon => cases hchars; decide
      | _ => simp [Token.isClosingMark, Token.isClosingWord]

/-- A zero or one ends before what it ends before in the layout. -/
theorem endsFlag_text {layout : Layout} (h : Legible layout) {after : List Char}
    (hafter : ∀ c ∈ after, isAsciiBlank c = true) :
    endsFlag (layout.text ++ after) = endsValue layout := by
  cases layout with
  | nil =>
      have hblank : ∀ c ∈ after, isWord c = false := fun c hc =>
        Token.isWord_delimiters c (Token.mem_delimiters_of_isAsciiBlank (hafter c hc))
      have hbegins : beginsInWord after = false := by
        rw [beginsInWord_eq, Option.any_eq_false]
        exact fun c hc => by simp [hblank c (List.mem_of_mem_head? hc)]
      rw [text, List.nil_append, endsFlag, hbegins, Dialect.endsValue, trimStart_blanks hafter]
      rfl
  | cons item rest =>
      exact endsFlag_cons (h.before fun last _ => endsBefore_blanks hafter last.2)

/-- A token is taken for itself unless it is a zero or one where a truth value may stand. -/
theorem taken_eq_self {opens : Bool} {token : Token} {rest : Layout}
    (h : token = .number "0" ∨ token = .number "1" → opens = false ∨ endsValue rest = false) :
    taken opens token rest = token := by
  rw [taken]
  split
  · next hflag =>
      have hnone : token.flag? = none := by
        refine Token.flag?_eq_none fun hdigit => ?_
        rw [Bool.and_eq_true] at hflag
        rcases h hdigit with hfalse | hfalse
        · rw [hfalse] at hflag
          cases hflag.1
        · rw [hfalse] at hflag
          cases hflag.2
      rw [hnone]
      rfl
  · rfl

/-- Replacing truth values in the text of a layout before another text replaces tokens. -/
theorem replaceFlagsIn_text_append {layout : Layout} {after : List Char}
    (h : LegibleBefore after layout) {last : List Char × Token} (hlast : layout.getLast? = some last)
    (hends : last.2 = .number "0" ∨ last.2 = .number "1" → endsFlag after = true)
    {before : Option Char} {inWord : Bool} (hword : inWord = true → beginsValue before = false) :
    replaceFlagsIn before inWord (layout.text ++ after) =
      (putFlags (beginsValue before) layout).text ++
        replaceFlagsIn last.2.chars.getLast? last.2.endsInWord after := by
  induction h generalizing before inWord with
  | nil => cases hlast
  | @cons gap token rest blank lexeme ends tail ih =>
      obtain ⟨hfollows, hmore⟩ :
          (token = .number "0" ∨ token = .number "1" →
            endsFlag (rest.text ++ after) = endsValue rest) ∧
          replaceFlagsIn token.chars.getLast? token.endsInWord (rest.text ++ after) =
            (putFlags token.opensValue rest).text ++
              replaceFlagsIn last.2.chars.getLast? last.2.endsInWord after := by
        cases rest with
        | nil =>
            cases hlast
            exact ⟨hends, rfl⟩
        | cons item rest =>
            rw [List.getLast?_cons_cons] at hlast
            exact ⟨fun _ => endsFlag_cons tail, ih hlast opensValue_of_endsInWord⟩
      rw [text, List.append_assoc, List.append_assoc, replaceFlagsIn_blanks blank, putFlags, text,
        List.append_assoc, List.append_assoc]
      refine congrArg (gap ++ ·) ?_
      by_cases hflag : (token = .number "0" ∨ token = .number "1") ∧
          beginsValue before = true ∧ endsValue rest = true
      · obtain ⟨hdigit, hopens, hcloses⟩ := hflag
        have hgap : goesOn inWord gap = false := by
          rw [goesOn_blanks blank]
          cases inWord with
          | false => rfl
          | true => rw [hword rfl] at hopens; cases hopens
        have hstands : endsFlag (rest.text ++ after) = true := (hfollows hdigit).trans hcloses
        rw [taken, hopens, hcloses, hgap]
        rcases hdigit with rfl | rfl
        · exact (replaceFlagsIn_of_flag before false
            (beginsFlag_iff.2 ⟨.inl rfl, rfl, hopens⟩) hstands).trans (congrArg (_ ++ ·) hmore)
        · exact (replaceFlagsIn_of_flag before false
            (beginsFlag_iff.2 ⟨.inr rfl, rfl, hopens⟩) hstands).trans (congrArg (_ ++ ·) hmore)
      · have hkept : token = .number "0" ∨ token = .number "1" →
            beginsValue before = false ∨ endsValue rest = false := by
          intro hdigit
          rw [← Bool.and_eq_false_iff, Bool.eq_false_iff, Ne, Bool.and_eq_true]
          exact fun hboth => hflag ⟨hdigit, hboth⟩
        have hstays : token = .number "0" ∨ token = .number "1" →
            beginsValue before = false ∨ endsFlag (rest.text ++ after) = false := by
          intro hdigit
          rw [hfollows hdigit]
          exact hkept hdigit
        rw [taken_eq_self hkept, replaceFlagsIn_lexeme lexeme _ hstays, hmore]

/-- Replacing truth values in the text of a layout replaces tokens. -/
theorem replaceFlagsIn_text {layout : Layout} (h : Legible layout) {after : List Char}
    (hafter : ∀ c ∈ after, isAsciiBlank c = true) {before : Option Char} {inWord : Bool}
    (hword : inWord = true → beginsValue before = false) :
    replaceFlagsIn before inWord (layout.text ++ after) =
      (putFlags (beginsValue before) layout).text ++ after := by
  have hkept : ∀ before inWord, replaceFlagsIn before inWord after = after := by
    intro before inWord
    rw [← List.append_nil after, replaceFlagsIn_blanks hafter, replaceFlagsIn_nil]
  cases hlast : layout.getLast? with
  | none =>
      rw [List.getLast?_eq_none_iff.1 hlast, text, List.nil_append, hkept]
      rfl
  | some last =>
      have hends : last.2 = .number "0" ∨ last.2 = .number "1" → endsFlag after = true :=
        fun _ => endsFlag_text .nil hafter
      rw [replaceFlagsIn_text_append (h.before fun item _ => endsBefore_blanks hafter item.2) hlast
        hends hword, hkept]

end Layout

end ClosedSql
