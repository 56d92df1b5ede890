import ClosedSql.Proofs.Dialect.Clock
import ClosedSql.Proofs.Dialect.Flags

/-!
# Layouts without dialect literals

A layout is left as it is by both replacements when its tokens hold no dialect literal: no word
spells the current time, no call of `datetime` is given a text, and a zero or one stands only
after a word. Texts in quotes may hold anything.
-/

namespace ClosedSql.Layout

open Text Dialect

/-- What a token must not be where it stands, for the statement to have no dialect literal. -/
def Admits (previous : Option Token) (rest : List Token) : Token → Prop
  | .word text => lower text.toList ≠ "current_timestamp".toList
  | .number text => text = "0" ∨ text = "1" → ∃ word, previous = some (.word word)
  | .leftParen => previous.any (Token.isKeyword "datetime") = true →
      ∀ content tail, rest ≠ .quotedText content :: tail
  | _ => True

/-- Tokens without dialect literals, after a given one. -/
def Ordinary : Option Token → List Token → Prop
  | _, [] => True
  | previous, token :: rest => Admits previous rest token ∧ Ordinary (some token) rest

/-- No spelling of the current time begins among ordinary tokens. -/
theorem nowSpelling?_of_ordinary {previous : Option Token} {tokens : List Token}
    (h : Ordinary previous tokens) : Token.nowSpelling? tokens = none := by
  fun_cases Token.nowSpelling? tokens with
  | case1 text rest hstamp => exact absurd hstamp h.1
  | case2 text rest hstamp hcall =>
      fun_cases Token.callArguments? rest with
      | case1 instant others _ =>
          exact absurd rfl (h.2.1 (sameIgnoringCase_iff.2 hcall) instant others)
      | case2 instant others _ => rfl
      | case3 => rfl
  | case3 => rfl
  | case4 => rfl

/-- Ordinary tokens are kept where the current time is replaced. -/
theorem putNow_of_ordinary (stamp : Token) {previous : Option Token} {layout : Layout}
    (h : Ordinary previous (layout.map Prod.snd)) (inWord : Bool) :
    putNow stamp inWord layout = layout := by
  fun_induction putNow stamp inWord layout generalizing previous with
  | case1 => rfl
  | case2 inWord gap token rest count hspelled _ =>
      rw [spelled?] at hspelled
      split at hspelled
      · cases hspelled
      · have hnone : Token.nowSpelling? (token :: rest.map Prod.snd) = none :=
          nowSpelling?_of_ordinary h
        rw [hnone] at hspelled
        cases hspelled
  | case3 inWord gap token rest _ ih => rw [ih h.2]

/-- Ordinary tokens are kept where truth values are replaced. -/
theorem putFlags_of_ordinary {previous : Option Token} {layout : Layout} (hlegible : Legible layout)
    (h : Ordinary previous (layout.map Prod.snd)) {opens : Bool}
    (hopens : (∃ word, previous = some (.word word)) → opens = false) :
    putFlags opens layout = layout := by
  induction hlegible generalizing previous opens with
  | nil => rfl
  | @cons gap token rest _ lexeme _ _ ih =>
      have htaken : taken opens token rest = token := by
        refine taken_eq_self fun hdigit => .inl (hopens ?_)
        rcases hdigit with rfl | rfl
        · exact h.1 (.inl rfl)
        · exact h.1 (.inr rfl)
      rw [putFlags, htaken, ih h.2]
      rintro ⟨word, heq⟩
      cases heq
      exact opensValue_of_endsInWord (Token.endsInWord_word lexeme.isIdentifier)

/-- Normalizing leaves an ordinary layout as it is, whatever stands for the current time. -/
theorem normalizeChars_text (now : List Char) {layout : Layout} (h : Spaced layout)
    (hordinary : Ordinary none (layout.map Prod.snd)) :
    normalizeChars now layout.text = layout.text := by
  have hnone : ∀ c ∈ ([] : List Char), isAsciiBlank c = true := List.forall_mem_nil _
  have hnow := replaceNow_text h.legible hnone (.word (String.ofList now)) false
  rw [Token.chars, String.toList_ofList, putNow_of_ordinary _ hordinary, List.append_nil] at hnow
  have hflags : replaceFlagsIn none false (layout.text ++ []) =
      (putFlags false layout).text ++ [] := replaceFlagsIn_text h.legible hnone fun _ => rfl
  rw [putFlags_of_ordinary h.legible hordinary fun _ => rfl, List.append_nil] at hflags
  rw [normalizeChars, hnow]
  exact hflags

end ClosedSql.Layout
