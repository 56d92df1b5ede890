import ClosedSql.Proofs.Dialect.Clock
import ClosedSql.Proofs.Dialect.Flags
import ClosedSql.Proofs.Token.Reading

/-!
# The tokens of a normalized text

Where no spelling of the current time stands directly against another one or against a text in
quotes, the tokens of a normalized text are those of the text with words for truth values and the
replacement for each spelling of the current time.
-/

namespace ClosedSql

open Text Dialect

namespace Token

/-- Whether some tokens are a text in quotes or a spelling of the current time. -/
def isText : List Token → Bool
  | [.quotedText _] => true
  | tokens => nowSpelling? tokens == some (tokens.length - 1)

def endsInText : List Token → Bool
  | [] => false
  | token :: rest => isText (token :: rest) || endsInText rest

def beginsInText : List Token → Bool
  | .quotedText _ :: _ => true
  | tokens => (nowSpelling? tokens).isSome

theorem endsInText_append {tokens : List Token} (h : isText tokens = true) (front : List Token) :
    endsInText (front ++ tokens) = true := by
  induction front with
  | nil =>
      cases tokens with
      | nil => cases h
      | cons token rest => rw [List.nil_append, endsInText, h, Bool.true_or]
  | cons token front ih => rw [List.cons_append, endsInText, ih, Bool.or_true]

/-- The tail of a call is read from its own tokens. -/
theorem callTail?_take {tokens : List Token} {count : Nat} (h : callTail? tokens = some count) :
    callTail? (tokens.take count) = some count ∧ count ≤ tokens.length := by
  fun_induction callTail? tokens generalizing count with
  | case1 rest =>
      cases h
      exact ⟨rfl, by simp⟩
  | case2 modifier rest hmodifier ih =>
      obtain ⟨inner, hinner, rfl⟩ := Option.map_eq_some_iff.1 h
      obtain ⟨htake, hlength⟩ := ih hinner
      refine ⟨?_, by simpa using hlength⟩
      rw [List.take_succ_cons, List.take_succ_cons, callTail?, if_pos hmodifier, htake]
      rfl
  | case3 => cases h
  | case4 => cases h

/-- The arguments of a call are read from their own tokens. -/
theorem callArguments?_take {tokens : List Token} {count : Nat}
    (h : callArguments? tokens = some count) :
    callArguments? (tokens.take count) = some count ∧ count ≤ tokens.length := by
  fun_cases callArguments? tokens with
  | case1 instant rest hinstant =>
      rw [callArguments?, if_pos hinstant] at h
      obtain ⟨inner, hinner, rfl⟩ := Option.map_eq_some_iff.1 h
      obtain ⟨htake, hlength⟩ := callTail?_take hinner
      refine ⟨?_, by simpa using hlength⟩
      rw [List.take_succ_cons, List.take_succ_cons, callArguments?, if_pos hinstant, htake]
      rfl
  | case2 instant rest hinstant =>
      rw [callArguments?, if_neg hinstant] at h
      cases h
  | case3 tokens hcall =>
      rw [callArguments?.eq_def] at h
      split at h
      · next instant rest => exact absurd rfl (hcall instant rest)
      · cases h

/-- A spelling of the current time is one by itself. -/
theorem isText_take {token : Token} {rest : List Token} {count : Nat}
    (h : nowSpelling? (token :: rest) = some count) : isText (token :: rest.take count) = true := by
  obtain ⟨word, rfl⟩ := exists_word_of_nowSpelling? h
  rw [nowSpelling?] at h
  have hlength : (.word word :: rest.take count : List Token).length - 1 = (rest.take count).length :=
    rfl
  rw [isText.eq_def]
  dsimp only
  rw [hlength, beq_iff_eq, nowSpelling?]
  split at h
  · next hstamp =>
      cases h
      rw [if_pos hstamp]
      rfl
  · next hstamp =>
      rw [if_neg hstamp]
      split at h
      · next hcall =>
          obtain ⟨htake, hlength⟩ := callArguments?_take h
          rw [if_pos hcall, htake, List.length_take, Nat.min_eq_left hlength]
      · cases h

/-- Tokens that begin with a spelling of the current time begin in a text. -/
theorem beginsInText_of_nowSpelling? {token : Token} {rest : List Token} {count : Nat}
    (h : nowSpelling? (token :: rest) = some count) : beginsInText (token :: rest) = true := by
  obtain ⟨word, rfl⟩ := exists_word_of_nowSpelling? h
  rw [beginsInText, h]
  · rfl
  · rintro _ _ ⟨⟩

/-- Only a text in quotes goes on with a quote. -/
theorem exists_quotedText_of_continues {token : Token} (h : token.continues '\'' = true) :
    ∃ content, token = .quotedText content := by
  cases token with
  | quotedText content => exact ⟨content, rfl⟩
  | word text => exact absurd (show isAsciiWord '\'' = true from h) (by decide)
  | quotedName text => exact absurd (show ('\'' == '"') = true from h) (by decide)
  | number text => simp [continues, continuesNumber] at h
  | operator symbol => cases symbol <;> exact absurd h (by decide)
  | _ => cases h

end Token

namespace Layout

/-- Whether no text in quotes and no spelling of the current time stands directly against another
one; `front` is what comes before the layout. -/
def textsApart (front : List Token) : Layout → Bool
  | [] => true
  | (gap, token) :: rest =>
      !(gap.isEmpty && Token.endsInText front &&
          Token.beginsInText (token :: rest.map Prod.snd)) &&
        textsApart (front ++ [token]) rest

/-- Texts that stand apart in a layout stand apart in the rest of it. -/
theorem textsApart_drop {front : List Token} {layout : Layout} (h : textsApart front layout = true)
    (count : Nat) :
    textsApart (front ++ (layout.map Prod.snd).take count) (layout.drop count) = true := by
  induction count generalizing front layout with
  | zero => simpa using h
  | succ count ih =>
      cases layout with
      | nil => simpa using h
      | cons item rest =>
          obtain ⟨gap, token⟩ := item
          rw [textsApart, Bool.and_eq_true] at h
          have hmore := ih h.2
          rw [List.append_assoc, List.singleton_append] at hmore
          exact hmore

theorem exists_cons_of_spelled? {inWord : Bool} {layout : Layout} {count : Nat}
    (h : spelled? inWord layout = some count) :
    ∃ gap token rest, layout = (gap, token) :: rest ∧
      Token.nowSpelling? (token :: rest.map Prod.snd) = some count := by
  cases layout with
  | nil => cases h
  | cons item rest =>
      rw [spelled?] at h
      split at h
      · cases h
      · exact ⟨_, _, rest, rfl, h⟩

section Stamp

variable {content : String} {front : List Token} {layout : Layout}

/-- Every token ends before a blank. -/
theorem endsBefore_of_blank (token other : Token) {c : Char} (hc : isAsciiBlank c = true)
    (gap : List Char) (rest : Layout) : token.EndsBefore (text ((c :: gap, other) :: rest)) := by
  rintro _ ⟨⟩
  exact token.continues_delimiters c (Token.mem_delimiters_of_isAsciiBlank hc)

/-- Where texts stay apart, a token that ends before a layout ends before what the replacement makes
of it. -/
theorem endsBefore_putNow {token : Token} (h : Legible layout)
    (hends : token.EndsBefore layout.text ∨ ∃ content, token = .quotedText content)
    (hfront : (∃ content, token = .quotedText content) → Token.endsInText front = true)
    (hapart : textsApart front layout = true) (inWord : Bool) :
    token.EndsBefore (putNow (.quotedText content) inWord layout).text := by
  cases h with
  | nil =>
      rw [putNow, text]
      exact token.endsBefore_nil
  | @cons gap other rest blank lexeme ends tail =>
      cases gap with
      | cons c gap =>
          rw [putNow]
          split
          · exact endsBefore_of_blank _ _ (blank c List.mem_cons_self) _ _
          · exact endsBefore_of_blank _ _ (blank c List.mem_cons_self) _ _
      | nil =>
          -- Before a layout without a blank no text may end if the layout begins with one.
          have hno : Token.beginsInText (other :: rest.map Prod.snd) = true →
              ¬∃ content, token = .quotedText content := by
            intro hbegins htext
            rw [textsApart, hfront htext, hbegins] at hapart
            cases hapart
          rw [putNow]
          split
          · next count hspelled =>
              obtain ⟨_, _, _, heq, hspelling⟩ := exists_cons_of_spelled? hspelled
              cases heq
              rintro c ⟨⟩
              rw [Bool.eq_false_iff]
              intro hcontinues
              exact hno (Token.beginsInText_of_nowSpelling? hspelling)
                (Token.exists_quotedText_of_continues hcontinues)
          · obtain ⟨c, letters, hchars, -, -, -, hquote⟩ := lexeme.first
            rw [text, hchars]
            rintro d ⟨⟩
            rcases hends with hends | ⟨content, rfl⟩
            · refine hends c ?_
              rw [text, hchars]
              rfl
            · have hne : c ≠ '\'' := by
                intro heq
                obtain ⟨content, rfl⟩ := hquote heq
                exact hno rfl ⟨_, rfl⟩
              simpa [Token.continues] using hne

/-- Where texts stay apart, a layout stays legible. -/
theorem legible_putNow (h : Legible layout) (hapart : textsApart front layout = true)
    (inWord : Bool) : Legible (putNow (.quotedText content) inWord layout) := by
  fun_induction putNow (.quotedText content) inWord layout generalizing front with
  | case1 => exact .nil
  | case2 inWord gap token rest count hspelled ih =>
      obtain ⟨_, _, _, heq, hspelling⟩ := exists_cons_of_spelled? hspelled
      cases heq
      cases h with
      | cons blank lexeme ends tail =>
          have hrest := textsApart_drop hapart (count + 1)
          rw [List.map_cons, List.take_succ_cons, List.drop_succ_cons] at hrest
          refine .cons blank (.text content) ?_ (ih (tail.drop count) hrest)
          exact endsBefore_putNow (tail.drop count) (.inr ⟨content, rfl⟩)
            (fun _ => Token.endsInText_append (Token.isText_take hspelling) front) hrest false
  | case3 inWord gap token rest _ ih =>
      cases h with
      | cons blank lexeme ends tail =>
          rw [textsApart, Bool.and_eq_true] at hapart
          refine .cons blank lexeme ?_ (ih tail hapart.2)
          refine endsBefore_putNow tail (.inl ends) ?_ hapart.2 _
          rintro ⟨content, rfl⟩
          exact Token.endsInText_append rfl front

end Stamp

/-- A token that goes on with a letter goes on with a digit. -/
theorem continues_of_isAlpha {token : Token} {c d : Char} (hc : c.isAlpha = true)
    (hd : d.isDigit = true) (h : token.continues c = true) : token.continues d = true := by
  have hother : ∀ e, e.isAlpha = false → (c == e) = false := fun e he => by
    simpa using ne_of_true_of_false hc he
  have hdigit : c.isDigit = false := by
    rw [Bool.eq_false_iff]
    exact fun hdigit => not_isAlpha_of_isDigit hdigit hc
  cases token with
  | word text => exact isAsciiWord_of_isDigit hd
  | quotedName text =>
      rw [Token.continues, hother '"' (by decide)] at h
      cases h
  | quotedText text =>
      rw [Token.continues, hother '\'' (by decide)] at h
      cases h
  | number text =>
      rw [Token.continues, Token.continuesNumber, hdigit, hother '.' (by decide)] at h
      cases h
  | operator symbol =>
      cases symbol <;>
        simp [Token.continues, hother '=' (by decide), hother '>' (by decide)] at h
  | _ => cases h

/-- What a token is taken for. -/
theorem taken_cases (opens : Bool) (token : Token) (rest : Layout) :
    taken opens token rest = token ∨
      opens = true ∧ endsValue rest = true ∧
        (token = .number "0" ∧ taken opens token rest = .word "false" ∨
          token = .number "1" ∧ taken opens token rest = .word "true") := by
  by_cases hdigit : token = .number "0" ∨ token = .number "1"
  · cases hopens : opens with
    | false => exact .inl (taken_eq_self fun _ => .inl rfl)
    | true =>
        cases hends : endsValue rest with
        | false => exact .inl (taken_eq_self fun _ => .inr hends)
        | true =>
            refine .inr ⟨rfl, rfl, ?_⟩
            rw [taken, hends]
            rcases hdigit with rfl | rfl
            · exact .inl ⟨rfl, rfl⟩
            · exact .inr ⟨rfl, rfl⟩
  · exact .inl (taken_eq_self fun h => absurd h hdigit)

/-- A token that ends before a layout ends before it once truth values are words. -/
theorem endsBefore_putFlags {token : Token} {layout : Layout} (h : Legible layout)
    (hends : token.EndsBefore layout.text) (opens : Bool) :
    token.EndsBefore (putFlags opens layout).text := by
  cases h with
  | nil => exact hends
  | @cons gap other rest _ lexeme _ _ =>
      rw [putFlags]
      cases gap with
      | cons c gap => exact hends
      | nil =>
          obtain ⟨c, letters, hchars, -⟩ := lexeme.first
          have hc : token.continues c = false := hends c (by rw [text, hchars]; rfl)
          -- Where a digit was, there may be the first letter of a truth value.
          have hletter : ∀ {d : Char}, c.isDigit = true → d.isAlpha = true →
              token.continues d = false := by
            intro d hdigit halpha
            rw [Bool.eq_false_iff]
            intro hcontinues
            rw [continues_of_isAlpha halpha hdigit hcontinues] at hc
            cases hc
          rcases taken_cases opens other rest with heq | ⟨-, -, ⟨rfl, heq⟩ | ⟨rfl, heq⟩⟩
          · rw [heq, text, hchars]
            rintro _ ⟨⟩
            exact hc
          · cases hchars
            rw [heq]
            rintro _ ⟨⟩
            exact hletter (by decide) (by decide)
          · cases hchars
            rw [heq]
            rintro _ ⟨⟩
            exact hletter (by decide) (by decide)

/-- A word ends where a value may end. -/
theorem endsBefore_of_endsValue {layout : Layout} (h : Legible layout)
    (hends : endsValue layout = true) (word : String) : (Token.word word).EndsBefore layout.text := by
  cases h with
  | nil => exact Token.endsBefore_nil _
  | @cons gap token rest blank _ _ _ =>
      cases gap with
      | cons c gap => exact endsBefore_of_blank _ _ (blank c List.mem_cons_self) _ _
      | nil =>
          rw [endsValue, List.isEmpty_nil, Bool.not_true, Bool.false_and, Bool.or_false] at hends
          cases token with
          | comma | rightParen | semicolon =>
              rintro _ ⟨⟩
              rfl
          | _ => cases hends

/-- A layout stays legible when its truth values become words. -/
theorem legible_putFlags {layout : Layout} (h : Legible layout) (opens : Bool) :
    Legible (putFlags opens layout) := by
  induction h generalizing opens with
  | nil => exact .nil
  | @cons gap token rest blank lexeme ends tail ih =>
      rw [putFlags]
      rcases taken_cases opens token rest with heq | ⟨-, hvalue, ⟨-, heq⟩ | ⟨-, heq⟩⟩
      · rw [heq]
        exact .cons blank lexeme (endsBefore_putFlags tail ends _) (ih _)
      · rw [heq]
        exact .cons blank (.word (by decide))
          (endsBefore_putFlags tail (endsBefore_of_endsValue tail hvalue _) _) (ih _)
      · rw [heq]
        exact .cons blank (.word (by decide))
          (endsBefore_putFlags tail (endsBefore_of_endsValue tail hvalue _) _) (ih _)

end Layout

/-- The tokens of a layout that is normalized. -/
theorem ofText_normalize_append {layout : Layout} {content : String} {after : List Char}
    (h : layout.Legible) (hafter : ∀ c ∈ after, isAsciiBlank c = true)
    (hapart : layout.textsApart [] = true) :
    Token.ofText (Dialect.normalize (String.ofList (Token.quotedText content).chars)
        (String.ofList (layout.text ++ after))) =
      (layout.putNow (.quotedText content) false |>.putFlags false).map Prod.snd := by
  have hstamped : (layout.putNow (.quotedText content) false).Legible :=
    Layout.legible_putNow h hapart false
  rw [Token.ofText, Dialect.normalize, String.toList_ofList, String.toList_ofList,
    String.toList_ofList, normalizeChars, Layout.replaceNow_text h hafter]
  have hword : false = true → beginsValue none = false := fun _ => rfl
  refine (congrArg Token.scan (Layout.replaceFlagsIn_text hstamped hafter hword)).trans ?_
  exact (Layout.legible_putFlags hstamped false).scan_text_append hafter

/-- The tokens of a normalized text. -/
theorem ofText_normalize {text content : String} (hknown : ∀ c, .unknown c ∉ Token.ofText text)
    (hapart : (Layout.ofText text).textsApart [] = true) :
    Token.ofText (Dialect.normalize (String.ofList (Token.quotedText content).chars) text) =
      ((Layout.ofText text).putNow (.quotedText content) false |>.putFlags false).map Prod.snd := by
  obtain ⟨hlegible, after, hafter, happend⟩ := Layout.legible_ofText hknown
  have htext : text = String.ofList ((Layout.ofText text).text ++ after) := by
    rw [happend, String.ofList_toList]
  exact (congrArg _ (congrArg _ htext)).trans (ofText_normalize_append hlegible hafter hapart)

end ClosedSql
