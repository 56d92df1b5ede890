import ClosedSql.Proofs.Dialect.Tokens
import ClosedSql.Proofs.Statement.Forms
import ClosedSql.Statement.Bound

/-!
# Blanks between tokens

Two texts of the same tokens mean the same, however many blanks stand between the tokens. Whether
there are any matters in two places only: before `order` or `limit` after a zero or one, which is
a truth value only if it stands alone, and between texts in quotes and spellings of the current
time, which run together.
-/

namespace ClosedSql

open Text Dialect Statement

/-! ## Spellings of the current time as tokens -/

namespace Token

/-- A property of tokens for which the case of a word makes no difference. -/
def IgnoresCase (p : Token → Bool) : Prop :=
  ∀ text other : String, lower text.toList = lower other.toList → p (word text) = p (word other)

theorem ignoresCase_isKeyword (keyword : String) : IgnoresCase (isKeyword keyword) := by
  intro text other h
  rw [isKeyword, isKeyword, sameIgnoringCase, sameIgnoringCase, h]

theorem ignoresCase_isClosingWord : IgnoresCase isClosingWord := by
  intro text other h
  rw [isClosingWord, isClosingWord, h]

theorem ignoresCase_followsValue : IgnoresCase followsValue := by
  intro text other h
  simp [followsValue, ignoresCase_isKeyword _ text other h]

theorem ignoresCase_weighs : IgnoresCase weighs := by
  intro text other h
  have hblocking : isBlocking (word text) = isBlocking (word other) := by
    simp [isBlocking, blockingWords, ignoresCase_isKeyword _ text other h]
  simp [weighs, hblocking, ignoresCase_isKeyword _ text other h]

section Spelling

variable {token : Token} {rest : List Token} {count : Nat}

/-- What holds of neither of the two words in lower case holds of no word that a spelling begins
with. -/
theorem eq_false_of_nowSpelling? {p : Token → Bool} (hp : IgnoresCase p)
    (hstamp : p (word "current_timestamp") = false) (hcall : p (word "datetime") = false)
    (h : nowSpelling? (token :: rest) = some count) : p token = false := by
  obtain ⟨text, rfl⟩ := exists_word_of_nowSpelling? h
  rw [nowSpelling?] at h
  split at h
  · next hlower => exact (hp text _ (hlower.trans (by decide))).trans hstamp
  · split at h
    · next hlower => exact (hp text _ (hlower.trans (by decide))).trans hcall
    · cases h

/-- What belongs to a call does not weigh. -/
theorem not_weighs_callTail? {tokens : List Token} (h : callTail? tokens = some count) :
    ∀ token ∈ tokens.take count, weighs token = false := by
  fun_induction callTail? tokens generalizing count with
  | case1 rest =>
      cases h
      exact List.forall_mem_singleton.2 (by decide)
  | case2 modifier rest _ ih =>
      obtain ⟨inner, hinner, rfl⟩ := Option.map_eq_some_iff.1 h
      rw [List.take_succ_cons, List.take_succ_cons, List.forall_mem_cons, List.forall_mem_cons]
      exact ⟨rfl, rfl, ih hinner⟩
  | case3 => cases h
  | case4 => cases h

/-- No token of a spelling matters for the end of a count. -/
theorem not_weighs_nowSpelling? (h : nowSpelling? (token :: rest) = some count) :
    ∀ other ∈ token :: rest.take count, weighs other = false := by
  have hword := eq_false_of_nowSpelling? ignoresCase_weighs (by decide) (by decide) h
  refine List.forall_mem_cons.2 ⟨hword, ?_⟩
  obtain ⟨text, rfl⟩ := exists_word_of_nowSpelling? h
  rw [nowSpelling?] at h
  split at h
  · cases h
    exact List.forall_mem_nil _
  split at h
  · fun_cases callArguments? rest with
    | case1 instant rest hinstant =>
        rw [callArguments?, if_pos hinstant] at h
        obtain ⟨inner, hinner, rfl⟩ := Option.map_eq_some_iff.1 h
        rw [List.take_succ_cons, List.take_succ_cons, List.forall_mem_cons, List.forall_mem_cons]
        exact ⟨rfl, rfl, not_weighs_callTail? hinner⟩
    | case2 instant rest hinstant =>
        rw [callArguments?, if_neg hinstant] at h
        cases h
    | case3 tokens hcall =>
        rw [callArguments?.eq_def] at h
        split at h
        · exact absurd rfl (hcall _ _)
        · cases h
  · cases h

end Spelling

/-- Where a word stands directly against the token before it, that token is a number if it ends in
a word as well. -/
theorem exists_number_of_endsInWord {token : Token} (h : Lexeme token)
    (hword : token.endsInWord = true) {c : Char} (hc : isAsciiWord c = true)
    (hends : token.continues c = false) : ∃ text, token = .number text := by
  cases h with
  | number _ => exact ⟨_, rfl⟩
  | word _ => exact absurd hc (Bool.eq_false_iff.1 hends)
  | name content =>
      rw [endsInWord, chars, getLast?_enquote] at hword
      exact absurd hword (by decide)
  | text content =>
      rw [endsInWord, chars, getLast?_enquote] at hword
      exact absurd hword (by decide)
  | operator symbol => cases symbol <;> exact absurd hword (by decide)
  | mark isMark =>
      obtain ⟨d, hchars, -, hd⟩ := exists_of_isMark isMark
      have hsigns : ∀ d ∈ signs, isWord d = false := by decide
      rw [endsInWord, hchars] at hword
      exact absurd hword (Bool.eq_false_iff.1 (hsigns d hd))

end Token

/-! ## Normalized layouts -/

namespace Layout

/-- A layout with both kinds of dialect literals replaced. -/
def normal (content : String) (opens inWord : Bool) (layout : Layout) : Layout :=
  putFlags opens (putNow (.quotedText content) inWord layout)

section Normal

variable {content : String} {opens inWord : Bool} {gap : List Char} {token : Token}
  {layout rest : Layout} {count : Nat}

/-- No value ends before a spelling of the current time. -/
theorem endsValue_of_nowSpelling? (h : Token.nowSpelling? (layout.map Prod.snd) = some count) :
    endsValue layout = false := by
  cases layout with
  | nil => cases h
  | cons item rest =>
      obtain ⟨gap, token⟩ := item
      have hclosing := Token.eq_false_of_nowSpelling? Token.ignoresCase_isClosingWord
        (by decide) (by decide) h
      obtain ⟨word, rfl⟩ := Token.exists_word_of_nowSpelling? h
      rw [endsValue, hclosing, Bool.and_false]
      rfl

/-- A stamp does not change whether a value ends. -/
theorem endsValue_putNow (layout : Layout) :
    endsValue (putNow (.quotedText content) inWord layout) = endsValue layout := by
  cases layout with
  | nil => rw [putNow]
  | cons item rest =>
      obtain ⟨gap, token⟩ := item
      rw [putNow]
      split
      · next count hspelled =>
          obtain ⟨_, _, _, heq, hspelling⟩ := exists_cons_of_spelled? hspelled
          cases heq
          refine Eq.trans ?_ (endsValue_of_nowSpelling? (by exact hspelling)).symm
          exact Bool.and_false _
      · rfl

theorem taken_congr {other : Layout} (h : endsValue rest = endsValue other) :
    taken opens token rest = taken opens token other := by
  rw [taken, taken, h]

theorem opensValue_quotedText : (Token.quotedText content).opensValue = false := by
  rw [Token.opensValue, Token.chars, getLast?_enquote]
  rfl

theorem normal_nil : normal content opens inWord [] = [] := by
  rw [normal, putNow, putFlags]

/-- A spelling of the current time becomes a text in quotes. -/
theorem normal_of_spelled (h : spelled? inWord ((gap, token) :: rest) = some count) :
    normal content opens inWord ((gap, token) :: rest) =
      (gap, .quotedText content) :: normal content false false (rest.drop count) := by
  rw [normal, putNow, h]
  dsimp only
  rw [putFlags, taken_eq_self (by simp), opensValue_quotedText, normal]

/-- A token that begins no spelling is kept or taken for a truth value. -/
theorem normal_of_kept (h : spelled? inWord ((gap, token) :: rest) = none) :
    normal content opens inWord ((gap, token) :: rest) =
      (gap, taken opens token rest) ::
        normal content token.opensValue token.endsInWord rest := by
  rw [normal, putNow, h]
  dsimp only
  rw [putFlags, taken_congr (endsValue_putNow rest), normal]

theorem tokens_normal_eq_nil_iff :
    (normal content opens inWord layout).map Prod.snd = [] ↔ layout.map Prod.snd = [] := by
  cases layout with
  | nil => rw [normal_nil]
  | cons item rest =>
      obtain ⟨gap, token⟩ := item
      cases hspelled : spelled? inWord ((gap, token) :: rest) with
      | some count => rw [normal_of_spelled hspelled]; simp
      | none => rw [normal_of_kept hspelled]; simp

/-- A word is never a truth value. -/
theorem taken_word (word : String) : taken opens (.word word) rest = .word word :=
  taken_eq_self (by simp)

/-- The end of a count is judged by tokens that are not replaced. -/
theorem gist_normal (opens : Bool) (layout : Layout) :
    gist ((normal content opens inWord layout).map Prod.snd) = gist (layout.map Prod.snd) := by
  fun_induction putNow (.quotedText content) inWord layout generalizing opens with
  | case1 => rw [normal_nil]
  | case2 inWord gap token rest count hspelled ih =>
      obtain ⟨_, _, _, heq, hspelling⟩ := exists_cons_of_spelled? hspelled
      cases heq
      have hcut : ((gap, token) :: rest).map Prod.snd =
          (token :: (rest.map Prod.snd).take count) ++ (rest.drop count).map Prod.snd := by
        rw [List.map_drop, List.cons_append, List.take_append_drop, List.map_cons]
      rw [normal_of_spelled hspelled, hcut, List.map_cons, gist_cons_of_not_weighs rfl, ih,
        gist_append_of_not_weighs (Token.not_weighs_nowSpelling? hspelling)]
  | case3 inWord gap token rest hspelled ih =>
      rw [normal_of_kept hspelled, List.map_cons, List.map_cons]
      rcases taken_cases opens token rest with heq | ⟨-, -, ⟨rfl, heq⟩ | ⟨rfl, heq⟩⟩
      · rw [heq]
        exact gist_cons_congr token tokens_normal_eq_nil_iff (ih _)
      · have hfalse : weighs (.word "false") = false := by decide
        rw [heq, gist_cons_of_not_weighs hfalse, gist_cons_of_not_weighs rfl, ih]
      · have htrue : weighs (.word "true") = false := by decide
        rw [heq, gist_cons_of_not_weighs htrue, gist_cons_of_not_weighs rfl, ih]

/-- No statement goes on after a value with a spelling of the current time, whether it is replaced
or not. -/
theorem blocked_of_nowSpelling? (content : String) (opens inWord : Bool)
    (h : Token.nowSpelling? (layout.map Prod.snd) = some count) :
    Blocked ((normal content opens inWord layout).map Prod.snd) ∧
      (startsWith "and" ((normal content opens inWord layout).map Prod.snd) ||
        startsWith "or" ((normal content opens inWord layout).map Prod.snd)) = false := by
  cases layout with
  | nil => cases h
  | cons item rest =>
      obtain ⟨gap, token⟩ := item
      cases hspelled : spelled? inWord ((gap, token) :: rest) with
      | some taken =>
          rw [normal_of_spelled hspelled]
          exact ⟨.head _ rfl, rfl⟩
      | none =>
          have hfollows := Token.eq_false_of_nowSpelling? Token.ignoresCase_followsValue
            (by decide) (by decide) h
          have hand := Token.eq_false_of_nowSpelling? (Token.ignoresCase_isKeyword "and")
            (by decide) (by decide) h
          have hor := Token.eq_false_of_nowSpelling? (Token.ignoresCase_isKeyword "or")
            (by decide) (by decide) h
          obtain ⟨word, rfl⟩ := Token.exists_word_of_nowSpelling? h
          rw [normal_of_kept hspelled, taken_word]
          exact ⟨.head _ hfollows, by rw [List.map_cons, startsWith, startsWith, hand, hor]; rfl⟩

end Normal

/-! ## Two layouts of the same tokens -/

def touches : Layout → Bool
  | [] => false
  | (gap, _) :: _ => gap.isEmpty

def beginsClause : Layout → Bool
  | [] => false
  | (_, token) :: _ => token.isKeyword "order" || token.isKeyword "limit"

/-- Whether two layouts of the same tokens agree on the blanks between a zero or one where a value
may begin and a clause that follows it. -/
def clausesAlike (opens : Bool) : Layout → Layout → Bool
  | (_, token) :: rest, _ :: others =>
      (!(opens && token.flag?.isSome && beginsClause rest) || touches rest == touches others) &&
        clausesAlike token.opensValue rest others
  | _, _ => true

section Two

variable {content : String} {opens inWord : Bool} {gap between : List Char} {token : Token}
  {left right rest others : Layout} {count : Nat}

theorem clausesAlike_false (h : clausesAlike opens left right = true) :
    clausesAlike false left right = true := by
  cases left with
  | nil => rfl
  | cons item rest =>
      cases right with
      | nil => rfl
      | cons other others =>
          rw [clausesAlike, Bool.and_eq_true] at h
          rw [clausesAlike, h.2]
          rfl

theorem clausesAlike_drop (h : clausesAlike opens left right = true) (count : Nat) :
    clausesAlike false (left.drop count) (right.drop count) = true := by
  induction count generalizing opens left right with
  | zero => exact clausesAlike_false h
  | succ count ih =>
      cases left with
      | nil => rw [List.drop_nil, clausesAlike]; rintro _ _ _ _ _ ⟨⟩
      | cons item rest =>
          cases right with
          | nil => rw [List.drop_nil, clausesAlike]; rintro _ _ _ _ _ _ ⟨⟩
          | cons other others =>
              rw [clausesAlike, Bool.and_eq_true] at h
              exact ih h.2

/-! ### Where the current time is spelled in one of them -/

/-- A spelling begins where no word goes on. -/
theorem spelled?_eq (inWord : Bool) (layout : Layout) :
    spelled? inWord layout =
      if inWord && touches layout then none else Token.nowSpelling? (layout.map Prod.snd) := by
  cases layout with
  | nil => rw [touches, Bool.and_false]; rfl
  | cons item rest => rfl

/-- A spelling directly behind a token that ends in a word stands behind a number. -/
theorem exists_number_of_touches (h : Legible ((gap, token) :: rest))
    (hword : token.endsInWord = true) (htouches : touches rest = true)
    (hspelling : Token.nowSpelling? (rest.map Prod.snd) = some count) :
    ∃ text, token = .number text := by
  cases h with
  | cons _ lexeme ends tail =>
      cases tail with
      | nil => cases htouches
      | @cons between other others _ next _ _ =>
          obtain rfl : between = [] := List.isEmpty_iff.1 htouches
          obtain ⟨word, rfl⟩ := Token.exists_word_of_nowSpelling? hspelling
          obtain ⟨c, letters, hchars, hc, -⟩ := Token.exists_cons_of_isIdentifier next.isIdentifier
          refine Token.exists_number_of_endsInWord lexeme hword hc.isAsciiWord (ends c ?_)
          rw [text, Token.chars, hchars]
          rfl

/-- Where blanks decide on a spelling a number stands before it. -/
theorem exists_number_of_spelled?_ne (hleft : Legible ((gap, token) :: rest))
    (hright : Legible ((between, token) :: others))
    (hsame : rest.map Prod.snd = others.map Prod.snd)
    (hne : spelled? token.endsInWord rest ≠ spelled? token.endsInWord others) :
    (∃ text, token = .number text) ∧ ∃ count, Token.nowSpelling? (rest.map Prod.snd) = some count := by
  rw [spelled?_eq, spelled?_eq, ← hsame] at hne
  cases hspelling : Token.nowSpelling? (rest.map Prod.snd) with
  | none =>
      rw [hspelling, ite_self, ite_self] at hne
      exact absurd rfl hne
  | some count =>
      refine ⟨?_, count, rfl⟩
      by_cases hrest : (token.endsInWord && touches rest) = true
      · rw [Bool.and_eq_true] at hrest
        exact exists_number_of_touches hleft hrest.1 hrest.2 hspelling
      · by_cases hothers : (token.endsInWord && touches others) = true
        · rw [Bool.and_eq_true] at hothers
          exact exists_number_of_touches hright hothers.1 hothers.2 (hsame ▸ hspelling)
        · rw [if_neg hrest, if_neg hothers] at hne
          exact absurd rfl hne

/-- A statement that goes on with a spelling of the current time after a value is stuck, whether or
not the blanks let the spelling be replaced. -/
theorem stuck_of_nowSpelling? (opens inWord : Bool)
    (hsame : left.map Prod.snd = right.map Prod.snd)
    (hspelling : Token.nowSpelling? (left.map Prod.snd) = some count) :
    Stuck ((normal content opens inWord left).map Prod.snd)
      ((normal content opens inWord right).map Prod.snd) := by
  have hleft := blocked_of_nowSpelling? content opens inWord hspelling
  have hright := blocked_of_nowSpelling? content opens inWord (hsame ▸ hspelling)
  exact ⟨hleft.1, hright.1, hleft.2.trans hright.2.symm,
    by rw [gist_normal, gist_normal, hsame]⟩

/-! ### Where a value ends in one of them -/

/-- Where blanks decide on the end of a value, a closing word follows that touches it in one of the
two layouts. -/
theorem exists_word_of_endsValue_ne (hsame : rest.map Prod.snd = others.map Prod.snd)
    (hne : endsValue rest ≠ endsValue others) :
    ∃ gap between word tail more, rest = (gap, .word word) :: tail ∧
      others = (between, .word word) :: more ∧ (Token.word word).isClosingWord = true ∧
        touches rest ≠ touches others := by
  cases rest with
  | nil =>
      rw [List.map_nil, eq_comm, List.map_eq_nil_iff] at hsame
      exact absurd (by rw [hsame]) hne
  | cons item tail =>
      obtain ⟨gap, token⟩ := item
      obtain ⟨⟨between, other⟩, more, rfl, rfl, -⟩ := List.map_eq_cons_iff.1 hsame.symm
      rw [endsValue, endsValue] at hne
      cases other with
      | word word =>
          cases hclosing : (Token.word word).isClosingWord with
          | false => rw [hclosing] at hne; simp at hne
          | true =>
              refine ⟨gap, between, word, tail, more, rfl, rfl, hclosing, fun htouches => hne ?_⟩
              rw [touches, touches] at htouches
              rw [htouches]
      | _ => simp [Token.isClosingWord] at hne

theorem not_followsValue_of_isClosingWord {word : String}
    (h : (Token.word word).isClosingWord = true)
    (hclause : ((Token.word word).isKeyword "order" || (Token.word word).isKeyword "limit") = false) :
    followsValue (.word word) = false := by
  have hclosing : lower word.toList ∈ closingWords := List.contains_iff_mem.1 h
  have hsame : ∀ {p : Token → Bool}, Token.IgnoresCase p → ∀ other : String,
      lower word.toList = other.toList → lower other.toList = other.toList →
        p (.word word) = p (.word other) :=
    fun hp other hword hother => hp word other (hword.trans hother.symm)
  simp only [closingWords, List.mem_cons, List.not_mem_nil, or_false] at hclosing
  rw [Bool.or_eq_false_iff] at hclause
  rcases hclosing with hand | hor | horder | hlimit | hgroup
  · exact (hsame Token.ignoresCase_followsValue "and" hand (by decide)).trans (by decide)
  · exact (hsame Token.ignoresCase_followsValue "or" hor (by decide)).trans (by decide)
  · rw [hsame (Token.ignoresCase_isKeyword "order") "order" horder (by decide)] at hclause
    exact absurd hclause.1 (by decide)
  · rw [hsame (Token.ignoresCase_isKeyword "limit") "limit" hlimit (by decide)] at hclause
    exact absurd hclause.2 (by decide)
  · exact (hsame Token.ignoresCase_followsValue "group" hgroup (by decide)).trans (by decide)

/-- Where a value ends in one layout only, no clause follows that could. -/
theorem stuck_of_endsValue_ne (opens inWord : Bool)
    (hsame : rest.map Prod.snd = others.map Prod.snd) (hne : endsValue rest ≠ endsValue others)
    (hclause : beginsClause rest = true → touches rest = touches others) :
    Stuck ((normal content opens inWord rest).map Prod.snd)
      ((normal content opens inWord others).map Prod.snd) := by
  have hgist : gist ((normal content opens inWord rest).map Prod.snd) =
      gist ((normal content opens inWord others).map Prod.snd) := by
    rw [gist_normal, gist_normal, hsame]
  obtain ⟨gap, between, word, tail, more, rfl, rfl, hclosing, htouches⟩ :=
    exists_word_of_endsValue_ne hsame hne
  have hfollows := not_followsValue_of_isClosingWord hclosing
    (Bool.eq_false_iff.2 fun h => htouches (hclause h))
  have hkept : ∀ gap rest, spelled? inWord ((gap, .word word) :: rest) = none := by
    intro gap rest
    cases hspelled : spelled? inWord ((gap, .word word) :: rest) with
    | none => rfl
    | some count =>
        obtain ⟨_, _, _, heq, hspelling⟩ := exists_cons_of_spelled? hspelled
        cases heq
        have hopen := Token.eq_false_of_nowSpelling? Token.ignoresCase_isClosingWord
          (by decide) (by decide) hspelling
        exact absurd hclosing (Bool.eq_false_iff.1 hopen)
  rw [normal_of_kept (hkept gap tail), normal_of_kept (hkept between more), taken_word, taken_word]
    at hgist ⊢
  exact ⟨.head _ hfollows, .head _ hfollows, rfl, hgist⟩

theorem isFlag_taken (h : token = .number "0" ∨ token = .number "1") (opens : Bool)
    (rest : Layout) : IsFlag (taken opens token rest) := by
  rcases taken_cases opens token rest with heq | ⟨-, -, ⟨-, heq⟩ | ⟨-, heq⟩⟩
  · rcases h with rfl | rfl
    · rw [heq]; simp [IsFlag]
    · rw [heq]; simp [IsFlag]
  · rw [heq]; simp [IsFlag]
  · rw [heq]; simp [IsFlag]

/-- Only a zero or one is taken for one thing or another, by where a value ends. -/
theorem values_of_taken_ne (hne : taken opens token rest ≠ taken opens token others) :
    Values (taken opens token rest) (taken opens token others) ∧ opens = true ∧
      token.flag?.isSome = true ∧ endsValue rest ≠ endsValue others := by
  have hdigit : token = .number "0" ∨ token = .number "1" := by
    by_cases hdigit : token = .number "0" ∨ token = .number "1"
    · exact hdigit
    · have hkept : ∀ rest, taken opens token rest = token := fun rest =>
        taken_eq_self fun h => absurd h hdigit
      exact absurd ((hkept rest).trans (hkept others).symm) hne
  refine ⟨.flags (isFlag_taken hdigit _ _) (isFlag_taken hdigit _ _), ?_, ?_,
    fun hends => hne (taken_congr hends)⟩
  · cases opens with
    | true => rfl
    | false => exact absurd rfl hne
  · rcases hdigit with rfl | rfl
    · rfl
    · rfl

/-- Layouts of the same tokens part after a value at most. -/
theorem parted_normal (hleft : Legible left) (hright : Legible right)
    (hsame : left.map Prod.snd = right.map Prod.snd)
    (hspelled : spelled? inWord left = spelled? inWord right)
    (hclauses : clausesAlike opens left right = true) :
    Parted ((normal content opens inWord left).map Prod.snd)
      ((normal content opens inWord right).map Prod.snd) := by
  -- Both layouts are replaced in step; where they would part, they are stuck behind a value.
  fun_induction putNow (.quotedText content) inWord left generalizing opens right with
  | case1 =>
      rw [List.map_nil, eq_comm, List.map_eq_nil_iff] at hsame
      rw [hsame, normal_nil]
      exact .nil
  | case2 inWord gap token rest count hhere ih =>
      obtain ⟨⟨between, token⟩, others, rfl, rfl, hothers⟩ := List.map_eq_cons_iff.1 hsame.symm
      have hdrop : (rest.drop count).map Prod.snd = (others.drop count).map Prod.snd := by
        rw [List.map_drop, List.map_drop, hothers]
      rw [normal_of_spelled hhere, normal_of_spelled (hspelled.symm.trans hhere), List.map_cons,
        List.map_cons]
      refine .cons _ (ih (hleft.tail.drop count) (hright.tail.drop count) hdrop ?_ ?_)
      · rw [spelled?_eq, spelled?_eq, hdrop]
        rfl
      · exact clausesAlike_drop hclauses (count + 1)
  | case3 inWord gap token rest hhere ih =>
      obtain ⟨⟨between, token⟩, others, rfl, rfl, hothers⟩ := List.map_eq_cons_iff.1 hsame.symm
      rw [normal_of_kept hhere, normal_of_kept (hspelled.symm.trans hhere), List.map_cons,
        List.map_cons]
      rw [clausesAlike, Bool.and_eq_true] at hclauses
      by_cases hnext : spelled? token.endsInWord rest = spelled? token.endsInWord others
      · by_cases htaken : taken opens token rest = taken opens token others
        · rw [htaken]
          exact .cons _ (ih hleft.tail hright.tail hothers.symm hnext hclauses.2)
        · obtain ⟨hvalues, hopens, hflag, hends⟩ := values_of_taken_ne htaken
          refine .value hvalues (stuck_of_endsValue_ne _ _ hothers.symm hends fun hclause => ?_)
          rw [hopens, hflag, hclause] at hclauses
          exact beq_iff_eq.1 hclauses.1
      · -- The spelling stands directly behind a number in one of the two.
        obtain ⟨⟨number, rfl⟩, count, hspelling⟩ :=
          exists_number_of_spelled?_ne hleft hright hothers.symm hnext
        have hkept : ∀ layout : Layout, Token.nowSpelling? (layout.map Prod.snd) = some count →
            taken opens (.number number) layout = .number number :=
          fun layout h => taken_eq_self fun _ => .inr (endsValue_of_nowSpelling? h)
        dsimp only
        rw [hkept rest hspelling, hkept others (hothers ▸ hspelling)]
        exact .value (.number number) (stuck_of_nowSpelling? _ _ hothers.symm hspelling)

end Two

end Layout

/-- Texts with the same known tokens are bound alike, if they agree on the blanks between a zero or
one and the clause that follows it, and if nothing runs together with the current time. -/
theorem Config.bind_congr_of_tokens {left right : String}
    (htokens : Token.ofText left = Token.ofText right)
    (hknown : ∀ c, .unknown c ∉ Token.ofText left)
    (hleft : (Layout.ofText left).textsApart [] = true)
    (hright : (Layout.ofText right).textsApart [] = true)
    (hclauses : (Layout.ofText left).clausesAlike false (Layout.ofText right) = true)
    (params : List Value) :
    ({} : Config).bind left params = ({} : Config).bind right params := by
  have hstamp : ({} : Config).nowLiteral = String.ofList (Token.quotedText "now()").chars := by
    decide
  have hknown' : ∀ c, .unknown c ∉ Token.ofText right := htokens ▸ hknown
  have hsame : (Layout.ofText left).map Prod.snd = (Layout.ofText right).map Prod.snd := by
    rw [Layout.map_snd_ofText, Layout.map_snd_ofText, htokens]
  have hspelled : Layout.spelled? false (Layout.ofText left) =
      Layout.spelled? false (Layout.ofText right) := by
    rw [Layout.spelled?_eq, Layout.spelled?_eq, hsame]
    rfl
  have hread : Statement.ofText (({} : Config).normalize left) =
      Statement.ofText (({} : Config).normalize right) := by
    rw [Config.normalize, Config.normalize, hstamp, Statement.ofText, Statement.ofText,
      ofText_normalize hknown hleft, ofText_normalize hknown' hright]
    exact ofTokens_congr (Layout.parted_normal (Layout.legible_ofText hknown).1
      (Layout.legible_ofText hknown').1 hsame hspelled hclauses)
  rw [Config.bind, Config.bind, hread]

theorem Config.bind_congr_of_tokens_respaced :
    Token.ofText "UPDATE t SET a=1,b = CURRENT_TIMESTAMP WHERE c='x'" =
        Token.ofText " UPDATE t SET a = 1 ,b=CURRENT_TIMESTAMP\nWHERE c = 'x' " ∧
      ∃ bound,
        ({} : Config).bind "UPDATE t SET a=1,b = CURRENT_TIMESTAMP WHERE c='x'" [] = .ok bound ∧
          ({} : Config).bind " UPDATE t SET a = 1 ,b=CURRENT_TIMESTAMP\nWHERE c = 'x' " [] =
            .ok bound := by
  have htokens : Token.ofText "UPDATE t SET a=1,b = CURRENT_TIMESTAMP WHERE c='x'" =
      Token.ofText " UPDATE t SET a = 1 ,b=CURRENT_TIMESTAMP\nWHERE c = 'x' " := by
    decide +kernel
  have hread : Token.ofText "UPDATE t SET a=1,b = CURRENT_TIMESTAMP WHERE c='x'" =
      [.word "UPDATE", .word "t", .word "SET", .word "a", .operator .equals, .number "1", .comma,
        .word "b", .operator .equals, .word "CURRENT_TIMESTAMP", .word "WHERE", .word "c",
        .operator .equals, .quotedText "x"] := by
    decide +kernel
  have hknown : ∀ c, .unknown c ∉
      Token.ofText "UPDATE t SET a=1,b = CURRENT_TIMESTAMP WHERE c='x'" := by
    rw [hread]
    simp
  have hbinds : (({} : Config).bind "UPDATE t SET a=1,b = CURRENT_TIMESTAMP WHERE c='x'"
      []).isOk = true := by
    decide +kernel
  have hsame := Config.bind_congr_of_tokens htokens hknown (by decide +kernel) (by decide +kernel)
    (by decide +kernel) []
  refine ⟨htokens, ?_⟩
  rw [← hsame]
  cases hbind : ({} : Config).bind "UPDATE t SET a=1,b = CURRENT_TIMESTAMP WHERE c='x'" [] with
  | error reason =>
      rw [hbind] at hbinds
      cases hbinds
  | ok bound => exact ⟨bound, rfl, rfl⟩

/-- With no blank between them, a one before `order` is a number; otherwise it is a truth value. -/
theorem Config.bind_ne_of_clause_behind_flag :
    ¬∀ left right : String, Token.ofText left = Token.ofText right →
      (∀ c, .unknown c ∉ Token.ofText left) → ∀ params : List Value,
        ({} : Config).bind left params = ({} : Config).bind right params := by
  intro hall
  have htokens : Token.ofText "SELECT * FROM t WHERE a = 1 ORDER BY b" =
      Token.ofText "SELECT * FROM t WHERE a = 1ORDER BY b" := by
    decide +kernel
  have hread : Token.ofText "SELECT * FROM t WHERE a = 1 ORDER BY b" =
      [.word "SELECT", .star, .word "FROM", .word "t", .word "WHERE", .word "a", .operator .equals,
        .number "1", .word "ORDER", .word "BY", .word "b"] := by
    decide +kernel
  have hspaced : (({} : Config).bind "SELECT * FROM t WHERE a = 1 ORDER BY b" []).toOption.map
      BoundStatement.filter? = some (some ⟨"a", .eq, .bool true⟩) := by
    decide +kernel
  have hglued : (({} : Config).bind "SELECT * FROM t WHERE a = 1ORDER BY b" []).toOption.map
      BoundStatement.filter? = some (some ⟨"a", .eq, .int 1⟩) := by
    decide +kernel
  have hknown : ∀ c, .unknown c ∉ Token.ofText "SELECT * FROM t WHERE a = 1 ORDER BY b" := by
    rw [hread]
    simp
  rw [hall _ _ htokens hknown [], hglued] at hspaced
  exact absurd hspaced (by decide)

/-- With no blank between them, a text and the current time run together to a longer text. -/
example :
    (({} : Config).bind "DELETE FROM t WHERE a='x' CURRENT_TIMESTAMP" []).isOk = false ∧
      (({} : Config).bind "DELETE FROM t WHERE a='x'CURRENT_TIMESTAMP" []).isOk = true := by
  decide +kernel

end ClosedSql
