import ClosedSql.Proofs.Statement.Terms

/-!
# Statements that part after a value

After a value a statement can go on with a few tokens only. Where something else stands it is not
read, whatever the value was, and why it is not read depends on no more than the tokens by which the
condition of a count is judged. So two statements that are the same up to a value, and stuck behind
it, are read alike.
-/

namespace ClosedSql.Statement

/-- Whether a statement can go on with a token after a value. -/
def followsValue (token : Token) : Bool :=
  token = .comma || token = .rightParen || token = .semicolon || token.isKeyword "where" ||
    token.isKeyword "order" || token.isKeyword "limit"

/-- Whether the condition of a count is judged by a token. -/
def weighs (token : Token) : Bool :=
  token = .placeholder || isBlocking token || token.isKeyword "and" || token.isKeyword "or"

/-- What the condition of a count is judged by. -/
def gist (tokens : List Token) : List Token :=
  (dropSemicolon tokens).filter weighs

/-- Tokens that a statement cannot go on with after a value. -/
inductive Blocked : List Token → Prop
  | head {token : Token} (rest : List Token) (blocks : followsValue token = false) :
      Blocked (token :: rest)

/-- Two ways of going on after a value that are read in neither case, for the same reason. -/
structure Stuck (left right : List Token) : Prop where
  first : Blocked left
  second : Blocked right
  joins : (startsWith "and" left || startsWith "or" left) =
    (startsWith "and" right || startsWith "or" right)
  gist : gist left = gist right

def IsFlag (token : Token) : Prop :=
  token ∈ [.number "0", .number "1", .word "true", .word "false"]

/-- Two values that are both read, or the same number. -/
inductive Values : Token → Token → Prop
  | number (text : String) : Values (.number text) (.number text)
  | flags {first second : Token} (left : IsFlag first) (right : IsFlag second) :
      Values first second

/-- Statements that are the same, or the same up to a value behind which both are stuck. -/
inductive Parted : List Token → List Token → Prop
  | nil : Parted [] []
  | cons (token : Token) {left right : List Token} (tail : Parted left right) :
      Parted (token :: left) (token :: right)
  | value {first second : Token} {left right : List Token} (values : Values first second)
      (stuck : Stuck left right) : Parted (first :: left) (second :: right)

/-! ## Values -/

def keywords : List String :=
  ["select", "insert", "update", "delete", "count", "into", "values", "set", "where", "from", "and",
    "or", "order", "by", "desc", "asc", "limit", "as"] ++ blockingWords

inductive IsValue : Token → Prop
  | number (text : String) : IsValue (.number text)
  | flag {token : Token} (flag : IsFlag token) : IsValue token

theorem Values.isValue {first second : Token} (h : Values first second) :
    IsValue first ∧ IsValue second := by
  cases h with
  | number text => exact ⟨.number text, .number text⟩
  | flags left right => exact ⟨.flag left, .flag right⟩

theorem IsFlag.cases {token : Token} (h : IsFlag token) :
    (token = .number "0" ∨ token = .number "1") ∨ token = .word "true" ∨ token = .word "false" := by
  simp only [IsFlag, List.mem_cons, List.not_mem_nil, or_false] at h
  rwa [← or_assoc] at h

theorem IsValue.cases {token : Token} (h : IsValue token) :
    (∃ text, token = .number text) ∨ token = .word "true" ∨ token = .word "false" := by
  cases h with
  | number text => exact .inl ⟨text, rfl⟩
  | flag flag =>
      rcases flag.cases with (rfl | rfl) | h
      · exact .inl ⟨_, rfl⟩
      · exact .inl ⟨_, rfl⟩
      · exact .inr h

section Value

variable {token : Token} (h : IsValue token)

include h

theorem IsValue.isKeyword {text : String} (htext : text ∈ keywords) :
    token.isKeyword text = false := by
  have hwords : ∀ text ∈ keywords, (Token.word "true").isKeyword text = false ∧
      (Token.word "false").isKeyword text = false := by
    decide
  rcases h.cases with ⟨number, rfl⟩ | rfl | rfl
  · rfl
  · exact (hwords text htext).1
  · exact (hwords text htext).2

theorem IsValue.name? : name? token = none := by
  rcases h.cases with ⟨number, rfl⟩ | rfl | rfl
  · rfl
  · decide
  · decide

theorem IsValue.ne {other : Token} (hmark : ∀ text, other ≠ .word text ∧ other ≠ .number text) :
    token ≠ other := by
  rcases h.cases with ⟨number, rfl⟩ | rfl | rfl
  · exact (hmark _).2.symm
  · exact (hmark _).1.symm
  · exact (hmark _).1.symm

theorem IsValue.weighs : weighs token = false := by
  rcases h.cases with ⟨number, rfl⟩ | rfl | rfl
  · rfl
  · decide
  · decide

end Value

/-! ## Outcomes -/

section Alike

variable {α β : Type}

/-- Readings with the same reason, or with related results. -/
inductive Alike (related : α → α → Prop) : Except Reason α → Except Reason α → Prop
  | failed (reason : Reason) : Alike related (.error reason) (.error reason)
  | read {first second : α} (results : related first second) :
      Alike related (.ok first) (.ok second)

variable {related : α → α → Prop} {results : β → β → Prop} {left right : Except Reason α}
  {next other : α → Except Reason β}

/-- Readings that are alike go on alike. -/
theorem Alike.bind (h : Alike related left right)
    (hnext : ∀ first second, left = .ok first → related first second →
      Alike results (next first) (other second)) :
    Alike results (left >>= next) (right >>= other) := by
  cases h with
  | failed reason => exact .failed reason
  | read related => exact hnext _ _ rfl related

/-- Readings that are alike without anything between them are equal. -/
theorem Alike.eq {left right : Except Reason α} (h : Alike Eq left right) : left = right := by
  cases h with
  | failed reason => rfl
  | read results => rw [results]

/-- The same result, with tokens left over that are read alike. -/
def Ahead (first second : α × List Token) : Prop :=
  first.1 = second.1 ∧ Parted first.2 second.2

/-- The same result with tokens left over that are read alike, or related results behind which both
are stuck. -/
def Past (related : α → α → Prop) (first second : α × List Token) : Prop :=
  Ahead first second ∨ related first.1 second.1 ∧ Stuck first.2 second.2

end Alike

/-! ## Lists as sequences of readers -/

section Lists

variable {tokens : List Token}

theorem moreNames_comma (names : List String) (rest : List Token) :
    moreNames names (.comma :: rest) = name rest >>= fun found =>
      if names.contains found.1 then .error .notRecognized
      else moreNames (names ++ [found.1]) found.2 := by
  cases rest with
  | nil => rfl
  | cons token rest =>
      rw [moreNames, name]
      split
      · rfl
      · rfl

theorem moreNames_of_ne (names : List String) (h : ∀ rest, tokens ≠ .comma :: rest) :
    moreNames names tokens = .ok (names, tokens) := by
  cases tokens with
  | nil => rfl
  | cons token rest =>
      rw [moreNames]
      · exact fun _ _ heq => h _ heq
      · exact fun heq => h _ heq

theorem moreOperands_comma (rest : List Token) :
    moreOperands (.comma :: rest) = operand rest >>= fun found =>
      moreOperands found.2 >>= fun others => .ok (found.1 :: others.1, others.2) := by
  rw [moreOperands]
  split
  · next hoperand =>
      rw [hoperand]
      rw [ok_bind]
      split
      · next hothers => rw [hothers]; rfl
      · next hothers => rw [hothers]; rfl
  · next hoperand =>
      rw [hoperand]
      rfl

theorem moreOperands_of_ne (h : ∀ rest, tokens ≠ .comma :: rest) :
    moreOperands tokens = .ok ([], tokens) := by
  rw [moreOperands]
  exact h

/-- There is one reason for which no operand is read. -/
theorem operand_error {reason : Reason} (h : operand tokens = .error reason) :
    reason = .notRecognized := by
  rw [operand.eq_def] at h
  split at h
  · cases h
  · cases h
  · split at h
    · cases h
    · cases h
      rfl
  · split at h
    · cases h
    · split at h
      · cases h
      · cases h
        rfl
    · cases h
      rfl
  · cases h
    rfl

/-- An assignment is a name, an equals sign and an operand. -/
theorem assignment_eq (tokens : List Token) :
    assignment tokens = name tokens >>= fun column =>
      mark (.operator .equals) column.2 >>= fun rest =>
        operand rest >>= fun found => .ok ((column.1, found.1), found.2) := by
  rw [assignment.eq_def]
  split
  · next token rest =>
      rw [name]
      cases name? token with
      | none => rfl
      | some column =>
          dsimp only
          rw [ok_bind, mark, if_pos rfl, ok_bind]
          cases hoperand : operand rest with
          | error reason =>
              rw [operand_error hoperand]
              rfl
          | ok found => rfl
  · next hother =>
      cases tokens with
      | nil => rfl
      | cons token rest =>
          rw [name]
          cases name? token with
          | none => rfl
          | some column =>
              cases rest with
              | nil => rfl
              | cons second rest =>
                  change _ = mark _ _ >>= _
                  rw [mark, if_neg]
                  · rfl
                  · rintro rfl
                    exact hother _ _ rfl

theorem moreAssignments_comma (columns : List String) (rest : List Token) :
    moreAssignments columns (.comma :: rest) = assignment rest >>= fun found =>
      if columns.contains found.1.1 then .error .notRecognized
      else moreAssignments (found.1.1 :: columns) found.2 >>= fun others =>
        .ok (found.1 :: others.1, others.2) := by
  rw [moreAssignments]
  split
  · next hassignment =>
      rw [hassignment]
      split
      · next hold => exact (if_pos hold).symm
      · next hnew =>
          refine Eq.trans ?_ (if_neg hnew).symm
          split
          · next hothers => rw [hothers]; rfl
          · next hothers => rw [hothers]; rfl
  · next hassignment =>
      rw [hassignment]
      rfl

theorem moreAssignments_of_ne (columns : List String) (h : ∀ rest, tokens ≠ .comma :: rest) :
    moreAssignments columns tokens = .ok ([], tokens) := by
  rw [moreAssignments]
  exact h

end Lists

/-! ## Behind a value -/

section Blocked

variable {tokens : List Token} (h : Blocked tokens)

include h

/-- No clause begins where a statement is blocked. -/
theorem Blocked.keyword {text : String} (htext : text ∈ ["where", "order", "limit"]) :
    keyword text tokens = .error .notRecognized ∧ startsWith text tokens = false := by
  cases h with
  | @head token rest blocks =>
      have hkeyword : token.isKeyword text = false := by
        simp only [followsValue, Bool.or_eq_false_iff] at blocks
        simp only [List.mem_cons, List.not_mem_nil, or_false] at htext
        rcases htext with rfl | rfl | rfl
        · exact blocks.1.1.2
        · exact blocks.1.2
        · exact blocks.2
      rw [Statement.keyword, startsWith, hkeyword]
      exact ⟨rfl, rfl⟩

theorem Blocked.rightParen : mark .rightParen tokens = .error .notRecognized := by
  cases h with
  | @head token rest blocks =>
      rw [mark, if_neg]
      rintro rfl
      cases blocks

/-- No statement ends where it is blocked. -/
theorem Blocked.finish (statement : Statement) :
    finish statement tokens = .error .notRecognized := by
  cases h with
  | @head token rest blocks =>
      rw [Statement.finish]
      · rintro ⟨⟩
      · intro hsemicolon
        cases hsemicolon
        cases blocks

theorem Blocked.atEnd : atEnd tokens = false := by
  cases h with
  | @head token rest blocks =>
      cases token with
      | semicolon => cases blocks
      | _ => rfl

theorem Blocked.ne_comma (rest : List Token) : tokens ≠ .comma :: rest := by
  rintro rfl
  cases h with
  | head _ blocks => cases blocks

theorem Blocked.moreOperands : moreOperands tokens = .ok ([], tokens) :=
  moreOperands_of_ne h.ne_comma

theorem Blocked.moreAssignments (columns : List String) :
    moreAssignments columns tokens = .ok ([], tokens) :=
  moreAssignments_of_ne columns h.ne_comma

end Blocked

/-! ## Readers -/

section Readers

variable {left right : List Token} (h : Parted left right)

include h

/-- Tokens that part begin with the same keywords. -/
theorem startsWith_alike {text : String} (htext : text ∈ keywords) :
    startsWith text left = startsWith text right := by
  cases h with
  | nil => rfl
  | cons token tail => rfl
  | value values stuck =>
      rw [startsWith, startsWith, values.isValue.1.isKeyword htext,
        values.isValue.2.isKeyword htext]

theorem drop_alike {text : String} (htext : text ∈ keywords) (hstart : startsWith text left = true) :
    Parted (left.drop 1) (right.drop 1) := by
  cases h with
  | nil => cases hstart
  | cons token tail => exact tail
  | value values stuck =>
      rw [startsWith, values.isValue.1.isKeyword htext] at hstart
      cases hstart

theorem keyword_alike {text : String} (htext : text ∈ keywords) :
    Alike Parted (keyword text left) (keyword text right) := by
  cases h with
  | nil => exact .failed _
  | cons token tail =>
      rw [keyword, keyword]
      split
      · exact .read tail
      · exact .failed _
  | value values stuck =>
      rw [keyword, keyword, values.isValue.1.isKeyword htext, values.isValue.2.isKeyword htext]
      exact .failed _

theorem mark_alike {expected : Token}
    (hmark : ∀ text, expected ≠ .word text ∧ expected ≠ .number text) :
    Alike Parted (mark expected left) (mark expected right) := by
  cases h with
  | nil => exact .failed _
  | cons token tail =>
      rw [mark, mark]
      split
      · exact .read tail
      · exact .failed _
  | value values stuck =>
      rw [mark, mark, if_neg (values.isValue.1.ne hmark), if_neg (values.isValue.2.ne hmark)]
      exact .failed _

theorem name_alike : Alike Ahead (name left) (name right) := by
  cases h with
  | nil => exact .failed _
  | cons token tail =>
      rw [name, name]
      split
      · exact .read ⟨rfl, tail⟩
      · exact .failed _
  | value values stuck =>
      rw [name, name, values.isValue.1.name?, values.isValue.2.name?]
      exact .failed _

theorem finish_alike (statement : Statement) :
    Alike Eq (finish statement left) (finish statement right) := by
  have hother : ∀ {token : Token} {rest : List Token}, ¬(token = .semicolon ∧ rest = []) →
      finish statement (token :: rest) = .error .notRecognized := by
    intro token rest hne
    rw [finish.eq_def]
    split
    · next heq => cases heq
    · next heq =>
        cases heq
        exact absurd ⟨rfl, rfl⟩ hne
    · rfl
  cases h with
  | nil => exact .read rfl
  | cons token tail =>
      by_cases hsemicolon : token = .semicolon
      · subst hsemicolon
        cases tail with
        | nil => exact .read rfl
        | cons other tail => rw [hother (by simp), hother (by simp)]; exact .failed _
        | value values stuck => rw [hother (by simp), hother (by simp)]; exact .failed _
      · rw [hother fun heq => hsemicolon heq.1, hother fun heq => hsemicolon heq.1]
        exact .failed _
  | value values stuck =>
      have hmark : ∀ text, Token.semicolon ≠ .word text ∧ Token.semicolon ≠ .number text := by simp
      rw [hother fun heq => values.isValue.1.ne hmark heq.1,
        hother fun heq => values.isValue.2.ne hmark heq.1]
      exact .failed _

theorem atEnd_alike : atEnd left = atEnd right := by
  have hvalue : ∀ {token : Token} (rest : List Token), IsValue token →
      atEnd (token :: rest) = false := by
    intro token rest hvalue
    rcases hvalue.cases with ⟨text, rfl⟩ | rfl | rfl
    · rfl
    · rfl
    · rfl
  cases h with
  | nil => rfl
  | cons token tail => cases token <;> rfl
  | value values stuck => rw [hvalue _ values.isValue.1, hvalue _ values.isValue.2]

end Readers

/-- A truth value is read as such. -/
theorem operand_of_isFlag {token : Token} (h : IsFlag token) (rest : List Token) :
    ∃ slot, operand (token :: rest) = .ok (slot, rest) := by
  rcases h.cases with (rfl | rfl) | rfl | rfl
  · exact ⟨_, rfl⟩
  · exact ⟨_, rfl⟩
  · exact ⟨_, rfl⟩
  · exact ⟨_, rfl⟩

/-- A word that is no literal by itself is one as the call of `now`. -/
theorem operand_word {text : String} (h : wordLiteral? text = none) (rest : List Token) :
    operand (.word text :: rest) =
      mark .leftParen rest >>= fun rest => mark .rightParen rest >>= fun rest =>
        if Text.lower text.toList = "now".toList then .ok (.literal (.text nowText), rest)
        else .error .notRecognized := by
  rw [operand.eq_def]
  dsimp only
  rw [h]
  split
  · next heq => cases heq
  · rfl
  · next rest _ _ _ hcall =>
      cases rest with
      | nil => rfl
      | cons token rest =>
          by_cases hopen : token = .leftParen
          · subst hopen
            cases rest with
            | nil => rfl
            | cons token rest =>
                by_cases hclose : token = .rightParen
                · subst hclose
                  exact absurd rfl (hcall rest)
                · rw [mark, if_pos rfl]
                  change _ = mark _ _ >>= _
                  rw [mark, if_neg hclose]
                  rfl
          · rw [mark, if_neg hopen]
            rfl

section Readers

variable {left right : List Token}

/-- An operand is read from tokens that part alike, or both are stuck behind it. -/
theorem operand_alike (h : Parted left right) :
    Alike (Past fun _ _ => True) (operand left) (operand right) := by
  cases h with
  | nil => exact .failed _
  | @cons token left right tail =>
      cases token with
      | placeholder => exact .read (.inl ⟨rfl, tail⟩)
      | quotedText text => exact .read (.inl ⟨rfl, tail⟩)
      | number text =>
          rw [operand, operand]
          split
          · exact .read (.inl ⟨rfl, tail⟩)
          · exact .failed _
      | word text =>
          cases hword : wordLiteral? text with
          | some value =>
              rw [operand.eq_def, operand.eq_def (_ :: right)]
              dsimp only
              rw [hword]
              exact .read (.inl ⟨rfl, tail⟩)
          | none =>
              rw [operand_word hword, operand_word hword]
              refine (mark_alike tail (by simp)).bind fun left right _ h => ?_
              refine (mark_alike h (by simp)).bind fun left right _ h => ?_
              split
              · exact .read (.inl ⟨rfl, h⟩)
              · exact .failed _
      | quotedName | star | comma | leftParen | rightParen | semicolon | operator | unknown =>
          exact .failed _
  | value values stuck =>
      -- A number is read or not by its text alone; truth values are read, if not alike.
      cases values with
      | number text =>
          rw [operand, operand]
          split
          · exact .read (.inr ⟨trivial, stuck⟩)
          · exact .failed _
      | flags first second =>
          obtain ⟨_, hfirst⟩ := operand_of_isFlag first _
          obtain ⟨_, hsecond⟩ := operand_of_isFlag second _
          rw [hfirst, hsecond]
          exact .read (.inr ⟨trivial, stuck⟩)

/-- A condition is read from tokens that part alike, or both are stuck behind it. -/
theorem condition_alike (h : Parted left right) :
    Alike (Past fun _ _ => True) (condition left) (condition right) := by
  rw [condition, condition]
  refine (name_alike h).bind ?_
  rintro ⟨column, left⟩ ⟨_, right⟩ - ⟨rfl, h⟩
  cases h with
  | nil => exact .failed _
  | value values stuck =>
      rcases values.isValue.1.cases with ⟨_, rfl⟩ | rfl | rfl
      all_goals rcases values.isValue.2.cases with ⟨_, rfl⟩ | rfl | rfl
      all_goals exact .failed _
  | @cons token left right tail =>
      cases token with
      | operator symbol =>
          refine (operand_alike tail).bind ?_
          rintro ⟨slot, left⟩ ⟨other, right⟩ - (⟨hslot, h⟩ | ⟨-, stuck⟩)
          · obtain rfl : slot = other := hslot
            dsimp only at h ⊢
            rw [startsWith_alike h (by decide : "and" ∈ keywords),
              startsWith_alike h (by decide : "or" ∈ keywords)]
            split
            · exact .failed _
            · exact .read (.inl ⟨rfl, h⟩)
          · dsimp only at stuck ⊢
            rw [stuck.joins]
            split
            · exact .failed _
            · exact .read (.inr ⟨trivial, stuck⟩)
      | _ => exact .failed _

theorem comma_ne_value (text : String) : Token.comma ≠ .word text ∧ Token.comma ≠ .number text := by
  simp

/-- Statements that part after a value both go on with a given mark, or neither does. -/
theorem Parted.mark_cases (h : Parted left right) {expected : Token}
    (hmark : ∀ text, expected ≠ .word text ∧ expected ≠ .number text) :
    (∃ rest others, left = expected :: rest ∧ right = expected :: others ∧ Parted rest others) ∨
      (∀ rest, left ≠ expected :: rest) ∧ ∀ rest, right ≠ expected :: rest := by
  cases h with
  | nil => exact .inr ⟨by simp, by simp⟩
  | cons token tail =>
      by_cases htoken : token = expected
      · subst htoken
        exact .inl ⟨_, _, rfl, rfl, tail⟩
      · exact .inr ⟨by simp [htoken], by simp [htoken]⟩
  | value values stuck =>
      exact .inr ⟨by simp [values.isValue.1.ne hmark], by simp [values.isValue.2.ne hmark]⟩

theorem moreNames_alike (names : List String) (h : Parted left right) :
    Alike Ahead (moreNames names left) (moreNames names right) := by
  -- The reader goes on behind a name, so the induction is on the number of tokens.
  induction hlength : left.length using Nat.strongRecOn generalizing names left right with
  | ind length ih =>
      obtain ⟨rest, others, rfl, rfl, hrest⟩ | ⟨hleft, hright⟩ := h.mark_cases comma_ne_value
      · rw [moreNames_comma, moreNames_comma]
        refine (name_alike hrest).bind ?_
        rintro ⟨column, left⟩ ⟨_, right⟩ hname ⟨rfl, htail⟩
        split
        · exact .failed _
        · obtain ⟨token, rfl, -⟩ := name_eq_ok_iff.1 hname
          refine ih left.length ?_ _ htail rfl
          rw [← hlength]
          simp only [List.length_cons]
          omega
      · rw [moreNames_of_ne names hleft, moreNames_of_ne names hright]
        exact .read ⟨rfl, h⟩

theorem moreOperands_alike (h : Parted left right) :
    Alike (Past fun _ _ => True) (moreOperands left) (moreOperands right) := by
  induction hlength : left.length using Nat.strongRecOn generalizing left right with
  | ind length ih =>
      obtain ⟨rest, others, rfl, rfl, hrest⟩ | ⟨hleft, hright⟩ := h.mark_cases comma_ne_value
      · rw [moreOperands_comma, moreOperands_comma]
        refine (operand_alike hrest).bind ?_
        rintro ⟨slot, left⟩ ⟨other, right⟩ hoperand (⟨hslot, h⟩ | ⟨-, stuck⟩)
        · obtain rfl : slot = other := hslot
          have hshorter := length_operand hoperand
          refine (ih left.length ?_ h rfl).bind ?_
          · rw [← hlength]
            exact Nat.lt_succ_of_lt hshorter
          · rintro ⟨slots, left⟩ ⟨others, right⟩ - (⟨hslots, h⟩ | ⟨-, stuck⟩)
            · obtain rfl : slots = others := hslots
              exact .read (.inl ⟨rfl, h⟩)
            · exact .read (.inr ⟨trivial, stuck⟩)
        · dsimp only at stuck ⊢
          rw [stuck.first.moreOperands, stuck.second.moreOperands]
          exact .read (.inr ⟨trivial, stuck⟩)
      · rw [moreOperands_of_ne hleft, moreOperands_of_ne hright]
        exact .read (.inl ⟨rfl, h⟩)

/-- Where the values of an assignment part, its columns do not. -/
theorem assignment_alike (h : Parted left right) :
    Alike (Past fun first second => first.1 = second.1) (assignment left) (assignment right) := by
  rw [assignment_eq, assignment_eq]
  refine (name_alike h).bind ?_
  rintro ⟨column, left⟩ ⟨_, right⟩ - ⟨rfl, h⟩
  refine (mark_alike h (by simp)).bind fun left right _ h => ?_
  refine (operand_alike h).bind ?_
  rintro ⟨slot, left⟩ ⟨other, right⟩ - (⟨hslot, h⟩ | ⟨-, stuck⟩)
  · obtain rfl : slot = other := hslot
    exact .read (.inl ⟨rfl, h⟩)
  · exact .read (.inr ⟨rfl, stuck⟩)

/-- Assignments are read from tokens that part alike, or both are stuck behind one. -/
theorem moreAssignments_alike (columns : List String) (h : Parted left right) :
    Alike (Past fun _ _ => True) (moreAssignments columns left) (moreAssignments columns right) := by
  induction hlength : left.length using Nat.strongRecOn generalizing columns left right with
  | ind length ih =>
      obtain ⟨rest, others, rfl, rfl, hrest⟩ | ⟨hleft, hright⟩ := h.mark_cases comma_ne_value
      · rw [moreAssignments_comma, moreAssignments_comma]
        refine (assignment_alike hrest).bind ?_
        rintro ⟨⟨column, slot⟩, left⟩ ⟨⟨_, other⟩, right⟩ hassignment (⟨hfound, h⟩ | ⟨rfl, stuck⟩)
        · cases hfound
          have hshorter := length_assignment hassignment
          split
          · exact .failed _
          refine (ih left.length ?_ _ h rfl).bind ?_
          · rw [← hlength]
            exact Nat.lt_succ_of_lt hshorter
          · rintro ⟨more, left⟩ ⟨others, right⟩ - (⟨hmore, h⟩ | ⟨-, stuck⟩)
            · obtain rfl : more = others := hmore
              exact .read (.inl ⟨rfl, h⟩)
            · exact .read (.inr ⟨trivial, stuck⟩)
        · dsimp only at stuck ⊢
          split
          · exact .failed _
          · rw [stuck.first.moreAssignments, stuck.second.moreAssignments]
            exact .read (.inr ⟨trivial, stuck⟩)
      · rw [moreAssignments_of_ne columns hleft, moreAssignments_of_ne columns hright]
        exact .read (.inl ⟨rfl, h⟩)

theorem whereClause_alike (h : Parted left right) :
    Alike (Past fun _ _ => True) (whereClause left) (whereClause right) := by
  rw [whereClause, whereClause, ← startsWith_alike h (by decide)]
  split
  · next hstart =>
      refine (condition_alike (drop_alike h (by decide) hstart)).bind ?_
      rintro ⟨found, left⟩ ⟨other, right⟩ - (⟨hfound, h⟩ | ⟨-, stuck⟩)
      · obtain rfl : found = other := hfound
        exact .read (.inl ⟨rfl, h⟩)
      · exact .read (.inr ⟨trivial, stuck⟩)
  · exact .read (.inl ⟨rfl, h⟩)

theorem orderClause_alike (h : Parted left right) :
    Alike Ahead (orderClause left) (orderClause right) := by
  rw [orderClause, orderClause, ← startsWith_alike h (by decide)]
  split
  · next hstart =>
      refine (keyword_alike (drop_alike h (by decide) hstart) (by decide)).bind fun left right _ h => ?_
      refine (name_alike h).bind ?_
      rintro ⟨column, left⟩ ⟨_, right⟩ - ⟨rfl, h⟩
      dsimp only at h ⊢
      rw [← startsWith_alike h (by decide), ← startsWith_alike h (by decide : "asc" ∈ keywords)]
      split
      · next hdesc => exact .read ⟨rfl, drop_alike h (by decide) hdesc⟩
      split
      · next hasc => exact .read ⟨rfl, drop_alike h (by decide) hasc⟩
      · exact .read ⟨rfl, h⟩
  · exact .read ⟨rfl, h⟩

end Readers

end ClosedSql.Statement
