import ClosedSql.Proofs.Statement.Grammar

/-!
# Reading terms and conditions

Each reader is characterised by the grammar: it succeeds exactly when the tokens begin with a
derivation of its rule, and what it leaves is the rest. A condition also asks that the rest does
not go on with it.
-/

namespace ClosedSql.Statement

open Grammar

theorem ok_bind {α β : Type} (value : α) (next : α → Except Reason β) :
    (Except.ok value >>= next) = next value :=
  rfl

theorem toOption_eq_some_iff {α : Type} {read : Except Reason α} {value : α} :
    read.toOption = some value ↔ read = .ok value := by
  cases read with
  | error reason => simp [Except.toOption]
  | ok other => simp [Except.toOption]

/-- A sequence of readers succeeds when both succeed. -/
theorem bind_eq_ok_iff {α β : Type} {first : Except Reason α} {next : α → Except Reason β}
    {result : β} : (first >>= next) = .ok result ↔ ∃ a, first = .ok a ∧ next a = .ok result := by
  cases first with
  | error reason =>
      constructor
      · intro h
        cases h
      · rintro ⟨a, ha, -⟩
        cases ha
  | ok a =>
      constructor
      · intro h
        exact ⟨a, rfl, h⟩
      · rintro ⟨b, hb, h⟩
        cases hb
        exact h

/-! ## Single tokens -/

/-- A keyword stands at the front if the first token spells it. -/
theorem startsWith_iff {text : String} {tokens : List Token} :
    startsWith text tokens = true ↔ ∃ token rest, tokens = token :: rest ∧ Keyword text token := by
  cases tokens with
  | nil => simp [startsWith]
  | cons token rest => simp [startsWith, Keyword]

/-- A keyword is read from a token that spells it. -/
theorem keyword_eq_ok_iff {text : String} {tokens rest : List Token} :
    keyword text tokens = .ok rest ↔ ∃ token, tokens = token :: rest ∧ Keyword text token := by
  cases tokens with
  | nil => simp [keyword]
  | cons token tail =>
      by_cases h : token.isKeyword text = true
      · simp only [keyword, h, if_true, Except.ok.injEq, List.cons.injEq]
        constructor
        · rintro rfl
          exact ⟨token, ⟨rfl, rfl⟩, h⟩
        · rintro ⟨_, ⟨-, rfl⟩, -⟩
          rfl
      · simp [keyword, Keyword, h]

theorem mark_eq_ok_iff {expected : Token} {tokens rest : List Token} :
    mark expected tokens = .ok rest ↔ tokens = expected :: rest := by
  cases tokens with
  | nil => simp [mark]
  | cons token tail =>
      by_cases h : token = expected
      · simp [mark, h]
      · simp [mark, h]

/-- A token stands for a name as the grammar has it. -/
theorem name?_eq_some_iff {token : Token} {text : String} :
    name? token = some text ↔ Name token text := by
  constructor
  · intro h
    cases token <;> simp only [name?, reduceCtorEq] at h
    case word word =>
      split at h
      · cases h
      · next hfree =>
          cases h
          exact .word (by simpa using hfree)
    case quotedName word =>
      split at h
      · next hidentifier =>
          cases h
          exact .quoted hidentifier
      · cases h
  · intro h
    cases h with
    | word free => simp [name?, free]
    | quoted identifier => simp [name?, identifier]

theorem name_eq_ok_iff {tokens rest : List Token} {text : String} :
    name tokens = .ok (text, rest) ↔ ∃ token, tokens = token :: rest ∧ Name token text := by
  cases tokens with
  | nil => simp [name]
  | cons token tail =>
      cases h : name? token with
      | none =>
          have hnone : ∀ other, ¬Name token other := by
            intro other hname
            rw [name?_eq_some_iff.2 hname] at h
            cases h
          simp [name, h, hnone]
      | some found =>
          have hfound := name?_eq_some_iff.1 h
          simp only [name, h, Except.ok.injEq, Prod.mk.injEq, List.cons.injEq]
          constructor
          · rintro ⟨rfl, rfl⟩
            exact ⟨token, ⟨rfl, rfl⟩, hfound⟩
          · rintro ⟨_, ⟨rfl, rfl⟩, hname⟩
            rw [name?_eq_some_iff.2 hname] at h
            cases h
            exact ⟨rfl, rfl⟩

/-- A statement ends where nothing or a semicolon is left. -/
theorem finish_eq_ok_iff {statement result : Statement} {tokens : List Token} :
    finish statement tokens = .ok result ↔
      result = statement ∧ (tokens = [] ∨ tokens = [.semicolon]) := by
  rw [finish.eq_def]
  split
  · simp [eq_comm]
  · simp [eq_comm]
  · next hnil hsemicolon => simp_all

/-! ## Numbers -/

theorem int64?_eq_some_iff {k : Int} {n : Int64} : Number.int64? k = some n ↔ n.toInt = k := by
  constructor
  · exact Number.toInt_of_int64?
  · rintro rfl
    have hlow := Int64.le_toInt n
    have hhigh := Int64.toInt_lt n
    have hbound : Number.twoTo (64 - 1) = 9223372036854775808 := by decide
    rw [Number.int64?, if_pos, Int64.ofInt_toInt]
    simpa [Number.fitsBits, hbound] using ⟨hlow, hhigh⟩

/-- Digits have no sign. -/
theorem readSign_of_isDigits {digits : List Char} (h : Number.isDigits digits = true) :
    Number.readSign digits = (false, digits) := by
  rw [Number.readSign.eq_def]
  split
  · exact absurd (Number.isDigit_of_isDigits h List.mem_cons_self) (by decide)
  · exact absurd (Number.isDigit_of_isDigits h List.mem_cons_self) (by decide)
  · rfl

/-- An integer in decimal digits is one that the reader takes. -/
theorem integral_iff {written : List Char} {k : Int} :
    Integral written k ↔ Number.isDigits (Number.readSign written).2 = true ∧
      Number.Binary64.signed (Number.readSign written).1
        (Number.digitsValue (Number.readSign written).2) = k := by
  constructor
  · intro h
    cases h with
    | natural natural =>
        cases natural with
        | digits all =>
            rw [readSign_of_isDigits all]
            exact ⟨all, rfl⟩
        | plus all => exact ⟨all, rfl⟩
    | minus all => exact ⟨all, rfl⟩
  · rintro ⟨hdigits, rfl⟩
    rw [Number.readSign.eq_def] at hdigits ⊢
    split at hdigits
    · exact .minus hdigits
    · exact .natural (.plus hdigits)
    · exact .natural (.digits hdigits)

/-- An integer is read just if it has sixty-four bits. -/
theorem readInt64?_eq_some_iff {written : List Char} {n : Int64} :
    Number.readInt64? written = some n ↔ Integral written n.toInt := by
  have hread : Number.readInt64? written =
      if Number.isDigits (Number.readSign written).2 = true then
        Number.int64? (Number.Binary64.signed (Number.readSign written).1
          (Number.digitsValue (Number.readSign written).2))
      else none := rfl
  rw [integral_iff, hread]
  by_cases h : Number.isDigits (Number.readSign written).2 = true
  · rw [if_pos h, int64?_eq_some_iff]
    constructor
    · intro hvalue
      exact ⟨h, hvalue.symm⟩
    · rintro ⟨-, hvalue⟩
      exact hvalue.symm
  · simp [h]

/-- The digits after an optional plus sign. -/
def dropPlus : List Char → List Char
  | '+' :: rest => rest
  | text => text

theorem natural_iff {written : List Char} {k : Nat} :
    Natural written k ↔ Number.isDigits (dropPlus written) = true ∧
      Number.digitsValue (dropPlus written) = k := by
  constructor
  · intro h
    cases h with
    | digits all =>
        have hplus : dropPlus written = written := by
          rw [dropPlus.eq_def]
          split
          · exact absurd (Number.isDigit_of_isDigits all List.mem_cons_self) (by decide)
          · rfl
        rw [hplus]
        exact ⟨all, rfl⟩
    | plus all => exact ⟨all, rfl⟩
  · rintro ⟨hdigits, rfl⟩
    rw [dropPlus.eq_def] at hdigits ⊢
    split at hdigits
    · exact .plus hdigits
    · exact .digits hdigits

/-- A limit is read just if it is natural and has sixty-four bits. -/
theorem readUInt64?_eq_some_iff {written : List Char} {n : UInt64} :
    Number.readUInt64? written = some n ↔ Natural written n.toNat := by
  have hread : Number.readUInt64? written =
      if Number.isDigits (dropPlus written) && Number.digitsValue (dropPlus written) < UInt64.size
      then some (UInt64.ofNat (Number.digitsValue (dropPlus written))) else none := by
    unfold Number.readUInt64? dropPlus
    cases written with
    | nil => rfl
    | cons c rest =>
        by_cases hc : c = '+'
        · subst hc
          rfl
        · simp [hc]
  rw [natural_iff, hread]
  constructor
  · intro h
    split at h
    · next hfits =>
        simp only [Bool.and_eq_true, decide_eq_true_eq] at hfits
        cases h
        exact ⟨hfits.1, (UInt64.toNat_ofNat_of_lt' hfits.2).symm⟩
    · cases h
  · rintro ⟨hdigits, hvalue⟩
    rw [hvalue, if_pos, UInt64.ofNat_toNat]
    simpa [hdigits] using n.toNat_lt

/-- An integer is written without a point. -/
theorem point_not_mem_of_integral {written : List Char} {k : Int} (h : Integral written k) :
    '.' ∉ written := by
  have hdigits : ∀ {digits : List Char}, Number.isDigits digits = true → '.' ∉ digits := by
    intro digits hall hpoint
    exact absurd (Number.isDigit_of_isDigits hall hpoint) (by decide)
  cases h with
  | natural natural =>
      cases natural with
      | digits all => exact hdigits all
      | plus all => simpa using hdigits all
  | minus all => simpa using hdigits all

/-- A number is read as a literal just as the grammar has it. -/
theorem numberLiteral?_eq_some_iff {written : String} {value : Value} :
    numberLiteral? written = some value ↔ Term [.number written] (.literal value) := by
  by_cases hpoint : '.' ∈ written.toList
  · have hread : numberLiteral? written =
        (Number.readFloat? written.toList).map ClosedSql.Value.float := by
      simp [numberLiteral?, hpoint]
    rw [hread, Option.map_eq_some_iff]
    constructor
    · rintro ⟨x, hx, rfl⟩
      exact .float hpoint hx
    · intro h
      cases h with
      | integer integral => exact absurd hpoint (point_not_mem_of_integral integral)
      | float point reads => exact ⟨_, reads, rfl⟩
      | true keyword => cases keyword
      | false keyword => cases keyword
      | null keyword => cases keyword
  · have hread : numberLiteral? written =
        (Number.readInt64? written.toList).map ClosedSql.Value.int := by
      simp [numberLiteral?, hpoint]
    rw [hread, Option.map_eq_some_iff]
    constructor
    · rintro ⟨n, hn, rfl⟩
      exact .integer (readInt64?_eq_some_iff.1 hn)
    · intro h
      cases h with
      | integer integral => exact ⟨_, readInt64?_eq_some_iff.2 integral, rfl⟩
      | float point reads => exact absurd point hpoint
      | true keyword => cases keyword
      | false keyword => cases keyword
      | null keyword => cases keyword

/-! ## Operands and conditions -/

theorem keyword_word_iff {text word : String} :
    Keyword text (.word word) ↔ Text.lower word.toList = Text.lower text.toList := by
  simp [Keyword, Token.isKeyword, Text.sameIgnoringCase]

/-- A word is read as a literal just as the grammar has it. -/
theorem wordLiteral?_eq_some_iff {word : String} {value : Value} :
    wordLiteral? word = some value ↔ Term [.word word] (.literal value) := by
  constructor
  · intro h
    rw [wordLiteral?] at h
    split at h
    · next hword =>
        cases h
        exact .true (keyword_word_iff.2 hword)
    · split at h
      · next hword =>
          cases h
          exact .false (keyword_word_iff.2 hword)
      · split at h
        · next hword =>
            cases h
            exact .null (keyword_word_iff.2 hword)
        · cases h
  · intro h
    cases h with
    | true keyword => rw [wordLiteral?, keyword_word_iff.1 keyword]; decide
    | false keyword => rw [wordLiteral?, keyword_word_iff.1 keyword]; decide
    | null keyword => rw [wordLiteral?, keyword_word_iff.1 keyword]; decide

theorem wordLiteral?_of_now {word : String} (h : Keyword "now" (.word word)) :
    wordLiteral? word = none := by
  rw [wordLiteral?, keyword_word_iff.1 h]
  decide

/-- A term of the grammar is read as an operand. -/
theorem operand_of_term {front : List Token} {slot : Slot} (h : Term front slot)
    (rest : List Token) : operand (front ++ rest) = .ok (slot, rest) := by
  have hword : ∀ {token : Token} {value : Value}, Term [token] (.literal value) →
      (∃ text, Keyword text token) → operand (token :: rest) = .ok (.literal value, rest) := by
    rintro token value hvalue ⟨text, hkeyword⟩
    cases token with
    | word word => simp [operand, wordLiteral?_eq_some_iff.2 hvalue]
    | _ => cases hkeyword
  cases h with
  | placeholder => rfl
  | text content => rfl
  | integer integral => simp [operand, numberLiteral?_eq_some_iff.2 (.integer integral)]
  | float point reads => simp [operand, numberLiteral?_eq_some_iff.2 (.float point reads)]
  | true keyword => exact hword (.true keyword) ⟨_, keyword⟩
  | false keyword => exact hword (.false keyword) ⟨_, keyword⟩
  | null keyword => exact hword (.null keyword) ⟨_, keyword⟩
  | @now token keyword =>
      cases token with
      | word word =>
          have hlower : Text.lower word.toList = "now".toList := keyword_word_iff.1 keyword
          simp [operand, wordLiteral?_of_now keyword, hlower, nowText]
      | _ => cases keyword

/-- An operand is read just as the grammar has it. -/
theorem operand_eq_ok_iff {tokens rest : List Token} {slot : Slot} :
    operand tokens = .ok (slot, rest) ↔
      ∃ front, tokens = front ++ rest ∧ Term front slot := by
  constructor
  · intro h
    rw [operand.eq_def] at h
    split at h
    · cases h
      exact ⟨[.placeholder], rfl, .placeholder⟩
    · cases h
      exact ⟨[.quotedText _], rfl, .text _⟩
    · split at h
      · next hvalue =>
          cases h
          exact ⟨[.number _], rfl, numberLiteral?_eq_some_iff.1 hvalue⟩
      · cases h
    · split at h
      · next hvalue =>
          cases h
          exact ⟨[.word _], rfl, wordLiteral?_eq_some_iff.1 hvalue⟩
      · split at h
        · next hnow =>
            cases h
            exact ⟨[.word _, .leftParen, .rightParen], rfl, .now (keyword_word_iff.2 hnow)⟩
        · cases h
      · cases h
    · cases h
  · rintro ⟨front, rfl, h⟩
    exact operand_of_term h rest

/-- A condition ends where neither `and` nor `or` goes on with it. -/
def Complete (rest : List Token) : Prop :=
  startsWith "and" rest = false ∧ startsWith "or" rest = false

/-- A condition is read just as the grammar has it, where no `and` or `or` goes on. -/
theorem condition_eq_ok_iff {tokens rest : List Token} {found : Condition Slot} :
    condition tokens = .ok (found, rest) ↔
      ∃ front, tokens = front ++ rest ∧ Predicate front found ∧ Complete rest := by
  simp only [condition, bind_eq_ok_iff, Prod.exists, name_eq_ok_iff]
  constructor
  · rintro ⟨column, tail, ⟨token, rfl, hname⟩, h⟩
    split at h
    · next symbol tail =>
        obtain ⟨⟨slot, left⟩, hoperand, hend⟩ := bind_eq_ok_iff.1 h
        obtain ⟨value, rfl, hvalue⟩ := operand_eq_ok_iff.1 hoperand
        split at hend
        · cases hend
        · next hjoined =>
            simp only [Bool.or_eq_true, not_or, Bool.not_eq_true] at hjoined
            cases hend
            exact ⟨_, rfl, .compare hname hvalue, hjoined⟩
    · cases h
  · rintro ⟨front, rfl, hpredicate, hand, hor⟩
    cases hpredicate with
    | @compare token column symbol value slot hname hvalue =>
        refine ⟨column, .operator symbol :: (value ++ rest), ⟨token, rfl, hname⟩, ?_⟩
        refine bind_eq_ok_iff.2 ⟨(slot, rest), operand_of_term hvalue rest, ?_⟩
        simp only [hand, hor]
        rfl

end ClosedSql.Statement
