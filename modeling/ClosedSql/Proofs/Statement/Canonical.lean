import ClosedSql.Proofs.Dialect.Untouched
import ClosedSql.Proofs.Number.Digits
import ClosedSql.Proofs.Statement.Print
import ClosedSql.Proofs.Statement.Terms
import ClosedSql.Statement.Bound

/-!
# Canonical tokens

The tokens of a plain statement survive being written, normalized and read: each of them is
regular, and none of them stands where it would be taken for a dialect literal.
-/

namespace ClosedSql

open Text Grammar

/-! ## Decimal integers -/

section Decimal

open Number

theorem natural_toDigits (n : Nat) : Natural (Nat.toDigits 10 n) n := by
  have hnatural := Natural.digits (isDigits_toDigits n)
  rwa [digitsValue_toDigits] at hnatural

theorem integral_toString (n : Int) : Integral (toString n).toList n := by
  cases n with
  | ofNat n =>
      rw [show Int.ofNat n = (n : Int) from rfl, toList_toString_natCast]
      exact .natural (natural_toDigits n)
  | negSucc n =>
      have hminus := Integral.minus (isDigits_toDigits (n + 1))
      rw [digitsValue_toDigits] at hminus
      rw [toList_toString_negSucc]
      exact hminus

theorem regular_toString (n : Int) : Token.Regular (.number (toString n)) := by
  cases n with
  | ofNat n =>
      refine .natural ?_
      rw [show Int.ofNat n = (n : Int) from rfl, toList_toString_natCast]
      exact isDigits_toDigits n
  | negSucc n => exact .negative (toList_toString_negSucc n) (isDigits_toDigits (n + 1))

/-- Integers with the same digits are the same. -/
theorem eq_of_toString_eq {n k : Int} (h : toString n = toString k) : n = k := by
  have hn := integral_toString n
  rw [h] at hn
  exact (Statement.integral_iff.1 hn).2.symm.trans
    (Statement.integral_iff.1 (integral_toString k)).2

end Decimal

/-! ## The layout -/

namespace Layout

open Token

theorem apart_after {previous : Token} {tokens : List Token} :
    previous.isMark = true ∨ Apart (after previous tokens) := by
  cases tokens with
  | nil => exact .inr trivial
  | cons token rest =>
      rw [after, Apart, gap]
      split
      · next htight =>
          rcases htight with rfl | rfl | rfl | ⟨-, rfl⟩
          · exact .inr (.inr rfl)
          · exact .inr (.inr rfl)
          · exact .inl rfl
          · exact .inr (.inr rfl)
      · exact .inr (.inl (by simp))

theorem spaced_after {tokens : List Token} (h : ∀ token ∈ tokens, Regular token)
    (previous : Token) : Spaced (after previous tokens) := by
  induction tokens generalizing previous with
  | nil => exact .nil
  | cons token rest ih =>
      obtain ⟨htoken, hrest⟩ := List.forall_mem_cons.1 h
      refine .cons ?_ htoken apart_after (ih hrest token)
      rw [gap]
      split
      · simp
      · simp [isAsciiBlank]

/-- Regular tokens with the usual spaces do not run together. -/
theorem spaced_ofTokens {tokens : List Token} (h : ∀ token ∈ tokens, Regular token) :
    Spaced (ofTokens tokens) := by
  cases tokens with
  | nil => exact .nil
  | cons token rest =>
      obtain ⟨htoken, hrest⟩ := List.forall_mem_cons.1 h
      exact .cons (by simp) htoken apart_after (spaced_after hrest token)

theorem map_snd_after (previous : Token) (tokens : List Token) :
    (after previous tokens).map Prod.snd = tokens := by
  induction tokens generalizing previous with
  | nil => rfl
  | cons token rest ih => rw [after, List.map_cons, ih]

theorem map_snd_ofTokens (tokens : List Token) : (ofTokens tokens).map Prod.snd = tokens := by
  cases tokens with
  | nil => rfl
  | cons token rest => rw [ofTokens, List.map_cons, map_snd_after]

end Layout

/-- A layout without dialect literals is read back from its text, normalized or not. -/
theorem ofText_normalize_text (config : Config) {layout : Layout} (hspaced : layout.Spaced)
    (hordinary : Layout.Ordinary none (layout.map Prod.snd)) :
    Token.ofText (config.normalize (String.ofList layout.text)) = layout.map Prod.snd := by
  rw [Config.normalize, Dialect.normalize, Token.ofText, String.toList_ofList, String.toList_ofList,
    Layout.normalizeChars_text _ hspaced hordinary, hspaced.legible.scan_text]

/-- Regular tokens without dialect literals are what is read from their text, normalized or not. -/
theorem ofText_normalize_layout (config : Config) {tokens : List Token}
    (hregular : ∀ token ∈ tokens, Token.Regular token) (hordinary : Layout.Ordinary none tokens) :
    Token.ofText (config.normalize (String.ofList (Layout.ofTokens tokens).text)) = tokens := by
  rw [ofText_normalize_text config (Layout.spaced_ofTokens hregular)
    (by rwa [Layout.map_snd_ofTokens]), Layout.map_snd_ofTokens]

/-! ## The tokens of plain statements -/

open Layout Token

/-- Tokens whose text is read back, whatever token comes before them. -/
structure Canonical (tokens : List Token) : Prop where
  regular : ∀ token ∈ tokens, Regular token
  ordinary : ∀ previous, Ordinary previous tokens

/-- A token that may stand anywhere in such tokens. -/
structure Common (token : Token) : Prop where
  regular : Regular token
  admits : ∀ previous rest, Admits previous rest token

namespace Canonical

theorem nil : Canonical [] :=
  ⟨by simp, fun _ => trivial⟩

/-- A common token may stand before canonical ones. -/
theorem cons {token : Token} {rest : List Token} (h : Common token) (hrest : Canonical rest) :
    Canonical (token :: rest) :=
  ⟨List.forall_mem_cons.2 ⟨h.regular, hrest.regular⟩,
    fun previous => ⟨h.admits previous rest, hrest.ordinary _⟩⟩

theorem append {front rest : List Token} (h : ∀ token ∈ front, Common token)
    (hrest : Canonical rest) : Canonical (front ++ rest) := by
  induction front with
  | nil => exact hrest
  | cons token front ih =>
      obtain ⟨htoken, hfront⟩ := List.forall_mem_cons.1 h
      exact .cons htoken (ih hfront)

theorem of_common {tokens : List Token} (h : ∀ token ∈ tokens, Common token) :
    Canonical tokens := by
  rw [← List.append_nil tokens]
  exact .append h .nil

/-- A parenthesis after a word that is no call of a text. -/
theorem paren {word : String} {rest : List Token} (h : Common (.word word))
    (hcall : Token.isKeyword "datetime" (.word word) = true →
      ∀ content tail, rest ≠ .quotedText content :: tail) (hrest : Canonical rest) :
    Canonical (.word word :: .leftParen :: rest) := by
  constructor
  · rw [List.forall_mem_cons, List.forall_mem_cons]
    exact ⟨h.regular, .mark rfl, hrest.regular⟩
  · intro previous
    exact ⟨h.admits previous _, hcall, hrest.ordinary _⟩

/-- A number after a word may be zero or one. -/
theorem number {word : String} (h : Common (.word word)) (n : Int) :
    Canonical [.word word, .number (toString n)] := by
  constructor
  · rw [List.forall_mem_cons, List.forall_mem_singleton]
    exact ⟨h.regular, regular_toString n⟩
  · intro previous
    exact ⟨h.admits previous _, fun _ => ⟨word, rfl⟩, trivial⟩

end Canonical

theorem common_word {text : String} (identifier : isIdentifier text.toList = true)
    (notStamp : lower text.toList ≠ "current_timestamp".toList) : Common (.word text) :=
  ⟨.word identifier, fun _ _ => notStamp⟩

/-- A plain name is common. -/
theorem common_name {name : String} (h : IsPlainName name) : Common (.word name) :=
  common_word h.identifier h.notStamp

/-- A keyword of the canonical texts is common. -/
theorem common_keyword {text : String}
    (h : text ∈ ["INSERT", "INTO", "VALUES", "UPDATE", "SET", "WHERE", "DELETE", "FROM", "SELECT",
      "COUNT", "AS", "ORDER", "BY", "ASC", "DESC", "LIMIT"]) : Common (.word text) := by
  have hall : ∀ text ∈ ["INSERT", "INTO", "VALUES", "UPDATE", "SET", "WHERE", "DELETE", "FROM",
      "SELECT", "COUNT", "AS", "ORDER", "BY", "ASC", "DESC", "LIMIT"],
      isIdentifier text.toList = true ∧ lower text.toList ≠ "current_timestamp".toList := by
    decide
  exact common_word (hall text h).1 (hall text h).2

theorem common_operator (symbol : OpSymbol) : Common (.operator symbol) :=
  ⟨.operator symbol, fun _ _ => trivial⟩

theorem common_star : Common .star :=
  ⟨.mark rfl, fun _ _ => trivial⟩

theorem common_comma : Common .comma :=
  ⟨.mark rfl, fun _ _ => trivial⟩

theorem common_rightParen : Common .rightParen :=
  ⟨.mark rfl, fun _ _ => trivial⟩

/-- A plain value is written as a common token. -/
theorem common_slot {slot : Slot} (h : slot.IsPlain) : Common slot.token := by
  cases slot with
  | placeholder => exact ⟨.mark rfl, fun _ _ => trivial⟩
  | literal value =>
      cases value with
      | null => exact common_word (by decide) (by decide)
      | bool b => cases b <;> exact common_word (by decide) (by decide)
      | text content => exact ⟨.text content, fun _ _ => trivial⟩
      | float x => exact absurd h id
      | int n =>
          refine ⟨regular_toString n.toInt, fun _ _ hdigit => ?_⟩
          -- A zero or one would have to be the integer itself.
          rcases hdigit with hzero | hone
          · have hn : n.toInt = 0 := eq_of_toString_eq hzero
            exact absurd (Int64.toInt_inj.1 hn) h.1
          · have hn : n.toInt = 1 := eq_of_toString_eq hone
            exact absurd (Int64.toInt_inj.1 hn) h.2

/-- A plain condition is written in common tokens. -/
theorem common_condition {condition : Condition Slot} (h : condition.IsPlain) :
    ∀ token ∈ condition.tokens, Common token := by
  simp only [Condition.tokens, List.forall_mem_cons]
  exact ⟨common_name h.1, common_operator _, common_slot h.2, by simp⟩

theorem common_separated {α : Type} {item : α → List Token} {items : List α}
    (h : ∀ x ∈ items, ∀ token ∈ item x, Common token) :
    ∀ token ∈ separated item items, Common token := by
  cases items with
  | nil => simp [separated]
  | cons first others =>
      obtain ⟨hfirst, hothers⟩ := List.forall_mem_cons.1 h
      intro token htoken
      rw [separated, List.mem_append, List.mem_flatMap] at htoken
      rcases htoken with htoken | ⟨other, hother, htoken⟩
      · exact hfirst token htoken
      · rcases List.mem_cons.1 htoken with rfl | htoken
        · exact common_comma
        · exact hothers other hother token htoken

namespace Statement

theorem common_where {found : Option (Condition Slot)}
    (h : ∀ condition ∈ found, condition.IsPlain) : ∀ token ∈ whereTokens found, Common token := by
  cases found with
  | none => simp [whereTokens]
  | some condition =>
      rw [whereTokens, List.forall_mem_cons]
      exact ⟨common_keyword (by simp), common_condition (h condition rfl)⟩

theorem common_order {order : Option OrderBy} (h : ∀ by_ ∈ order, IsPlainName by_.column) :
    ∀ token ∈ orderTokens order, Common token := by
  cases order with
  | none => simp [orderTokens]
  | some order =>
      have hdirection : Common (.word (if order.ascending then "ASC" else "DESC")) := by
        split
        · exact common_keyword (by simp)
        · exact common_keyword (by simp)
      simp only [orderTokens, List.forall_mem_cons]
      exact ⟨common_keyword (by simp), common_keyword (by simp), common_name (h order rfl),
        hdirection, by simp⟩

theorem common_label {label : Option String} (h : ∀ name ∈ label, IsPlainName name) :
    ∀ token ∈ labelTokens label, Common token := by
  cases label with
  | none => simp [labelTokens]
  | some name =>
      simp only [labelTokens, List.forall_mem_cons]
      exact ⟨common_keyword (by simp), common_name (h name rfl), by simp⟩

theorem canonical_limit (limit : Option UInt64) : Canonical (limitTokens limit) := by
  cases limit with
  | none => exact .nil
  | some limit => exact .number (common_keyword (by simp)) limit.toNat

theorem canonical_insert {table : String} {columns : List String} {values : List Slot}
    (htable : IsPlainName table) (hne : columns ≠ [])
    (hcolumns : ∀ column ∈ columns, IsPlainName column)
    (hvalues : ∀ value ∈ values, value.IsPlain) :
    Canonical (insert table columns values).tokens := by
  have hcommonColumns : ∀ token ∈ separated (fun column => [.word column]) columns,
      Common token := by
    refine common_separated fun column hcolumn => ?_
    rw [List.forall_mem_singleton]
    exact common_name (hcolumns column hcolumn)
  have hcommonValues : ∀ token ∈ separated (fun value : Slot => [value.token]) values,
      Common token := by
    refine common_separated fun value hvalue => ?_
    rw [List.forall_mem_singleton]
    exact common_slot (hvalues value hvalue)
  have hvalueList : Canonical (.word "VALUES" :: .leftParen ::
      (separated (fun value => [value.token]) values ++ [.rightParen])) :=
    .paren (common_keyword (by simp)) (fun hcall => absurd hcall (by decide))
      (.append hcommonValues (.cons common_rightParen .nil))
  refine .cons (common_keyword (by simp)) (.cons (common_keyword (by simp))
    (.paren (common_name htable) ?_ (.append hcommonColumns (.cons common_rightParen hvalueList))))
  -- The first thing in parentheses is a name, so even a table named after the call gets no text.
  intro _ content tail heq
  cases columns with
  | nil => exact hne rfl
  | cons column others => cases heq

theorem canonical_update {table : String} {assignments : List (String × Slot)}
    {condition : Condition Slot} (htable : IsPlainName table)
    (hassignments : ∀ pair ∈ assignments, IsPlainName pair.1 ∧ pair.2.IsPlain)
    (hcondition : condition.IsPlain) : Canonical (update table assignments condition).tokens := by
  have hset : ∀ token ∈ separated
      (fun pair : String × Slot => [.word pair.1, .operator .equals, pair.2.token]) assignments,
      Common token := by
    refine common_separated fun pair hpair => ?_
    obtain ⟨hname, hvalue⟩ := hassignments pair hpair
    simp only [List.forall_mem_cons]
    exact ⟨common_name hname, common_operator _, common_slot hvalue, by simp⟩
  have hwhere : Canonical (.word "WHERE" :: condition.tokens) :=
    .cons (common_keyword (by simp)) (.of_common (common_condition hcondition))
  exact .cons (common_keyword (by simp)) (.cons (common_name htable)
    (.cons (common_keyword (by simp)) (.append hset hwhere)))

/-- A plain statement is written in canonical tokens. -/
theorem canonical_tokens {statement : Statement} (h : statement.IsPlain) :
    Canonical statement.tokens := by
  cases statement with
  | insert table columns values =>
      obtain ⟨htable, hne, -, -, hcolumns, hvalues⟩ := h
      exact canonical_insert htable hne hcolumns hvalues
  | update table assignments condition =>
      obtain ⟨htable, -, -, hassignments, hcondition⟩ := h
      exact canonical_update htable hassignments hcondition
  | delete table condition =>
      exact .cons (common_keyword (by simp)) (.cons (common_keyword (by simp))
        (.cons (common_name h.1) (.cons (common_keyword (by simp))
          (.of_common (common_condition h.2)))))
  | select table condition order limit =>
      obtain ⟨htable, hcondition, horder⟩ := h
      exact .cons (common_keyword (by simp)) (.cons common_star (.cons (common_keyword (by simp))
        (.cons (common_name htable) (.append (common_where hcondition)
          (.append (common_order horder) (canonical_limit limit))))))
  | count table label filter =>
      obtain ⟨htable, hlabel, hfilter⟩ := h
      have hcondition : ∀ condition ∈ (count table label filter).condition?,
          condition.IsPlain := by
        cases filter with
        | none => simp [condition?]
        | single condition =>
            rintro found ⟨⟩
            exact hfilter
        | beyond => exact absurd hfilter id
      exact .cons (common_keyword (by simp)) (.paren (common_keyword (by simp))
        (fun hcall => absurd hcall (by decide)) (.cons common_star (.cons common_rightParen
          (.append (common_label hlabel) (.cons (common_keyword (by simp))
            (.cons (common_name htable) (.of_common (common_where hcondition))))))))

end Statement

end ClosedSql
