import ClosedSql.Proofs.Dialect.Guides
import ClosedSql.Proofs.Statement.Canonical

/-!
# Selections with one comparison

The text that selects the rows of a table where a column compares with an operand, and what it is
read as once it is normalized: the operand is kept, unless it is a zero or one that stands for a
truth value. A name that spells the current time is none any more.
-/

namespace ClosedSql

open Text Dialect

/-! ## Layouts with blanks between all tokens -/

namespace Layout

variable {layout : Layout}

theorem nowSpelling?_of_ne_paren (token : Token) {rest : List Token}
    (h : rest.head? ≠ some .leftParen) :
    Token.nowSpelling? (token :: rest) =
      if token.isKeyword "current_timestamp" then some 0 else none := by
  have hcall : Token.callArguments? rest = none := by
    cases rest with
    | nil => rfl
    | cons next rest =>
        cases next with
        | leftParen => exact absurd rfl h
        | _ => rfl
  cases token with
  | word text =>
      have hlower : lower "current_timestamp".toList = "current_timestamp".toList := by decide
      rw [Token.nowSpelling?, Token.isKeyword, hcall, ite_self]
      simp only [sameIgnoringCase_iff, hlower]
  | _ => rfl

theorem head?_ne_paren (h : ∀ item ∈ layout, item.1 ≠ [] ∧ item.2 ≠ .leftParen) :
    (layout.map Prod.snd).head? ≠ some .leftParen := by
  cases layout with
  | nil => exact nofun
  | cons item rest =>
      intro heq
      exact (h item List.mem_cons_self).2 (Option.some.inj heq)

/-- A token that no parenthesis follows is replaced only if it is the word for the current time. -/
theorem putNow_cons (stamp : Token) {inWord : Bool} {gap : List Char} {token : Token}
    (hgap : (inWord && gap.isEmpty) = false) (h : (layout.map Prod.snd).head? ≠ some .leftParen) :
    ∃ goesOn, putNow stamp inWord ((gap, token) :: layout) =
      (gap, token.stamped stamp) :: putNow stamp goesOn layout := by
  have hspelled : spelled? inWord ((gap, token) :: layout) =
      if token.isKeyword "current_timestamp" then some 0 else none := by
    rw [spelled?, hgap, if_neg Bool.false_ne_true, nowSpelling?_of_ne_paren token h]
  rw [putNow, hspelled, Token.stamped]
  by_cases hword : token.isKeyword "current_timestamp" = true
  · rw [if_pos hword, if_pos hword]
    exact ⟨false, rfl⟩
  · rw [if_neg hword, if_neg hword]
    exact ⟨token.endsInWord, rfl⟩

/-- Without calls, only words for the current time are replaced. -/
theorem putNow_of_gaps (stamp : Token)
    (h : ∀ item ∈ layout, item.1 ≠ [] ∧ item.2 ≠ .leftParen) (inWord : Bool) :
    putNow stamp inWord layout = layout.stamped stamp := by
  induction layout generalizing inWord with
  | nil =>
      rw [putNow]
      rfl
  | cons item rest ih =>
      obtain ⟨gap, token⟩ := item
      obtain ⟨⟨hgap, -⟩, hrest⟩ := List.forall_mem_cons.1 h
      have hblank : (inWord && gap.isEmpty) = false := by simp [show gap ≠ [] from hgap]
      obtain ⟨goesOn, hstep⟩ : ∃ goesOn, putNow stamp inWord ((gap, token) :: rest) =
          (gap, token.stamped stamp) :: putNow stamp goesOn rest :=
        putNow_cons stamp hblank (head?_ne_paren hrest)
      rw [hstep, ih hrest]
      rfl

theorem textsApart_of_gaps (h : ∀ item ∈ layout, item.1 ≠ []) (front : List Token) :
    textsApart front layout = true := by
  induction layout generalizing front with
  | nil => rfl
  | cons item rest ih =>
      obtain ⟨gap, token⟩ := item
      obtain ⟨hgap, hrest⟩ := List.forall_mem_cons.1 h
      have hblank : gap.isEmpty = false := by simpa using hgap
      rw [textsApart, hblank, ih hrest]
      rfl

/-- A layout that begins with a keyword and has a blank before every other token. -/
def spread (keyword : String) (tokens : List Token) : Layout :=
  ([], .word keyword) :: tokens.map fun token => ([' '], token)

theorem spaced_spread {keyword : String} {tokens : List Token}
    (hkeyword : isIdentifier keyword.toList = true) (h : ∀ token ∈ tokens, Token.Regular token) :
    Spaced (spread keyword tokens) := by
  have hblank : ∀ c ∈ [' '], isAsciiBlank c = true := by decide
  have hrest : Spaced (tokens.map fun token => ([' '], token)) ∧
      Apart (tokens.map fun token => ([' '], token)) := by
    induction tokens with
    | nil => exact ⟨.nil, trivial⟩
    | cons token tokens ih =>
        obtain ⟨htoken, htokens⟩ := List.forall_mem_cons.1 h
        obtain ⟨hspaced, happart⟩ := ih htokens
        exact ⟨.cons hblank htoken (.inr happart) hspaced, .inl (List.cons_ne_nil _ _)⟩
  exact .cons (List.forall_mem_nil _) (.word hkeyword) (.inr hrest.2) hrest.1

/-- What a statement that is spread out is read as. -/
theorem ofText_normalize_spread {keyword content : String} {tokens : List Token}
    (hkeyword : isIdentifier keyword.toList = true)
    (hstamp : Token.isKeyword "current_timestamp" (.word keyword) = false)
    (h : ∀ token ∈ tokens, Token.Regular token ∧ token ≠ .leftParen) :
    Token.ofText (Dialect.normalize (String.ofList (Token.quotedText content).chars)
        (String.ofList (spread keyword tokens).text)) =
      (putFlags false (spread keyword
        (tokens.map fun token => token.stamped (.quotedText content)))).map Prod.snd := by
  have hgaps : ∀ item ∈ tokens.map fun token => ([' '], token),
      item.1 ≠ [] ∧ item.2 ≠ .leftParen := by
    intro item hitem
    obtain ⟨token, htoken, rfl⟩ := List.mem_map.1 hitem
    exact ⟨List.cons_ne_nil _ _, (h token htoken).2⟩
  have hapart : textsApart [] (spread keyword tokens) = true := by
    rw [spread, textsApart, textsApart_of_gaps fun item hitem => (hgaps item hitem).1]
    rfl
  have hspaced := spaced_spread hkeyword fun token htoken => (h token htoken).1
  obtain ⟨goesOn, hstep⟩ : ∃ goesOn, putNow (.quotedText content) false (spread keyword tokens) =
      ([], (Token.word keyword).stamped (.quotedText content)) ::
        putNow (.quotedText content) goesOn (tokens.map fun token => ([' '], token)) :=
    putNow_cons _ (Bool.false_and _) (head?_ne_paren hgaps)
  rw [← List.append_nil (spread keyword tokens).text,
    ofText_normalize_append hspaced.legible (List.forall_mem_nil _) hapart, hstep,
    putNow_of_gaps _ hgaps, stamped, List.map_map, Token.stamped, hstamp,
    if_neg Bool.false_ne_true, spread, List.map_map]
  rfl

end Layout

/-! ## The text -/

/-- Select the rows of a table where a column compares with an operand. -/
def RawText.comparison (table column : String) (symbol : OpSymbol) (operand : Token) : String :=
  "SELECT * FROM " ++ table ++ " WHERE " ++ column ++ " " ++ symbol.text ++ " " ++
    String.ofList operand.chars

namespace Statement

theorem toList_comparison (table column : String) (symbol : OpSymbol) (operand : Token) :
    (RawText.comparison table column symbol operand).toList =
      (Layout.spread "SELECT" [.star, .word "FROM", .word table, .word "WHERE", .word column,
        .operator symbol, operand]).text := by
  unfold RawText.comparison Layout.spread
  simp only [List.map_cons, List.map_nil, Layout.text, String.toList_append, String.toList_ofList]
  generalize operand.chars = chars
  simp [Token.chars]

/-- Whether an operand after an operator is taken for a truth value: a zero or one after one that
ends in an equals sign. -/
def standsForTruth (symbol : OpSymbol) (operand : Token) : Bool :=
  (operand == .number "0" || operand == .number "1") && symbol.text.toList.getLast? == some '='

def readAs (symbol : OpSymbol) (operand : Token) : Token :=
  if standsForTruth symbol operand then operand.flag?.getD operand else operand

/-- A value may begin after an operator that ends in an equals sign. -/
theorem opensValue_operator (symbol : OpSymbol) :
    (Token.operator symbol).opensValue = (symbol.text.toList.getLast? == some '=') := by
  cases symbol <;> decide

/-- The tokens of the normalized text. -/
theorem ofText_normalize_comparison {table column : String}
    (htable : isIdentifier table.toList = true) (hcolumn : isIdentifier column.toList = true)
    (symbol : OpSymbol) {operand : Token} (hregular : operand.Regular)
    (hparen : operand ≠ .leftParen) (hword : ∀ text, operand ≠ .word text) :
    Token.ofText (({} : Config).normalize (RawText.comparison table column symbol operand)) =
      [.word "SELECT", .star, .word "FROM", (Token.word table).stamped (.quotedText "now()"),
        .word "WHERE", (Token.word column).stamped (.quotedText "now()"), .operator symbol,
        readAs symbol operand] := by
  have hstamp : ({} : Config).nowLiteral = String.ofList (Token.quotedText "now()").chars := by
    decide
  have htext : RawText.comparison table column symbol operand =
      String.ofList (Layout.spread "SELECT" [.star, .word "FROM", .word table, .word "WHERE",
        .word column, .operator symbol, operand]).text := by
    rw [← toList_comparison, String.ofList_toList]
  have htokens : ∀ token ∈ [.star, .word "FROM", .word table, .word "WHERE", .word column,
      .operator symbol, operand], Token.Regular token ∧ token ≠ .leftParen := by
    simp only [List.forall_mem_cons]
    have hplain : ∀ word : String, Token.word word ≠ .leftParen := by simp
    exact ⟨⟨.mark rfl, by decide⟩, ⟨.word (by decide), hplain _⟩, ⟨.word htable, hplain _⟩,
      ⟨.word (by decide), hplain _⟩, ⟨.word hcolumn, hplain _⟩, ⟨.operator symbol, by simp⟩,
      ⟨hregular, hparen⟩, List.forall_mem_nil _⟩
  have hoperand : operand.stamped (.quotedText "now()") = operand := by
    rw [Token.stamped, if_neg]
    cases operand with
    | word text => exact absurd rfl (hword text)
    | _ => exact Bool.false_ne_true
  have hstamped : ([.star, .word "FROM", .word table, .word "WHERE", .word column, .operator symbol,
      operand].map fun token => token.stamped (.quotedText "now()")) =
        [.star, .word "FROM", (Token.word table).stamped (.quotedText "now()"), .word "WHERE",
          (Token.word column).stamped (.quotedText "now()"), .operator symbol, operand] := by
    simp only [List.map_cons, List.map_nil, hoperand]
    rfl
  -- only the operand can be a number
  have hkept : ∀ (opens : Bool) (token : Token) (rest : Layout), (∀ text, token ≠ .number text) →
      Layout.taken opens token rest = token := by
    intro opens token rest hnumber
    exact Layout.taken_eq_self fun hflag => (hflag.elim (hnumber _) (hnumber _)).elim
  have hname : ∀ name text, (Token.word name).stamped (.quotedText "now()") ≠ .number text := by
    intro name text
    rw [Token.stamped]
    split <;> simp
  have hlast : Layout.taken (Token.operator symbol).opensValue operand [] =
      readAs symbol operand := by
    rw [opensValue_operator, readAs, standsForTruth, Layout.taken, Layout.endsValue, Bool.and_true]
    by_cases hflag : operand = .number "0" ∨ operand = .number "1"
    · rcases hflag with rfl | rfl <;> rfl
    · rw [Token.flag?_eq_none hflag, Option.getD_none, ite_self, ite_self]
  rw [Config.normalize, hstamp, htext, Layout.ofText_normalize_spread (by decide) (by decide) htokens,
    hstamped]
  simp only [Layout.spread, List.map_cons, List.map_nil, Layout.putFlags, hlast]
  have hnumber : ∀ word text : String, Token.word word ≠ .number text := by simp
  rw [hkept _ (.word "SELECT") _ (hnumber _), hkept _ .star _ (by simp),
    hkept _ (.word "FROM") _ (hnumber _), hkept _ _ _ (hname table),
    hkept _ (.word "WHERE") _ (hnumber _), hkept _ _ _ (hname column),
    hkept _ (.operator symbol) _ (by simp)]

/-! ## Reading the text -/

theorem ofTokens_comparison {table column operand : Token} (symbol : OpSymbol) {slot : Slot}
    (hoperand : Statement.operand [operand] = .ok (slot, [])) :
    ofTokens [.word "SELECT", .star, .word "FROM", table, .word "WHERE", column, .operator symbol,
        operand] =
      match name? table, name? column with
      | some name, some found => .ok (.select name (some ⟨found, symbol.op, slot⟩) none none)
      | _, _ => .error .notRecognized := by
  have hselect : Token.isKeyword "select" (.word "SELECT") = true := by decide
  have hfrom : Token.isKeyword "from" (.word "FROM") = true := by decide
  have hwhere : Token.isKeyword "where" (.word "WHERE") = true := by decide
  have hread : ofTokens [.word "SELECT", .star, .word "FROM", table, .word "WHERE", column,
      .operator symbol, operand] =
      selectForm [.star, .word "FROM", table, .word "WHERE", column, .operator symbol, operand] := by
    rw [ofTokens, if_pos hselect]
    rintro _ _ ⟨⟩
  rw [hread, selectForm, mark, if_pos rfl, ok_bind, keyword, if_pos hfrom, ok_bind, name]
  cases htable : name? table with
  | none => rfl
  | some found =>
      have hclause : whereClause [.word "WHERE", column, .operator symbol, operand] =
          (name? column).elim (.error .notRecognized) fun other =>
            .ok (some ⟨other, symbol.op, slot⟩, []) := by
        rw [whereClause, startsWith, if_pos hwhere, List.drop_one, List.tail_cons, condition, name]
        cases hcolumn : name? column with
        | none => rfl
        | some other =>
            simp only [ok_bind, hoperand]
            rfl
      simp only [ok_bind, hclause]
      cases hcolumn : name? column with
      | none => rfl
      | some other => rfl

/-- Of the identifiers, those that are plain stand for themselves, and the others are no names. -/
theorem name?_stamped {word content : String} (h : isIdentifier word.toList = true) :
    name? ((Token.word word).stamped (.quotedText content)) =
      if IsPlainName word then some word else none := by
  have hlower : lower "current_timestamp".toList = "current_timestamp".toList := by decide
  rw [Token.stamped]
  by_cases hstamp : Token.isKeyword "current_timestamp" (.word word) = true
  · have hplain : ¬IsPlainName word := by
      intro hplain
      rw [Token.isKeyword, sameIgnoringCase_iff, hlower] at hstamp
      exact hplain.notStamp hstamp
    rw [if_pos hstamp, if_neg hplain]
    rfl
  · have hnotStamp : lower word.toList ≠ "current_timestamp".toList := by
      intro heq
      rw [Token.isKeyword, sameIgnoringCase_iff, hlower] at hstamp
      exact hstamp heq
    rw [if_neg hstamp, name?]
    cases hreserved : isReserved word with
    | true =>
        have hplain : ¬IsPlainName word := fun hplain => by
          rw [hplain.free] at hreserved
          cases hreserved
        rw [if_pos rfl, if_neg hplain]
    | false => rw [if_neg Bool.false_ne_true, if_pos ⟨h, hreserved, hnotStamp⟩]

/-- What the text is read as, given what the operand is taken for. -/
theorem ofText_comparison {table column : String} (htable : isIdentifier table.toList = true)
    (hcolumn : isIdentifier column.toList = true) {symbol : OpSymbol} {operand : Token}
    (hregular : operand.Regular) (hparen : operand ≠ .leftParen)
    (hword : ∀ text, operand ≠ .word text) {slot : Slot}
    (hslot : Statement.operand [readAs symbol operand] = .ok (slot, [])) :
    ofText (({} : Config).normalize (RawText.comparison table column symbol operand)) =
      if IsPlainName table ∧ IsPlainName column then
        .ok (.select table (some ⟨column, symbol.op, slot⟩) none none)
      else .error .notRecognized := by
  rw [ofText, ofText_normalize_comparison htable hcolumn symbol hregular hparen hword,
    ofTokens_comparison symbol hslot, name?_stamped htable, name?_stamped hcolumn]
  by_cases hboth : IsPlainName table ∧ IsPlainName column
  · rw [if_pos hboth, if_pos hboth.1, if_pos hboth.2]
  · rw [if_neg hboth]
    by_cases hplain : IsPlainName table
    · rw [if_pos hplain, if_neg fun hother => hboth ⟨hplain, hother⟩]
    · rw [if_neg hplain]

/-! ## Operands -/

/-- The ways to write an integer or a text. -/
inductive Literal : Token → Value → Prop
  | int {written : String} {n : Int64} (regular : Token.Regular (.number written))
      (reads : Number.readInt64? written.toList = some n) : Literal (.number written) (.int n)
  | text (content : String) : Literal (.quotedText content) (.text content)

theorem Literal.regular {token : Token} {value : Value} (h : Literal token value) :
    token.Regular := by
  cases h with
  | int regular _ => exact regular
  | text content => exact .text content

/-- An integer or a text is read as itself. -/
theorem Literal.operand {token : Token} {value : Value} (h : Literal token value) :
    Statement.operand [token] = .ok (.literal value, []) := by
  cases h with
  | int regular reads =>
      exact operand_of_term (.integer (readInt64?_eq_some_iff.1 reads)) []
  | text content => rfl

/-- A literal that is not taken for a truth value is read as it is. -/
theorem Literal.operand_readAs {token : Token} {value : Value} (h : Literal token value)
    {symbol : OpSymbol} (hkept : standsForTruth symbol token = false) :
    Statement.operand [readAs symbol token] = .ok (.literal value, []) := by
  rw [readAs, hkept, if_neg Bool.false_ne_true, h.operand]

/-- A literal that is taken for a truth value is an integer that counts as one. -/
theorem Literal.operand_of_standsForTruth {token : Token} {value : Value} (h : Literal token value)
    {symbol : OpSymbol} (htruth : standsForTruth symbol token = true) :
    ∃ truth : Bool, value = .int (Value.ofBit truth) ∧
      Statement.operand [readAs symbol token] = .ok (.literal (.bool truth), []) := by
  have hdigit : token = .number "0" ∨ token = .number "1" := by
    rw [standsForTruth, Bool.and_eq_true, Bool.or_eq_true, beq_iff_eq, beq_iff_eq] at htruth
    exact htruth.1
  rw [readAs, htruth, if_pos rfl]
  rcases hdigit with rfl | rfl
  · refine ⟨false, ?_, operand_of_term (.false (by unfold Grammar.Keyword; decide)) []⟩
    cases h with
    | int _ reads =>
        obtain rfl : (0 : Int64) = _ := Option.some.inj reads
        rfl
  · refine ⟨true, ?_, operand_of_term (.true (by unfold Grammar.Keyword; decide)) []⟩
    cases h with
    | int _ reads =>
        obtain rfl : (1 : Int64) = _ := Option.some.inj reads
        rfl

end Statement

end ClosedSql
