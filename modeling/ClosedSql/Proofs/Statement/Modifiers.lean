import ClosedSql.Proofs.Dialect.Modifiers
import ClosedSql.Proofs.Dialect.Places
import ClosedSql.Proofs.Statement.Inlining
import ClosedSql.Proofs.Statement.Known
import ClosedSql.Proofs.Statement.Stopping

/-!
# Calls in the place of values

Where a question mark stands for a value, a call for the current time may stand instead. It is
absorbed if all its modifiers keep the instant: then the statement is bound with the literal. Any
other call comes through as it is written, and the statement is not recognized, since no reader of
an operand goes on behind a word and a parenthesis with a text.
-/

namespace ClosedSql

open Grammar Text Dialect

/-! ## Holes of a text -/

/-- The texts before and after a value of a statement, and the statement that a value makes between
them. Neither text goes on in the value. -/
structure TextHole (front back : List Char) (fill : Slot → Statement) : Prop where
  hole : ValueHole (Token.scan front) (Token.scan back) fill
  awaits : AwaitsValue front
  scan_front : ∀ {c}, c ≠ '=' → c ≠ '>' → ∀ more,
    Token.scan (front ++ c :: more) = Token.scan front ++ Token.scan (c :: more)
  no_quote : ∀ c ∈ back.head?, c ≠ '\''

/-- The tokens that a value stands behind are made of signs. -/
theorem Grammar.Opening.exists_sign {token : Token} (h : Opening token) :
    ∃ first sign, token.chars = first ++ [sign] ∧ sign ∈ openers := by
  cases h with
  | comma => exact ⟨[], ',', rfl, by decide⟩
  | paren => exact ⟨[], '(', rfl, by decide⟩
  | operator symbol =>
      cases symbol with
      | equals => exact ⟨[], '=', rfl, by decide⟩
      | doubleEquals => exact ⟨['='], '=', rfl, by decide⟩
      | bangEquals => exact ⟨['!'], '=', rfl, by decide⟩
      | angles => exact ⟨['<'], '>', rfl, by decide⟩
      | less => exact ⟨[], '<', rfl, by decide⟩
      | lessEquals => exact ⟨['<'], '=', rfl, by decide⟩
      | greater => exact ⟨[], '>', rfl, by decide⟩
      | greaterEquals => exact ⟨['>'], '=', rfl, by decide⟩

theorem Grammar.Opening.continues {token : Token} (h : Opening token) {c : Char} (hequals : c ≠ '=')
    (hgreater : c ≠ '>') : token.continues c = false := by
  cases h with
  | comma | paren => rfl
  | operator symbol => cases symbol <;> simp [Token.continues, hequals, hgreater]

section Opening

variable {left : Layout} {first : List Token} {token : Token}
  (htokens : left.map Prod.snd = first ++ [token]) (hopening : Grammar.Opening token)
  {gap : List Char} (hgap : ∀ c ∈ gap, isAsciiBlank c = true)

include htokens hopening hgap

/-- A value may begin behind what opens one. -/
theorem awaitsValue_of_opening : AwaitsValue (left.text ++ gap) := by
  obtain ⟨beginning, others, rfl, -, hothers⟩ := List.map_eq_append_iff.1 htokens
  obtain ⟨⟨between, last⟩, _, rfl, rfl, hnone⟩ := List.map_eq_cons_iff.1 hothers
  obtain ⟨chars, sign, hchars, hsign⟩ := hopening.exists_sign
  rw [List.map_eq_nil_iff] at hnone
  subst hnone
  refine ⟨Layout.text beginning ++ (between ++ chars), sign, gap, ?_, hsign, hgap⟩
  simp [Layout.text_append, Layout.text, hchars]

/-- A token that a value stands behind is read by itself, whatever value it is. -/
theorem scan_of_opening (hleft : left.Legible) {c : Char} (hequals : c ≠ '=') (hgreater : c ≠ '>')
    (more : List Char) :
    Token.scan (left.text ++ gap ++ c :: more) =
      left.map Prod.snd ++ Token.scan (c :: more) := by
  have hends : token.EndsBefore (gap ++ c :: more) := by
    cases gap with
    | nil =>
        rintro _ ⟨⟩
        exact hopening.continues hequals hgreater
    | cons d gap =>
        rintro _ ⟨⟩
        exact token.continues_delimiters d
          (Token.mem_delimiters_of_isAsciiBlank (hgap d List.mem_cons_self))
  have hlast : ∀ item ∈ left.getLast?, item.2.EndsBefore (gap ++ c :: more) := by
    intro item hitem
    have htoken : (left.map Prod.snd).getLast? = some item.2 := by
      rw [List.getLast?_map, Option.mem_def.1 hitem]
      rfl
    rw [htokens, List.getLast?_concat] at htoken
    rwa [← Option.some.inj htoken]
  rw [List.append_assoc, (hleft.before hlast).scan, Token.scan_blanks hgap]

end Opening

/-- A text begins with no quote, if its tokens are known and do not begin with a text in quotes. -/
theorem ne_quote_of_scan {text : List Char} (hknown : ∀ token ∈ Token.scan text, Known token)
    (hhead : ∀ content, (Token.scan text).head? ≠ some (.quotedText content)) :
    ∀ c ∈ text.head?, c ≠ '\'' := by
  intro c hc
  rintro rfl
  obtain ⟨rest, rfl⟩ := List.head?_eq_some_iff.1 (Option.mem_def.1 hc)
  have hblank : ¬isAsciiBlank '\'' = true := by decide
  rw [Token.scan, if_neg hblank, Token.read, if_pos rfl] at hknown hhead
  cases hread : unquote? '\'' rest with
  | some found =>
      rw [hread] at hhead
      exact hhead _ rfl
  | none =>
      rw [hread] at hknown
      exact hknown _ List.mem_cons_self _ rfl

/-- A question mark behind a closed text leaves a hole in the text of its statement. -/
theorem Grammar.Sentence.exists_textHole {front back : List Char} {statement : Statement}
    {kept : Option (Condition Slot)} (h : Sentence (Token.scan (front ++ '?' :: back)) statement)
    (hclosed : Closed front) (hkept : statement.keptCondition .apply = .ok kept) :
    ∃ fill, TextHole front back fill ∧ fill .placeholder = statement := by
  have hknown : ∀ c, .unknown c ∉ Token.scan (front ++ '?' :: back) :=
    fun c hc => h.known _ hc c rfl
  obtain ⟨hlegible, after, hafter, happend⟩ := Layout.legible_read (List.forall_mem_nil _) hknown
  obtain ⟨left, gap, right, hlayout, rfl, rfl⟩ := hlegible.exists_split hafter hclosed happend
  rw [hlayout] at hlegible
  have hleft := hlegible.of_append
  cases hlegible.suffix with
  | cons blank _ _ hright =>
  have hfront : Token.scan (left.text ++ gap) = left.map Prod.snd := hleft.scan_text_append blank
  have hback : Token.scan (right.text ++ after) = right.map Prod.snd :=
    hright.scan_text_append hafter
  rw [← Layout.map_snd_read [], hlayout, List.map_append, List.map_cons, ← hback] at h
  obtain ⟨fill, hole, hfill⟩ := h.exists_valueHole hkept
  obtain ⟨first, token, htokens, hopening⟩ := hole.exists_opening
  refine ⟨fill, ?_, hfill⟩
  constructor
  case hole => rwa [hfront]
  case awaits => exact awaitsValue_of_opening htokens hopening blank
  case scan_front =>
    intro c hequals hgreater more
    rw [scan_of_opening htokens hopening blank hleft hequals hgreater, hfront]
  case no_quote =>
    refine ne_quote_of_scan (fun token hmem => h.known token ?_) hole.head?
    exact List.mem_append_right _ (List.mem_cons_of_mem _ hmem)

namespace TextHole

variable {front back : List Char} {fill : Slot → Statement} (h : TextHole front back fill)

include h

/-- The literal for the current time fills a hole. -/
theorem sentence_now : Sentence (Token.scan (front ++ (nowChars ++ back)))
    (fill (.literal (.text Statement.nowText))) := by
  have hends : (Token.quotedText Statement.nowText).EndsBefore back := by
    intro c hc
    simpa [Token.continues] using h.no_quote c hc
  have hnow : Token.scan (nowChars ++ back) =
      .quotedText Statement.nowText :: Token.scan back :=
    (Token.Lexeme.text Statement.nowText).scan hends
  have hscan : Token.scan (front ++ (nowChars ++ back)) =
      Token.scan front ++ Token.scan (nowChars ++ back) :=
    h.scan_front (by decide) (by decide) _
  rw [hscan, hnow]
  exact h.hole.sentence (.text Statement.nowText)

/-- No call that stays as it is written fills a hole. -/
theorem refused_call (call : Dialect.Call) :
    Statement.Refused (Token.scan (front ++ (call.text ++ back))) := by
  obtain ⟨c, tail, htext, hletter⟩ := call.exists_cons
  have hcall : Token.scan (call.text ++ back) = _ := (call.legibleBefore back).scan
  have hscan : Token.scan (front ++ (call.text ++ back)) =
      Token.scan front ++ (call.layout.map Prod.snd ++ Token.scan back) := by
    rw [← hcall, htext]
    exact h.scan_front (hletter.ne (by decide)) (hletter.ne (by decide)) _
  rw [hscan]
  refine Statement.refused_of_hole h.hole ?_ ?_
  · -- a word that is no literal stands only before a pair of parentheses with nothing between them
    have hliteral : Statement.wordLiteral? call.word = none := by
      rw [Statement.wordLiteral?, call.isDatetime]
      rfl
    rw [Dialect.Call.layout, List.map_cons, call.tokens]
    simp only [List.cons_append, Statement.operand, hliteral]
  · rw [Dialect.Call.layout, List.map_cons, List.forall_mem_cons]
    constructor
    · rw [Token.isKeyword, Token.isKeyword, sameIgnoringCase, sameIgnoringCase, call.isDatetime]
      decide
    · intro token hmem
      rcases call.of_mem_arguments hmem with hmark | ⟨content, rfl⟩
      · cases token with
        | word => cases hmark
        | _ => exact ⟨rfl, rfl⟩
      · exact ⟨rfl, rfl⟩

end TextHole

/-- Refused tokens are not bound where conditions are applied. -/
theorem Statement.Refused.bind_eq {config : Config} (hpolicy : config.countPolicy = .apply)
    {text : String} (h : Refused (Token.ofText (config.normalize text))) (params : List Value) :
    config.bind text params = .error .notRecognized := by
  rw [Config.bind, Statement.ofText]
  rcases h with hread | ⟨table, label, count, hread⟩
  · rw [hread]
  · rw [hread]
    dsimp only
    rw [Statement.bind, hpolicy]
    rfl

/-! ## Calls -/

/-- The call as a string. -/
def Dialect.Call.written (call : Dialect.Call) : String :=
  String.ofList call.text

def Config.questionMarks (config : Config) (text : String) : Nat :=
  (Token.ofText (config.normalize text)).count .placeholder

/-- A text is normalized character by character. -/
theorem Config.toList_normalize (text : String) :
    (Config.normalize {} text).toList = normalizeChars nowChars text.toList :=
  String.toList_ofList

/-- A question mark that a value is bound to leaves a hole in the text, and a call in its place is
normalized by itself. -/
theorem Config.exists_textHole {before after : String} (hclosed : Closed before.toList)
    {params : List Value} {bound : BoundStatement}
    (hbind : Config.bind {} (before ++ "?" ++ after) params = .ok bound) :
    ∃ fill,
      TextHole (Config.normalize {} before).toList (Config.normalize {} after).toList fill ∧
      (fill .placeholder).bind {} params = .ok bound ∧
      ∀ call : Dialect.Call, Config.normalize {} (before ++ call.written ++ after) =
        Config.normalize {} before ++ (if call.Keeps then "'now()'" else call.written) ++
          Config.normalize {} after := by
  obtain ⟨statement, hread, hstatement⟩ := Config.bind_eq_ok_iff.1 hbind
  obtain ⟨kept, hkept, -⟩ := Statement.bind_eq_ok_iff_numbered.1 hstatement
  obtain ⟨front, hfront, hnormal, hplace⟩ := hclosed.normalizeChars_placeholder after.toList
  have hsentence : Sentence
      (Token.scan (front ++ '?' :: normalizeChars nowChars after.toList)) statement := by
    rw [Statement.ofText, Statement.ofTokens_eq_ok_iff, Token.ofText,
      Config.toList_normalize] at hread
    rw [← hnormal]
    simpa using hread
  obtain ⟨fill, hole, rfl⟩ := hsentence.exists_textHole hfront hkept
  obtain ⟨rfl, sign, hcut⟩ := hplace hole.awaits
  refine ⟨fill, ?_, hstatement, fun call => ?_⟩
  · rwa [Config.toList_normalize, Config.toList_normalize]
  · obtain ⟨c, tail, htext, hletter⟩ := call.exists_cons
    have hreplaced := call.replaced sign after.toList
    have happend := hcut (stands_of_isAsciiWord hletter.isAsciiWord) (tail ++ after.toList)
    rw [← List.cons_append, ← htext, hreplaced] at happend
    have hwritten : call.written.toList = call.text := String.toList_ofList
    have hput : (if call.Keeps then "'now()'" else call.written).toList =
        if call.Keeps then nowChars else call.text := by
      split
      · rfl
      · exact hwritten
    rw [← String.toList_inj]
    simp only [String.toList_append, Config.toList_normalize, hput, hwritten, List.append_assoc,
      happend]

/-- In the place of a value, a call for the current time is absorbed if all its modifiers keep the
instant: the literal takes the place of the operand, and no parameter is taken for it. Any other
call is left as it is written, and the statement is not recognized. -/
theorem Config.bind_call (call : Dialect.Call) {before after : String}
    (hclosed : Closed before.toList) {params : List Value} {bound : BoundStatement}
    (hbind : Config.bind {} (before ++ "?" ++ after) params = .ok bound) :
    (call.Keeps →
      .param (Config.questionMarks {} before) ∈ bound.operands ∧
      Config.normalize {} (before ++ call.written ++ after) =
        Config.normalize {} before ++ "'now()'" ++ Config.normalize {} after ∧
      Config.bind {} (before ++ call.written ++ after)
          (params.eraseIdx (Config.questionMarks {} before)) =
        .ok (bound.inlined (Config.questionMarks {} before) (.text Statement.nowText))) ∧
    (¬call.Keeps →
      Config.normalize {} (before ++ call.written ++ after) =
        Config.normalize {} before ++ call.written ++ Config.normalize {} after ∧
      ∀ others, Config.bind {} (before ++ call.written ++ after) others =
        .error .notRecognized) := by
  obtain ⟨fill, hole, hstatement, hnormal⟩ := Config.exists_textHole hclosed hbind
  have hcall := hnormal call
  constructor
  · intro hkeeps
    rw [if_pos hkeeps] at hcall
    obtain ⟨hmem, hliteral⟩ :=
      Statement.bind_literal hole.hole hstatement (.text Statement.nowText)
    refine ⟨hmem, hcall, Config.bind_eq_ok_iff.2 ⟨_, ?_, hliteral⟩⟩
    have hnow : "'now()'".toList = nowChars := rfl
    rw [Statement.ofText, Statement.ofTokens_eq_ok_iff, Token.ofText, hcall, String.toList_append,
      String.toList_append, hnow, List.append_assoc]
    exact hole.sentence_now
  · intro hkeeps
    rw [if_neg hkeeps] at hcall
    refine ⟨hcall, Statement.Refused.bind_eq rfl ?_⟩
    rw [Token.ofText, hcall, String.toList_append, String.toList_append, Dialect.Call.written,
      String.toList_ofList, List.append_assoc]
    exact hole.refused_call call

def Dialect.zonedCall : Dialect.Call where
  word := "DateTime"
  arguments := [([' '], .leftParen), ([], .quotedText "now"), (['\n'], .comma),
    ([' '], .quotedText "UTC"), ([], .rightParen)]
  modifiers := ["UTC"]
  isDatetime := rfl
  tokens := rfl
  blanks := by decide

def Dialect.shiftedCall : Dialect.Call where
  word := "datetime"
  arguments := [([], .leftParen), ([], .quotedText "now"), ([], .comma), ([], .quotedText "utc"),
    ([], .comma), ([' '], .quotedText "+1 day"), ([], .rightParen)]
  modifiers := ["utc", "+1 day"]
  isDatetime := rfl
  tokens := rfl
  blanks := by decide

theorem Config.bind_call_assignment :
    Closed "UPDATE notes SET title = ?, due = ".toList ∧
    zonedCall.written = "DateTime ('now'\n, 'UTC')" ∧ zonedCall.Keeps ∧
    shiftedCall.written = "datetime('now','utc', '+1 day')" ∧ ¬shiftedCall.Keeps ∧
    ∃ bound,
      Config.bind {} ("UPDATE notes SET title = ?, due = " ++ "?" ++ " WHERE id = ?")
        [.text "t", .null, .int 7] = .ok bound ∧
      Config.bind {} ("UPDATE notes SET title = ?, due = " ++ zonedCall.written ++ " WHERE id = ?")
        [.text "t", .int 7] = .ok (bound.inlined 1 (.text "now()")) ∧
      ∀ others, Config.bind {}
        ("UPDATE notes SET title = ?, due = " ++ shiftedCall.written ++ " WHERE id = ?") others =
          .error .notRecognized := by
  have hclosed : Closed "UPDATE notes SET title = ?, due = ".toList := by decide
  have hkeeps : zonedCall.Keeps := by decide
  have hshifts : ¬shiftedCall.Keeps := by decide
  have hmarks : Config.questionMarks {} "UPDATE notes SET title = ?, due = " = 1 := by
    decide +kernel
  refine ⟨hclosed, by decide, hkeeps, by decide, hshifts, ?_⟩
  cases hbind : Config.bind {} ("UPDATE notes SET title = ?, due = " ++ "?" ++ " WHERE id = ?")
      [.text "t", .null, .int 7] with
  | error reason =>
      have hbinds : (Config.bind {}
          ("UPDATE notes SET title = ?, due = " ++ "?" ++ " WHERE id = ?")
          [.text "t", .null, .int 7]).toOption.isSome = true := by
        decide +kernel
      rw [hbind] at hbinds
      cases hbinds
  | ok bound =>
      obtain ⟨-, -, habsorbed⟩ := (Config.bind_call zonedCall hclosed hbind).1 hkeeps
      obtain ⟨-, hrefused⟩ := (Config.bind_call shiftedCall hclosed hbind).2 hshifts
      rw [hmarks] at habsorbed
      exact ⟨bound, rfl, habsorbed, hrefused⟩

end ClosedSql
