import ClosedSql.Proofs.Dialect.Closed
import ClosedSql.Proofs.Token.Reading

/-!
# Question marks behind closed texts

A question mark behind a text whose quotes are closed is a token of its own: no token reaches across
the end of the text, as only a text in quotes could hold the question mark. So the layout of the
whole splits there.
-/

namespace ClosedSql

open Text Dialect

namespace Token

/-! ## Quotes of a token -/

section Quoted

variable {quote : Char} (isQuote : IsQuote quote)

include isQuote

theorem openQuote_doubled (rest : List Char) :
    openQuote (some quote) (quote :: quote :: rest) = openQuote (some quote) rest := by
  have hcloses : quoteAfter (some quote) quote = none := if_pos rfl
  have hopens : quoteAfter none quote = some quote := if_pos isQuote
  rw [openQuote_cons, openQuote_cons, hcloses, hopens]

/-- A text with its quotes doubled is closed in quotes. -/
theorem closed_enquote (content : List Char) : Closed (enquote quote content) := by
  have hopens : quoteAfter none quote = some quote := if_pos isQuote
  rw [Closed, enquote, List.cons_append, openQuote_cons, hopens]
  induction content with
  | nil => exact if_pos rfl
  | cons c content ih =>
      rw [double]
      split
      · rwa [List.cons_append, List.cons_append, openQuote_doubled isQuote]
      · next hc =>
          have hother : quoteAfter (some quote) c = some quote := if_neg hc
          rwa [List.cons_append, openQuote_cons, hother]

/-- The quote of a text in quotes is open before every other character of it. -/
theorem openQuote_of_enquote_eq {c : Char} (hc : c ≠ quote) {content front tail : List Char}
    (h : double quote content ++ [quote] = front ++ c :: tail) :
    openQuote (some quote) front = some quote := by
  induction content generalizing front with
  | nil =>
      cases front with
      | nil =>
          cases h
          exact absurd rfl hc
      | cons d front => simp [double] at h
  | cons d content ih =>
      rw [double] at h
      split at h
      · rcases front with _ | ⟨first, _ | ⟨second, front⟩⟩
        · cases h
          exact absurd rfl hc
        · cases h
          exact absurd rfl hc
        · obtain ⟨hfirst, hrest⟩ := List.cons.inj h
          obtain ⟨hsecond, hmore⟩ := List.cons.inj hrest
          rw [← hfirst, ← hsecond, openQuote_doubled isQuote]
          exact ih hmore
      · next hd =>
          cases front with
          | nil => rfl
          | cons e front =>
              obtain ⟨hfirst, hmore⟩ := List.cons.inj h
              have hother : quoteAfter (some quote) d = some quote := if_neg hd
              rw [← hfirst, openQuote_cons, hother]
              exact ih hmore

/-- No beginning of a text in quotes is closed, unless a quote follows. -/
theorem not_closed_of_enquote_eq {c : Char} (hc : c ≠ quote) {content front tail : List Char}
    (h : enquote quote content = front ++ c :: tail) : ¬Closed front := by
  have hopens : quoteAfter none quote = some quote := if_pos isQuote
  rw [enquote, List.cons_append] at h
  cases front with
  | nil => exact absurd (List.cons.inj h).1.symm hc
  | cons d front =>
      obtain ⟨hfirst, hmore⟩ := List.cons.inj h
      rw [Closed, ← hfirst, openQuote_cons, hopens, openQuote_of_enquote_eq isQuote hc hmore]
      exact Option.some_ne_none _

end Quoted

def isQuoted : Token → Bool
  | quotedName _ | quotedText _ => true
  | _ => false

/-- Only texts and names in quotes have quotes in them. -/
theorem Lexeme.not_isQuote {token : Token} (h : Lexeme token) (hquoted : token.isQuoted = false) :
    ∀ c ∈ token.chars, ¬IsQuote c := by
  have hsigns : ∀ c ∈ signs, ¬IsQuote c := by decide
  cases h with
  | word identifier =>
      obtain ⟨c, tail, hchars, hc, htail⟩ := exists_cons_of_isIdentifier identifier
      rw [chars, hchars, List.forall_mem_cons]
      refine ⟨not_isQuote_of_isWord (isWord_of_isAsciiWord hc.isAsciiWord), fun d hd => ?_⟩
      exact not_isQuote_of_isWord (isWord_of_isAsciiWord (htail d hd))
  | name content => cases hquoted
  | text content => cases hquoted
  | number numeral =>
      intro c hc
      rcases numeral.isNumeric c hc with hdigit | rfl | rfl
      · exact not_isQuote_of_isWord (isWord_of_isAsciiWord (isAsciiWord_of_isDigit hdigit))
      · decide
      · decide
  | operator symbol => cases symbol <;> decide
  | mark isMark =>
      obtain ⟨c, hchars, -, hc⟩ := exists_of_isMark isMark
      rw [hchars, List.forall_mem_singleton]
      exact hsigns c hc

/-- Every token closes its quotes. -/
theorem Lexeme.closed {token : Token} (h : Lexeme token) : Closed token.chars := by
  cases hquoted : token.isQuoted with
  | false => exact closed_of_free (h.not_isQuote hquoted)
  | true =>
      cases token with
      | quotedName content => exact closed_enquote (.inr rfl) _
      | quotedText content => exact closed_enquote (.inl rfl) _
      | _ => cases hquoted

/-- A token that holds a question mark behind a closed text is the question mark. -/
theorem Lexeme.eq_placeholder {token : Token} (h : Lexeme token) {front tail : List Char}
    (hclosed : Closed front) (hchars : token.chars = front ++ '?' :: tail) :
    front = [] ∧ token = .placeholder := by
  have hmem : '?' ∈ token.chars := by
    rw [hchars]
    exact List.mem_append_right _ List.mem_cons_self
  cases h with
  | word identifier =>
      obtain ⟨c, letters, hword, hc, hletters⟩ := exists_cons_of_isIdentifier identifier
      rw [chars, hword] at hmem
      rcases List.mem_cons.1 hmem with rfl | hmem
      · exact absurd hc.isAsciiWord (by decide)
      · exact absurd (hletters _ hmem) (by decide)
  | name content => exact absurd hclosed (not_closed_of_enquote_eq (.inr rfl) (by decide) hchars)
  | text content => exact absurd hclosed (not_closed_of_enquote_eq (.inl rfl) (by decide) hchars)
  | number numeral =>
      rcases numeral.isNumeric '?' hmem with hdigit | heq | heq
      · exact absurd hdigit (by decide)
      · exact absurd heq (by decide)
      · exact absurd heq (by decide)
  | operator symbol => cases symbol <;> exact absurd hmem (by decide)
  | mark isMark =>
      obtain ⟨c, hsingle, hmark, -⟩ := exists_of_isMark isMark
      rw [hsingle] at hchars
      cases front with
      | nil =>
          cases hchars
          cases hmark
          exact ⟨rfl, rfl⟩
      | cons d front => simp at hchars

end Token

namespace Layout

/-- Where two lists meet, an element of the whole is in one of them. -/
theorem append_eq_append_cons {α : Type} {first rest left right : List α} {x : α}
    (h : first ++ rest = left ++ x :: right) :
    (∃ more, left = first ++ more ∧ rest = more ++ x :: right) ∨
      ∃ more, first = left ++ x :: more ∧ right = more ++ rest := by
  rcases List.append_eq_append_iff.1 h with hleft | ⟨more, hfirst, hmore⟩
  · exact .inl hleft
  · cases more with
    | nil => exact .inl ⟨[], by rw [hfirst, List.append_nil, List.append_nil], hmore.symm⟩
    | cons y more =>
        cases hmore
        exact .inr ⟨more, hfirst, rfl⟩

theorem append_eq_append_cons_of_not_mem {α : Type} {first rest left right : List α} {x : α}
    (h : first ++ rest = left ++ x :: right) (hx : x ∉ first) :
    ∃ more, left = first ++ more ∧ rest = more ++ x :: right := by
  refine (append_eq_append_cons h).resolve_right ?_
  rintro ⟨more, rfl, -⟩
  exact hx (List.mem_append_right _ List.mem_cons_self)

/-- The end of a legible layout is legible. -/
theorem Legible.suffix {front rest : Layout} (h : Legible (front ++ rest)) : Legible rest := by
  induction front with
  | nil => exact h
  | cons item front ih =>
      cases h with
      | cons _ _ _ tail => exact ih tail

/-- The layout of a text splits at a question mark behind a closed text. -/
theorem Legible.exists_split {layout : Layout} (h : layout.Legible) {after : List Char}
    (hafter : ∀ c ∈ after, isAsciiBlank c = true) {front back : List Char} (hclosed : Closed front)
    (happend : layout.text ++ after = front ++ '?' :: back) :
    ∃ (left : Layout) (gap : List Char) (right : Layout),
      layout = left ++ (gap, .placeholder) :: right ∧
        front = left.text ++ gap ∧ back = right.text ++ after := by
  have hblank : ∀ {gap : List Char}, (∀ c ∈ gap, isAsciiBlank c = true) → '?' ∉ gap :=
    fun hgap hmem => absurd (hgap '?' hmem) (by decide)
  induction h generalizing front with
  | nil =>
      rw [Layout.text, List.nil_append] at happend
      refine absurd ?_ (hblank hafter)
      rw [happend]
      exact List.mem_append_right _ List.mem_cons_self
  | @cons gap token rest blank lexeme ends tail ih =>
      rw [Layout.text, List.append_assoc, List.append_assoc] at happend
      obtain ⟨front, rfl, hchars⟩ := append_eq_append_cons_of_not_mem happend (hblank blank)
      have hfree : Closed gap := closed_of_free fun c hc =>
        not_isQuote_of_isBlank (isBlank_of_isAsciiBlank (blank c hc))
      rw [hfree.append_iff] at hclosed
      rcases append_eq_append_cons hchars with ⟨more, rfl, hrest⟩ | ⟨more, htoken, hback⟩
      · rw [lexeme.closed.append_iff] at hclosed
        obtain ⟨left, between, right, rfl, rfl, rfl⟩ := ih hclosed hrest
        exact ⟨(gap, token) :: left, between, right, rfl, by simp [Layout.text], rfl⟩
      · obtain ⟨rfl, rfl⟩ := lexeme.eq_placeholder hclosed htoken
        cases htoken
        exact ⟨[], gap, rest, rfl, List.append_nil gap, hback⟩

end Layout

end ClosedSql
