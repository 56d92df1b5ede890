import ClosedSql.Proofs.Token.Lexeme

/-!
# Tokens laid out as text

A layout writes tokens one after the other, each with blanks before it. As long as no token goes on
in the next one, reading the text gives the tokens back. For the tokens of canonical texts it is
enough that two neighbours have a blank between them unless one of the two is a mark.
-/

namespace ClosedSql

namespace Token

open Text

/-- The tokens of canonical texts: words and integers in decimal digits, texts in single quotes,
operators and marks. -/
inductive Regular : Token → Prop
  | word {text : String} (identifier : isIdentifier text.toList = true) : Regular (.word text)
  | text (content : String) : Regular (.quotedText content)
  | natural {text : String} (digits : Number.isDigits text.toList = true) :
      Regular (.number text)
  | negative {text : String} {digits : List Char} (minus : text.toList = '-' :: digits)
      (all : Number.isDigits digits = true) : Regular (.number text)
  | operator (symbol : OpSymbol) : Regular (.operator symbol)
  | mark {token : Token} (isMark : token.isMark = true) : Regular token

/-- A regular token is a lexeme. -/
theorem Regular.lexeme {token : Token} (h : Regular token) : Lexeme token := by
  cases h with
  | word identifier => exact .word identifier
  | text content => exact .text content
  | natural digits => exact .number (.unsigned (.whole digits))
  | negative minus all =>
      refine .number ?_
      rw [minus]
      exact .negative (.whole all)
  | operator symbol => exact .operator symbol
  | mark isMark => exact .mark isMark

def delimiters : List Char :=
  " \t\n\x0c\r?*,();".toList

/-- The text goes on with nothing that could belong to the token before it. -/
def Delimited (text : List Char) : Prop :=
  ∀ c ∈ text.head?, c ∈ delimiters

theorem mem_delimiters_of_isAsciiBlank {c : Char} (h : isAsciiBlank c = true) :
    c ∈ delimiters := by
  simp only [isAsciiBlank, Bool.or_eq_true, beq_iff_eq] at h
  rcases h with (((rfl | rfl) | rfl) | rfl) | rfl <;> decide

theorem mem_delimiters_of_ofMark? {c : Char} {token : Token} (h : ofMark? c = some token) :
    c ∈ delimiters := by
  rw [ofMark?.eq_def] at h
  split at h
  all_goals first | decide | cases h

/-- No token goes on with a delimiter. -/
theorem continues_delimiters (token : Token) : ∀ c ∈ delimiters, token.continues c = false := by
  have hclasses : ∀ c ∈ delimiters,
      isAsciiWord c = false ∧ c.isDigit = false ∧ c ≠ '.' ∧ c ≠ '"' ∧ c ≠ '\'' ∧ c ≠ '=' ∧
        c ≠ '>' := by
    decide
  intro c hc
  obtain ⟨hword, hdigit, hpoint, hdouble, hsingle, hequals, hgreater⟩ := hclasses c hc
  cases token with
  | word => exact hword
  | quotedName => simpa [continues] using hdouble
  | quotedText => simpa [continues] using hsingle
  | number => simp [continues, continuesNumber, hdigit, hpoint]
  | operator symbol => cases symbol <;> simp [continues, hequals, hgreater]
  | placeholder | star | comma | leftParen | rightParen | semicolon | unknown => rfl

/-- A delimiter ends every token. -/
theorem Delimited.endsBefore {rest : List Char} (h : Delimited rest) (token : Token) :
    token.EndsBefore rest := fun c hc => token.continues_delimiters c (h c hc)

theorem endsBefore_of_isMark {token : Token} (h : token.isMark = true) (rest : List Char) :
    token.EndsBefore rest := by
  intro c _
  cases token with
  | placeholder | star | comma | leftParen | rightParen | semicolon => rfl
  | word | quotedName | quotedText | number | operator | unknown => cases h

/-- Without its blanks a text begins with its first token. -/
theorem Lexeme.trimStart_append {token : Token} (h : Lexeme token) {gap : List Char}
    (blank : ∀ c ∈ gap, Text.isAsciiBlank c = true) (rest : List Char) :
    Text.trimStart (gap ++ (token.chars ++ rest)) = token.chars ++ rest := by
  obtain ⟨c, tail, hchars, -, hc, -⟩ := h.first
  rw [Text.trimStart,
    List.dropWhile_append_of_pos fun d hd => Text.isBlank_of_isAsciiBlank (blank d hd), hchars,
    List.cons_append, List.dropWhile_cons_of_neg (by simp [hc])]

end Token

/-! ## Reading a layout -/

/-- Tokens, each with the blanks before it. -/
abbrev Layout :=
  List (List Char × Token)

namespace Layout

open Token

def text : Layout → List Char
  | [] => []
  | (gap, token) :: rest => gap ++ (token.chars ++ text rest)

/-- A layout that can be read back: it has nothing but blanks between its tokens, and no token goes
on in the text after it. -/
inductive Legible : Layout → Prop
  | nil : Legible []
  | cons {gap : List Char} {token : Token} {rest : Layout}
      (blank : ∀ c ∈ gap, Text.isAsciiBlank c = true) (lexeme : Lexeme token)
      (ends : token.EndsBefore rest.text) (tail : Legible rest) : Legible ((gap, token) :: rest)

/-- A layout that can be read back before a text. -/
inductive LegibleBefore (after : List Char) : Layout → Prop
  | nil : LegibleBefore after []
  | cons {gap : List Char} {token : Token} {rest : Layout}
      (blank : ∀ c ∈ gap, Text.isAsciiBlank c = true) (lexeme : Lexeme token)
      (ends : token.EndsBefore (rest.text ++ after)) (tail : LegibleBefore after rest) :
      LegibleBefore after ((gap, token) :: rest)

theorem Legible.lexeme {layout : Layout} (h : Legible layout) :
    ∀ token ∈ layout.map Prod.snd, Lexeme token := by
  induction h with
  | nil => exact List.forall_mem_nil _
  | cons _ lexeme _ _ ih => exact List.forall_mem_cons.2 ⟨lexeme, ih⟩

theorem Legible.text_ne_nil {item : List Char × Token} {rest : Layout}
    (h : Legible (item :: rest)) : text (item :: rest) ≠ [] := by
  cases h with
  | cons _ lexeme _ _ =>
      obtain ⟨c, tail, hchars, -⟩ := lexeme.first
      simp [text, hchars]

/-- What a text begins with is what it begins with before another one. -/
theorem endsBefore_append_iff {text : List Char} (h : text ≠ []) (token : Token)
    (after : List Char) : token.EndsBefore (text ++ after) ↔ token.EndsBefore text := by
  obtain ⟨c, tail, rfl⟩ := List.exists_cons_of_ne_nil h
  exact Iff.rfl

/-- A legible layout can be read back before a text, if its last token ends there. -/
theorem Legible.before {layout : Layout} (h : Legible layout) {after : List Char}
    (hlast : ∀ item ∈ layout.getLast?, item.2.EndsBefore after) : LegibleBefore after layout := by
  induction h with
  | nil => exact .nil
  | @cons gap token rest blank lexeme ends tail ih =>
      cases rest with
      | nil => exact .cons blank lexeme (hlast _ rfl) .nil
      | cons item rest =>
          rw [List.getLast?_cons_cons] at hlast
          refine .cons blank lexeme ?_ (ih hlast)
          exact (endsBefore_append_iff tail.text_ne_nil token after).2 ends

/-- Reading the text of a layout before another text gives its tokens. -/
theorem LegibleBefore.scan {layout : Layout} {after : List Char} (h : LegibleBefore after layout) :
    scan (layout.text ++ after) = layout.map Prod.snd ++ scan after := by
  induction h with
  | nil => rfl
  | cons blank lexeme ends _ ih =>
      rw [text, List.append_assoc, List.append_assoc, scan_blanks blank, lexeme.scan ends, ih,
        List.map_cons, List.cons_append]

theorem trimStart_blanks {after : List Char} (hafter : ∀ c ∈ after, Text.isAsciiBlank c = true) :
    Text.trimStart after = [] := by
  rw [← List.append_nil after, Text.trimStart, List.dropWhile_append_of_pos fun c hc =>
    Text.isBlank_of_isAsciiBlank (hafter c hc), List.dropWhile_nil]

section After

variable {layout rest : Layout} {after : List Char}
  (hafter : ∀ c ∈ after, Text.isAsciiBlank c = true)

/-- Blanks are removed up to the first token of a layout. -/
theorem trimStart_text_append {gap : List Char} {token : Token}
    (h : Legible ((gap, token) :: rest)) (after : List Char) :
    Text.trimStart (text ((gap, token) :: rest) ++ after) =
      token.chars ++ (rest.text ++ after) := by
  cases h with
  | cons blank lexeme _ _ =>
      rw [text, List.append_assoc, List.append_assoc, lexeme.trimStart_append blank]

include hafter

/-- Every token ends before blanks. -/
theorem endsBefore_blanks (token : Token) : token.EndsBefore after := fun c hc =>
  token.continues_delimiters c (mem_delimiters_of_isAsciiBlank (hafter c (List.mem_of_mem_head? hc)))

/-- What follows a token in a text is what comes next in its layout or a blank. -/
theorem endsBefore_append {token : Token} (h : token.EndsBefore rest.text) :
    token.EndsBefore (rest.text ++ after) := by
  cases hrest : rest.text with
  | nil => exact endsBefore_blanks hafter token
  | cons d tail =>
      rw [hrest] at h
      exact h

/-- A layout begins with an ASCII character. -/
theorem Legible.ascii_head (h : Legible layout) :
    ∀ c ∈ (layout.text ++ after).head?, c.toNat < 128 := by
  have hblank : ∀ c, Text.isAsciiBlank c = true → c.toNat < 128 := by
    intro c hc
    simp only [Text.isAsciiBlank, Bool.or_eq_true, beq_iff_eq] at hc
    rcases hc with (((rfl | rfl) | rfl) | rfl) | rfl <;> decide
  cases h with
  | nil => exact fun c hc => hblank c (hafter c (List.mem_of_mem_head? hc))
  | @cons gap token rest blank lexeme _ _ =>
      cases gap with
      | nil =>
          obtain ⟨d, tail, hchars, hd, -⟩ := lexeme.first
          rw [text, hchars]
          rintro c ⟨⟩
          exact hd
      | cons d gap =>
          rintro c ⟨⟩
          exact hblank d (blank d List.mem_cons_self)

/-- A word ends where the text after it begins. -/
theorem Legible.not_beginsInWord (h : Legible rest) {word : String}
    (hends : (Token.word word).EndsBefore rest.text) :
    ∀ c ∈ (rest.text ++ after).head?, Text.isWord c = false := by
  intro c hc
  rw [Text.isWord_of_ascii (h.ascii_head hafter c hc)]
  exact endsBefore_append hafter hends c hc

/-- Reading the text of a layout gives its tokens. -/
theorem Legible.scan_text_append (h : Legible layout) :
    scan (layout.text ++ after) = layout.map Prod.snd := by
  have hblanks := scan_blanks hafter []
  rw [List.append_nil, scan] at hblanks
  rw [(h.before fun item _ => endsBefore_blanks hafter item.2).scan, hblanks, List.append_nil]

end After

/-- A layout that can be read back is read as its tokens. -/
theorem Legible.scan_text {layout : Layout} (h : Legible layout) :
    scan layout.text = layout.map Prod.snd := by
  rw [← List.append_nil layout.text, h.scan_text_append (List.forall_mem_nil _)]

/-- What follows does not run together with the token before. -/
def Apart : Layout → Prop
  | [] => True
  | (gap, token) :: _ => gap ≠ [] ∨ token.isMark = true

/-- A layout of regular tokens in which no two run together. -/
inductive Spaced : Layout → Prop
  | nil : Spaced []
  | cons {gap : List Char} {token : Token} {rest : Layout}
      (blank : ∀ c ∈ gap, Text.isAsciiBlank c = true) (regular : Regular token)
      (apart : token.isMark = true ∨ Apart rest) (tail : Spaced rest) :
      Spaced ((gap, token) :: rest)

theorem Spaced.delimited {layout : Layout} (h : Spaced layout) (happart : Apart layout) :
    Delimited layout.text := by
  cases h with
  | nil =>
      intro c hc
      cases hc
  | @cons gap token rest blank _ _ _ =>
      intro c hc
      cases gap with
      | nil =>
          have hmark : token.isMark = true := happart.resolve_left fun hne => hne rfl
          obtain ⟨d, hchars, hd, -⟩ := exists_of_isMark hmark
          rw [text, hchars] at hc
          cases hc
          exact mem_delimiters_of_ofMark? hd
      | cons d gap =>
          cases hc
          exact mem_delimiters_of_isAsciiBlank (blank c List.mem_cons_self)

/-- A layout in which nothing runs together can be read back. -/
theorem Spaced.legible {layout : Layout} (h : Spaced layout) : Legible layout := by
  induction h with
  | nil => exact .nil
  | cons blank regular apart tail ih =>
      refine .cons blank regular.lexeme ?_ ih
      rcases apart with hmark | happart
      · exact endsBefore_of_isMark hmark _
      · exact (tail.delimited happart).endsBefore _

end Layout

end ClosedSql
