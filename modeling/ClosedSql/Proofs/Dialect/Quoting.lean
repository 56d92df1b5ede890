import ClosedSql.Proofs.Dialect.Tokens
import ClosedSql.Proofs.Token.Splitting

/-!
# What counts as quoted

The scanner of tokens and the search for truth values find quoted text each in its own way: a name
with doubled quotes is one token, but several runs. Still they agree on every byte of a text whose
tokens are all known. So no zero or one inside quotes is taken for a truth value, and what the
scanner reads when truth values have become words differs from what it read before in those numbers
alone.
-/

namespace ClosedSql

open Text Dialect

/-! ## Marked characters -/

/-- The places of the bytes of all characters whose mark passes a test; `place` is that of the first
byte. -/
def bytesWhere {α : Type} (test : α → Bool) (place : Nat) : List (Char × α) → List Nat
  | [] => []
  | (c, mark) :: rest =>
      (if test mark then List.range' place c.utf8Size else []) ++
        bytesWhere test (place + c.utf8Size) rest

/-- The new list is the old one with each element turned into what it may become. -/
inductive Respelled {α β : Type} (becomes : α → List β → Prop) : List α → List β → Prop
  | nil : Respelled becomes [] []
  | cons {a : α} {part : List β} {old : List α} {new : List β} (head : becomes a part)
      (tail : Respelled becomes old new) : Respelled becomes (a :: old) (part ++ new)

section Marked

variable {α β γ : Type}

/-- Only the outcome of the test matters. -/
theorem bytesWhere_eq (test : α → Bool) (place : Nat) (marked : List (Char × α)) :
    bytesWhere test place marked = bytesWhere id place (marked.map (Prod.map id test)) := by
  induction marked generalizing place with
  | nil => rfl
  | cons item marked ih =>
      rw [List.map_cons, bytesWhere, ih]
      rfl

theorem mem_bytesWhere_cons {test : α → Bool} {place byte : Nat} {c : Char} {mark : α}
    {marked : List (Char × α)} :
    byte ∈ bytesWhere test place ((c, mark) :: marked) ↔
      (test mark = true ∧ place ≤ byte ∧ byte < place + c.utf8Size) ∨
        byte ∈ bytesWhere test (place + c.utf8Size) marked := by
  rw [bytesWhere, List.mem_append]
  by_cases htest : test mark = true
  · simp only [htest, if_true, List.mem_range'_1, true_and]
  · simp only [htest, Bool.false_eq_true, if_false, List.not_mem_nil, false_and]

theorem le_of_mem_bytesWhere {test : α → Bool} {place byte : Nat} {marked : List (Char × α)}
    (h : byte ∈ bytesWhere test place marked) : place ≤ byte := by
  induction marked generalizing place with
  | nil => cases h
  | cons item marked ih =>
      rcases mem_bytesWhere_cons.1 h with ⟨-, hle, -⟩ | htail
      · exact hle
      · have hle := ih htail
        omega

/-- No byte belongs to two characters. -/
theorem not_mem_bytesWhere {test other : α → Bool}
    (apart : ∀ mark, test mark = true → other mark = false) {place byte : Nat}
    {marked : List (Char × α)} (h : byte ∈ bytesWhere test place marked) :
    byte ∉ bytesWhere other place marked := by
  intro h'
  induction marked generalizing place with
  | nil => cases h
  -- the bytes of the first character lie before those of all others
  | cons item marked ih =>
      rcases mem_bytesWhere_cons.1 h with ⟨htest, hle, hlt⟩ | htail
      · rcases mem_bytesWhere_cons.1 h' with ⟨hother, -, -⟩ | htail'
        · rw [apart _ htest] at hother
          cases hother
        · have hbeyond := le_of_mem_bytesWhere htail'
          omega
      · rcases mem_bytesWhere_cons.1 h' with ⟨-, -, hlt'⟩ | htail'
        · have hbeyond := le_of_mem_bytesWhere htail
          omega
        · exact ih htail htail'

/-- Elements that may stay as they are stay in front. -/
theorem Respelled.keep {becomes : α → List β → Prop} (f : γ → α) (g : γ → β)
    (h : ∀ x, becomes (f x) [g x]) (kept : List γ) {old : List α} {new : List β}
    (tail : Respelled becomes old new) :
    Respelled becomes (kept.map f ++ old) (kept.map g ++ new) := by
  induction kept with
  | nil => exact tail
  | cons x kept ih =>
      have hcons := Respelled.cons (h x) ih
      exact hcons

end Marked

/-! ## The scanner -/

namespace Token

def marks : List Char → List (Char × Option Token)
  | [] => []
  | c :: rest =>
      if isAsciiBlank c then (c, none) :: marks rest
      else
        ((c :: rest).take ((c :: rest).length - (read c rest).2.length)).map
            (·, some (read c rest).1) ++
          marks (read c rest).2
termination_by text => text.length
decreasing_by
  · simp
  · exact Nat.lt_succ_of_le (length_read_le c rest)

/-- The places of the bytes of all texts and names in quotes. -/
def quotedBytes (text : List Char) : List Nat :=
  bytesWhere (Option.any isQuoted) 0 (marks text)

/-- What may become of a character and its token: they stay, or a zero or one is a word now. -/
inductive Becomes : Char × Option Token → List (Char × Option Token) → Prop
  | same (read : Char × Option Token) : Becomes read [read]
  | no : Becomes ('0', some (.number "0")) ("false".toList.map (·, some (.word "false")))
  | yes : Becomes ('1', some (.number "1")) ("true".toList.map (·, some (.word "true")))

theorem marks_blanks {gap : List Char} (hgap : ∀ c ∈ gap, isAsciiBlank c = true)
    (rest : List Char) : marks (gap ++ rest) = gap.map (·, none) ++ marks rest := by
  induction gap with
  | nil => rfl
  | cons c gap ih =>
      obtain ⟨hc, hgap⟩ := List.forall_mem_cons.1 hgap
      rw [List.cons_append, marks, if_pos hc, ih hgap, List.map_cons, List.cons_append]

/-- The characters of a token are marked with it if the text behind it does not belong to it. -/
theorem Lexeme.marks {token : Token} (h : Lexeme token) {rest : List Char}
    (hrest : token.EndsBefore rest) :
    Token.marks (token.chars ++ rest) = token.chars.map (·, some token) ++ Token.marks rest := by
  obtain ⟨c, tail, hchars, hblank, hread⟩ := h.exists_read hrest
  have hlength : (c :: (tail ++ rest)).length - rest.length = (c :: tail).length := by
    simp only [List.length_cons, List.length_append]
    omega
  rw [hchars, List.cons_append, Token.marks, hblank, hread, if_neg Bool.false_ne_true]
  dsimp only
  rw [hlength, ← List.cons_append, List.take_left]

/-- The characters of quoted tokens stay, each in its token. -/
theorem filter_isQuoted_of_respelled {old new : List (Char × Option Token)}
    (h : Respelled Becomes old new) :
    new.filter (·.2.any isQuoted) = old.filter (·.2.any isQuoted) := by
  induction h with
  | nil => rfl
  | cons head tail ih =>
      cases head with
      | same read => rw [List.singleton_append, List.filter_cons, List.filter_cons, ih]
      | no => rw [List.filter_append, ih]; rfl
      | yes => rw [List.filter_append, ih]; rfl

end Token

namespace Layout

def marks : Layout → List (Char × Option Token)
  | [] => []
  | (gap, token) :: rest => gap.map (·, none) ++ (token.chars.map (·, some token) ++ marks rest)

/-- The marks of a layout are on the characters of its text. -/
theorem map_fst_marks (layout : Layout) : layout.marks.map Prod.fst = layout.text := by
  induction layout with
  | nil => rfl
  | cons item rest ih =>
      rw [marks, List.map_append, List.map_append, ih, text]
      simp [Function.comp_def]

/-- A layout that is read back is marked as it is written. -/
theorem LegibleBefore.marks {layout : Layout} {after : List Char} (h : LegibleBefore after layout) :
    Token.marks (layout.text ++ after) = layout.marks ++ Token.marks after := by
  induction h with
  | nil => rfl
  | cons blank lexeme ends _ ih =>
      rw [text, List.append_assoc, List.append_assoc, Token.marks_blanks blank, lexeme.marks ends,
        ih, Layout.marks, List.append_assoc, List.append_assoc]

theorem marks_text_append {layout : Layout} (h : Legible layout) {after : List Char}
    (hafter : ∀ c ∈ after, isAsciiBlank c = true) :
    Token.marks (layout.text ++ after) = layout.marks ++ after.map (·, none) := by
  have hblanks := Token.marks_blanks hafter []
  rw [List.append_nil, Token.marks, List.append_nil] at hblanks
  rw [(h.before fun item _ => endsBefore_blanks hafter item.2).marks, hblanks]

/-- Replacing truth values in a layout, and whatever may be behind it. -/
theorem respelled_putFlags (opens : Bool) (layout : Layout) {old new : List (Char × Option Token)}
    (tail : Respelled Token.Becomes old new) :
    Respelled Token.Becomes (layout.marks ++ old) ((putFlags opens layout).marks ++ new) := by
  induction layout generalizing opens with
  | nil => exact tail
  | cons item rest ih =>
      obtain ⟨gap, token⟩ := item
      have hsame (mark : Char → Char × Option Token) :
          ∀ c, Token.Becomes (mark c) [mark c] := fun c => .same (mark c)
      rw [putFlags, marks, marks, List.append_assoc, List.append_assoc, List.append_assoc,
        List.append_assoc]
      apply Respelled.keep _ _ (hsame _)
      -- the token is still the same, or it was a zero or one and is a word now
      rcases taken_cases opens token rest with heq | ⟨-, -, ⟨rfl, heq⟩ | ⟨rfl, heq⟩⟩
      · rw [heq]
        exact (ih _).keep _ _ (hsame _) _
      · rw [heq]
        exact .cons .no (ih _)
      · rw [heq]
        exact .cons .yes (ih _)

end Layout

/-! ## The search for truth values -/

namespace Dialect

/-- What the search finds. -/
inductive Found
  | quoted
  | digit
deriving DecidableEq

/-- Whether a character before some text is a zero or one by itself, no part of a longer word. -/
def standsAlone (inWord : Bool) (c : Char) (following : List Char) : Bool :=
  (c == '0' || c == '1') && !inWord && !beginsInWord following

/-- The characters of a text, each with what it is found as part of: a quoted run, or a zero or one
by itself. -/
def search (inWord : Bool) : List Piece → List (Char × Option Found)
  | [] => []
  | .quoted run :: rest => run.map (·, some .quoted) ++ search false rest
  | .plain c :: rest =>
      (c, if standsAlone inWord c (rest.flatMap Piece.chars) then some .digit else none) ::
        search (isWord c) rest

/-- The places of the bytes of all quoted runs. -/
def quotedBytes (text : List Char) : List Nat :=
  bytesWhere (· == some .quoted) 0 (search false (pieces text))

def digitBytes (text : List Char) : List Nat :=
  bytesWhere (· == some .digit) 0 (search false (pieces text))

/-- What may become of a character that is found: it stays, or a word takes the place of a zero or
one by itself. -/
inductive Found.Becomes : Char × Option Found → List Char → Prop
  | same (c : Char) (found : Option Found) : Becomes (c, found) [c]
  | word (c : Char) : Becomes (c, some .digit) (flagWord c)

/-- The search keeps all characters. -/
theorem map_fst_search (inWord : Bool) (found : List Piece) :
    (search inWord found).map Prod.fst = found.flatMap Piece.chars := by
  induction found generalizing inWord with
  | nil => rfl
  | cons piece rest ih =>
      cases piece with
      | quoted run =>
          rw [search, List.map_append, ih, List.flatMap_cons]
          simp [Piece.chars, Function.comp_def]
      | plain c =>
          rw [search, List.map_cons, ih]
          rfl

/-- A flag that is replaced stands alone. -/
theorem standsAlone_of_flag {before : Option Char} {inWord : Bool} {c : Char}
    {following : List Char} (hbegins : beginsFlag before inWord c = true)
    (hends : endsFlag following = true) : standsAlone inWord c following = true := by
  rw [endsFlag, Bool.and_eq_true] at hends
  obtain ⟨hdigit, rfl, -⟩ := beginsFlag_iff.1 hbegins
  rw [standsAlone, hends.1]
  simpa using hdigit

/-- Only a zero or one by itself is replaced. -/
theorem respelled_replaceFlags (before : Option Char) (inWord : Bool) (found : List Piece) :
    Respelled Found.Becomes (search inWord found) (replaceFlags before inWord found) := by
  induction found generalizing before inWord with
  | nil => exact .nil
  | cons piece rest ih =>
      cases piece with
      | quoted run =>
          have hkeep := (ih run.getLast? false).keep (·, some .quoted) id (fun c => .same c _) run
          rw [List.map_id] at hkeep
          exact hkeep
      | plain c =>
          apply Respelled.cons _ (ih _ _)
          by_cases hflag :
              (beginsFlag before inWord c && endsFlag (rest.flatMap Piece.chars)) = true
          · have hboth := Bool.and_eq_true_iff.1 hflag
            rw [if_pos hflag, if_pos (standsAlone_of_flag hboth.1 hboth.2)]
            exact .word c
          · rw [if_neg hflag]
            exact .same c _

/-- The characters of a piece, each with whether it is quoted. -/
def Piece.shades : Piece → List (Char × Bool)
  | quoted run => run.map (·, true)
  | plain c => [(c, false)]

/-- The characters of a text, each with whether it is in a quoted run. -/
def shades (text : List Char) : List (Char × Bool) :=
  (pieces text).flatMap Piece.shades

theorem map_search (inWord : Bool) (found : List Piece) :
    (search inWord found).map (Prod.map id (· == some .quoted)) = found.flatMap Piece.shades := by
  induction found generalizing inWord with
  | nil => rfl
  | cons piece rest ih =>
      cases piece with
      | quoted run =>
          rw [search, List.map_append, ih, List.map_map, List.flatMap_cons]
          rfl
      | plain c =>
          rw [search, List.map_cons, ih, List.flatMap_cons]
          split <;> rfl

/-- A quoted run is shaded from its first quote to its last. -/
theorem shades_of_run {text run tail : List Char} (h : quotedRun? text = some (run, tail)) :
    shades text = run.map (·, true) ++ shades tail := by
  cases text with
  | nil => cases h
  | cons c rest =>
      rw [shades, pieces_cons, h]
      rfl

/-- Outside quotes nothing is shaded. -/
theorem shades_free {kept : List Char} (h : ∀ c ∈ kept, ¬IsQuote c) (rest : List Char) :
    shades (kept ++ rest) = kept.map (·, false) ++ shades rest := by
  induction kept with
  | nil => rfl
  | cons c kept ih =>
      obtain ⟨hc, hkept⟩ := List.forall_mem_cons.1 h
      rw [List.cons_append, shades, pieces_cons, quotedRun?_plain hc, List.map_cons,
        List.cons_append, ← ih hkept]
      rfl

theorem shades_span {quote : Char} {inner : List Char} (hquote : IsQuote quote)
    (h : quote ∉ inner) (rest : List Char) :
    shades (quote :: (inner ++ quote :: rest)) =
      (quote :: (inner ++ [quote])).map (·, true) ++ shades rest := by
  rw [shades_of_run (quotedRun?_span hquote h rest)]
  rcases adjacentRun_cases quote rest with hnone | ⟨run, tail, hadjacent, hrun, -⟩
  · simp [hnone]
  · simp [hadjacent, shades_of_run hrun]

/-- A token is shaded in all of its characters or in none. -/
theorem shades_lexeme {token : Token} (h : token.Lexeme) (rest : List Char) :
    shades (token.chars ++ rest) = token.chars.map (·, token.isQuoted) ++ shades rest := by
  have henquote : ∀ quote, IsQuote quote → ∀ content,
      shades (enquote quote content ++ rest) =
        (enquote quote content).map (·, true) ++ shades rest := by
    intro quote hquote content
    have hspan : ∀ inner rest, quote ∉ inner → shades (quote :: (inner ++ quote :: rest)) =
        (quote :: (inner ++ [quote])).map (·, true) ++ shades rest :=
      fun _ rest hinner => shades_span hquote hinner rest
    exact enquote_append_of_span (·, true) hspan hspan content rest
  cases hquoted : token.isQuoted with
  | false => exact shades_free (h.not_isQuote hquoted) rest
  | true =>
      cases token with
      | quotedName content => exact henquote '"' (.inr rfl) _
      | quotedText content => exact henquote '\'' (.inl rfl) _
      | _ => cases hquoted

theorem shades_blanks {gap : List Char} (hgap : ∀ c ∈ gap, isAsciiBlank c = true)
    (rest : List Char) : shades (gap ++ rest) = gap.map (·, false) ++ shades rest :=
  shades_free (fun c hc => not_isQuote_of_isBlank (isBlank_of_isAsciiBlank (hgap c hc))) rest

/-- The characters that are in quoted runs are those that are in quoted tokens. -/
theorem shades_text {layout : Layout} (h : layout.Legible) (after : List Char) :
    shades (layout.text ++ after) =
      layout.marks.map (Prod.map id (Option.any Token.isQuoted)) ++ shades after := by
  induction h with
  | nil => rfl
  | cons blank lexeme _ _ ih =>
      rw [Layout.text, List.append_assoc, List.append_assoc, shades_blanks blank,
        shades_lexeme lexeme, ih, Layout.marks]
      simp [Function.comp_def]

/-! ## Both -/

/-- What the scanner and the search make of a text. -/
structure QuotesAgree (text : List Char) : Prop where
  /-- Both go through the very text. -/
  whole : (Token.marks text).map Prod.fst = text ∧ (search false (pieces text)).map Prod.fst = text
  /-- They take the same bytes for quoted text. -/
  covered : Token.quotedBytes text = quotedBytes text
  /-- No such byte is found as a zero or one by itself, -/
  apart : ∀ byte ∈ digitBytes text, byte ∉ Token.quotedBytes text
  /-- and no other character is replaced. -/
  replaced :
    Respelled Found.Becomes (search false (pieces text)) (replaceFlags none false (pieces text))
  /-- The scanner reads every character that is left as it did before, -/
  reread : Respelled Token.Becomes (Token.marks text)
    (Token.marks (replaceFlags none false (pieces text)))
  /-- so all that it reads in quotes stays as it is. -/
  kept : (Token.marks (replaceFlags none false (pieces text))).filter (·.2.any Token.isQuoted) =
    (Token.marks text).filter (·.2.any Token.isQuoted)

/-- The scanner and the search find the same bytes in quotes. -/
theorem quotedBytes_text {layout : Layout} (h : layout.Legible) {after : List Char}
    (hafter : ∀ c ∈ after, isAsciiBlank c = true) :
    Token.quotedBytes (layout.text ++ after) = quotedBytes (layout.text ++ after) := by
  have hblanks : shades after = after.map (·, false) := by
    have hshades := shades_blanks hafter []
    rwa [List.append_nil, shades, shades, pieces, List.flatMap_nil, List.append_nil] at hshades
  have hshades := shades_text h after
  -- both depend only on which characters are quoted
  rw [Token.quotedBytes, quotedBytes, bytesWhere_eq, bytesWhere_eq (· == some Found.quoted),
    map_search, Layout.marks_text_append h hafter]
  change _ = bytesWhere id 0 (shades (layout.text ++ after))
  rw [hshades, hblanks, List.map_append, List.map_map]
  rfl

/-- Replacing truth values in a layout respells its marks. -/
theorem respelled_marks {layout : Layout} (h : layout.Legible) {after : List Char}
    (hafter : ∀ c ∈ after, isAsciiBlank c = true) :
    Respelled Token.Becomes (Token.marks (layout.text ++ after))
      (Token.marks (replaceFlags none false (pieces (layout.text ++ after)))) := by
  have hflags : replaceFlags none false (pieces (layout.text ++ after)) =
      (layout.putFlags false).text ++ after :=
    Layout.replaceFlagsIn_text h hafter fun _ => rfl
  rw [hflags, Layout.marks_text_append h hafter,
    Layout.marks_text_append (Layout.legible_putFlags h false) hafter]
  apply Layout.respelled_putFlags
  have hkeep := Respelled.keep (·, none) (·, none) (fun c => Token.Becomes.same (c, none)) after
    .nil
  rwa [List.append_nil] at hkeep

/-- The scanner and the search agree on what is quoted in a text whose tokens are all known, and
replacing truth values leaves it alone. -/
theorem quotes_agree {text : List Char} (hknown : ∀ c, .unknown c ∉ Token.scan text) :
    QuotesAgree text := by
  obtain ⟨hlegible, after, hafter, happend⟩ :=
    Layout.legible_read (List.forall_mem_nil _) hknown
  rw [List.nil_append] at happend
  have hmarks := Layout.marks_text_append hlegible hafter
  have hcovered := quotedBytes_text hlegible hafter
  have hreread := respelled_marks hlegible hafter
  rw [happend] at hmarks hcovered hreread
  refine ⟨⟨?_, ?_⟩, hcovered, ?_, respelled_replaceFlags none false (pieces text), hreread,
    Token.filter_isQuoted_of_respelled hreread⟩
  · rw [hmarks, List.map_append, Layout.map_fst_marks]
    simpa [Function.comp_def] using happend
  · rw [map_fst_search, flatMap_chars_pieces]
  · intro byte hbyte
    rw [hcovered]
    refine not_mem_bytesWhere (fun found hdigit => ?_) hbyte
    rw [beq_iff_eq.1 hdigit]
    rfl

/-- A name with a doubled quote, and a text with two bytes for a letter, a doubled quote and a quote
of the other kind. -/
def mixedQuotes : List Char :=
  "UPDATE t SET \"a\"\"1\" = 1, b = 'é''s = 0, \"' WHERE id = ?".toList

theorem quotes_agree_mixed :
    (∀ c, .unknown c ∉ Token.scan mixedQuotes) ∧ QuotesAgree mixedQuotes := by
  have hscan : Token.scan mixedQuotes =
      [.word "UPDATE", .word "t", .word "SET", .quotedName "a\"1", .operator .equals, .number "1",
        .comma, .word "b", .operator .equals, .quotedText "é's = 0, \"", .word "WHERE", .word "id",
        .operator .equals, .placeholder] := by
    decide +kernel
  have hknown : ∀ c, .unknown c ∉ Token.scan mixedQuotes := by
    rw [hscan]
    simp
  exact ⟨hknown, quotes_agree hknown⟩

/-- A quote that is never closed is an unknown token, and the search settles for half of the doubled
quote behind it. -/
example : Token.quotedBytes "'a''b".toList = [2, 3] ∧ quotedBytes "'a''b".toList = [0, 1, 2] := by
  decide +kernel

end Dialect

end ClosedSql
