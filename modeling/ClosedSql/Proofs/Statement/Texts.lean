import ClosedSql.Proofs.Statement.RoundTrip

/-!
# Texts of the usual calls

The structured calls have their counterparts among the texts: one for each, in which names are
written as they are and every value is a question mark. Each text is the canonical text of a
statement, but for an insertion, whose layout keeps a space before the columns whatever the table is
called; so each is read as that statement, under any settings.
-/

namespace ClosedSql

/-! ## The texts -/

namespace RawText

def all (table : String) : String :=
  "SELECT * FROM " ++ table

def get (table idColumn : String) : String :=
  "SELECT * FROM " ++ table ++ " WHERE " ++ idColumn ++ " = ? LIMIT 1"

def find (table column : String) : String :=
  "SELECT * FROM " ++ table ++ " WHERE " ++ column ++ " = ?"

def count (table : String) : String :=
  "SELECT COUNT(*) FROM " ++ table

def countWhere (table column : String) : String :=
  "SELECT COUNT(*) FROM " ++ table ++ " WHERE " ++ column ++ " = ?"

def insert (table : String) (columns : List String) : String :=
  "INSERT INTO " ++ table ++ " (" ++ ", ".intercalate columns ++ ") VALUES (" ++
    ", ".intercalate (columns.map fun _ => "?") ++ ")"

def update (table : String) (columns : List String) (idColumn : String) : String :=
  "UPDATE " ++ table ++ " SET " ++ ", ".intercalate (columns.map fun column => column ++ " = ?") ++
    " WHERE " ++ idColumn ++ " = ?"

def delete (table idColumn : String) : String :=
  "DELETE FROM " ++ table ++ " WHERE " ++ idColumn ++ " = ?"

end RawText


/-! ## The texts as layouts -/

theorem toList_intercalate_cons (separator first : String) (others : List String) :
    (separator.intercalate (first :: others)).toList =
      first.toList ++ others.flatMap fun other => separator.toList ++ other.toList := by
  rw [String.toList_intercalate]
  induction others generalizing first with
  | nil => simp
  | cons second others ih =>
      simp only [List.map_cons, List.intercalate_cons_cons, List.flatMap_cons] at ih ⊢
      rw [ih]
      simp

namespace Layout

/-- The text of further items of a list, each with a comma and a space before it. -/
theorem text_after_more {α : Type} (item : α → List Token) (written : α → List Char)
    (last : α → Token) (closing : List Token) (closed : List Char)
    (hitem : ∀ x rest, (after .comma (item x ++ rest)).text =
      ' ' :: (written x ++ (after (last x) rest).text))
    (hclosing : ∀ x, (after (last x) closing).text = closed) (others : List α)
    (previous : Token) (hprevious : (after previous closing).text = closed) :
    (after previous ((others.flatMap fun other => .comma :: item other) ++ closing)).text =
      (others.flatMap fun other => ',' :: ' ' :: written other) ++ closed := by
  induction others generalizing previous with
  | nil => exact hprevious
  | cons x others ih =>
      have hcomma : previous.gap .comma = [] := by simp [Token.gap]
      rw [List.flatMap_cons, List.flatMap_cons, List.append_assoc, List.append_assoc,
        List.cons_append, List.cons_append, after, text, hcomma, hitem, ih _ (hclosing x)]
      simp [Token.chars]

@[simp]
theorem text_after_nil (previous : Token) : (after previous []).text = [] :=
  rfl

@[simp]
theorem text_after_cons (previous token : Token) (rest : List Token) :
    (after previous (token :: rest)).text =
      previous.gap token ++ (token.chars ++ (after token rest).text) :=
  rfl

@[simp]
theorem text_ofTokens_cons (token : Token) (rest : List Token) :
    (ofTokens (token :: rest)).text = token.chars ++ (after token rest).text :=
  rfl

end Layout

namespace Statement

variable (table column idColumn : String)

/-- The condition of the texts: a column equals a parameter. -/
def asked (column : String) : Condition Slot :=
  ⟨column, .eq, .placeholder⟩

@[simp]
theorem tokens_asked : (asked column).tokens = [.word column, .operator .equals, .placeholder] :=
  rfl

/-- The canonical text is that of the tokens with the usual spaces. -/
theorem toList_print (statement : Statement) :
    statement.print.toList = (Layout.ofTokens statement.tokens).text :=
  String.toList_ofList

theorem print_all : (select table none none none).print = RawText.all table := by
  apply String.toList_injective
  unfold RawText.all
  rw [toList_print]
  simp [tokens, whereTokens, orderTokens, limitTokens, Token.gap, Token.chars]

theorem print_get :
    (select table (some (asked idColumn)) none (some 1)).print = RawText.get table idColumn := by
  apply String.toList_injective
  unfold RawText.get
  have hlimit : limitTokens (some 1) = [.word "LIMIT", .number "1"] := rfl
  rw [toList_print]
  simp [tokens, whereTokens, orderTokens, hlimit, Token.gap, Token.chars, OpSymbol.text]

theorem print_find :
    (select table (some (asked column)) none none).print = RawText.find table column := by
  apply String.toList_injective
  unfold RawText.find
  rw [toList_print]
  simp [tokens, whereTokens, orderTokens, limitTokens, Token.gap, Token.chars, OpSymbol.text]

theorem print_count : (count table none .none).print = RawText.count table := by
  apply String.toList_injective
  unfold RawText.count
  rw [toList_print]
  simp [tokens, labelTokens, condition?, whereTokens, Token.gap, Token.chars]

theorem print_countWhere :
    (count table none (.single (asked column))).print = RawText.countWhere table column := by
  apply String.toList_injective
  unfold RawText.countWhere
  rw [toList_print]
  simp [tokens, labelTokens, condition?, whereTokens, Token.gap, Token.chars, OpSymbol.text]

theorem print_delete :
    (delete table (asked idColumn)).print = RawText.delete table idColumn := by
  apply String.toList_injective
  unfold RawText.delete
  rw [toList_print]
  simp [tokens, Token.gap, Token.chars, OpSymbol.text]

def askedColumns (columns : List String) : List (String × Slot) :=
  columns.map fun column => (column, .placeholder)

theorem print_update (first : String) (others : List String) :
    (update table (askedColumns (first :: others)) (asked idColumn)).print =
      RawText.update table (first :: others) idColumn := by
  have hmore := Layout.text_after_more
    (fun column => [.word column, .operator .equals, .placeholder])
    (fun column => (column ++ " = ?").toList) (fun _ => .placeholder)
    (.word "WHERE" :: (asked idColumn).tokens) (" WHERE " ++ idColumn ++ " = ?").toList
    (by simp [Token.gap, Token.chars, OpSymbol.text])
    (by simp [Token.gap, Token.chars, OpSymbol.text]) others .placeholder
    (by simp [Token.gap, Token.chars, OpSymbol.text])
  have htokens : (update table (askedColumns (first :: others)) (asked idColumn)).tokens =
      .word "UPDATE" :: .word table :: .word "SET" :: .word first :: .operator .equals ::
        .placeholder :: ((others.flatMap fun column =>
          [.comma, .word column, .operator .equals, .placeholder]) ++
            .word "WHERE" :: (asked idColumn).tokens) := by
    simp [tokens, askedColumns, separated, List.flatMap_map, Slot.token]
  apply String.toList_injective
  unfold RawText.update
  rw [toList_print, htokens, List.map_cons]
  simp only [Layout.text_ofTokens_cons, Layout.text_after_cons, String.toList_append,
    toList_intercalate_cons]
  rw [hmore]
  simp [Token.gap, Token.chars, OpSymbol.text, List.flatMap_map]

/-- The tokens of an insertion behind the first parenthesis. -/
def insertTail (columns : List String) (values : List Slot) : List Token :=
  separated (fun column => [.word column]) columns ++ .rightParen :: .word "VALUES" ::
    .leftParen :: (separated (fun value => [value.token]) values ++ [.rightParen])

/-- An insertion with a space before either parenthesis, whatever the name of the table. -/
def insertLayout (table : String) (columns : List String) (values : List Slot) : Layout :=
  ([], .word "INSERT") :: ([' '], .word "INTO") :: ([' '], .word table) :: ([' '], .leftParen) ::
    Layout.after .leftParen (insertTail columns values)

def askedValues (columns : List String) : List Slot :=
  columns.map fun _ => .placeholder

theorem text_insertLayout (first : String) (others : List String) :
    (insertLayout table (first :: others) (askedValues (first :: others))).text =
      (RawText.insert table (first :: others)).toList := by
  -- from the end: the list of values, then the list of columns with the values behind it
  have hvalues := Layout.text_after_more (fun _ : String => [.placeholder]) (fun _ => ['?'])
    (fun _ => .placeholder) [.rightParen] [')'] (by simp [Token.gap, Token.chars])
    (by simp [Token.gap, Token.chars]) others .placeholder
    (by simp [Token.gap, Token.chars])
  have hcolumns := Layout.text_after_more (fun column => [.word column]) String.toList
    Token.word (.rightParen :: .word "VALUES" :: .leftParen :: .placeholder ::
      ((others.flatMap fun _ => [.comma, .placeholder]) ++ [.rightParen]))
    (") VALUES (?".toList ++ ((others.flatMap fun _ => [',', ' ', '?']) ++ [')']))
    (by simp [Token.gap, Token.chars]) (by simp [Token.gap, Token.chars, hvalues]) others
    (.word first) (by simp [Token.gap, Token.chars, hvalues])
  have htail : insertTail (first :: others) (askedValues (first :: others)) =
      .word first :: ((others.flatMap fun column => [.comma, .word column]) ++
        .rightParen :: .word "VALUES" :: .leftParen :: .placeholder ::
          ((others.flatMap fun _ => [.comma, .placeholder]) ++ [.rightParen])) := by
    simp only [insertTail, askedValues, separated, List.map_cons, List.flatMap_map, Slot.token,
      List.cons_append, List.nil_append]
  unfold RawText.insert
  rw [insertLayout, htail, List.map_cons]
  simp only [Layout.text, Layout.text_after_cons, hcolumns, String.toList_append,
    toList_intercalate_cons, List.flatMap_map]
  simp [Token.gap, Token.chars]

/-! ## Reading the texts -/

variable {table column idColumn} (config : Config)

theorem isPlain_asked (h : IsPlainName column) : (asked column).IsPlain :=
  ⟨h, trivial⟩

theorem ofText_all (htable : IsPlainName table) :
    ofText (config.normalize (RawText.all table)) = .ok (select table none none none) := by
  rw [← print_all]
  exact ofText_normalize_print config ⟨htable, by simp, by simp⟩

/-- The text that reads by id is read as a selection of one row. -/
theorem ofText_get (htable : IsPlainName table) (hid : IsPlainName idColumn) :
    ofText (config.normalize (RawText.get table idColumn)) =
      .ok (select table (some (asked idColumn)) none (some 1)) := by
  rw [← print_get]
  exact ofText_normalize_print config ⟨htable, by simpa using isPlain_asked hid, by simp⟩

theorem ofText_find (htable : IsPlainName table) (hcolumn : IsPlainName column) :
    ofText (config.normalize (RawText.find table column)) =
      .ok (select table (some (asked column)) none none) := by
  rw [← print_find]
  exact ofText_normalize_print config ⟨htable, by simpa using isPlain_asked hcolumn, by simp⟩

theorem ofText_count (htable : IsPlainName table) :
    ofText (config.normalize (RawText.count table)) = .ok (count table none .none) := by
  rw [← print_count]
  exact ofText_normalize_print config ⟨htable, by simp, trivial⟩

theorem ofText_countWhere (htable : IsPlainName table) (hcolumn : IsPlainName column) :
    ofText (config.normalize (RawText.countWhere table column)) =
      .ok (count table none (.single (asked column))) := by
  rw [← print_countWhere]
  exact ofText_normalize_print config ⟨htable, by simp, isPlain_asked hcolumn⟩

theorem ofText_delete (htable : IsPlainName table) (hid : IsPlainName idColumn) :
    ofText (config.normalize (RawText.delete table idColumn)) =
      .ok (delete table (asked idColumn)) := by
  rw [← print_delete]
  exact ofText_normalize_print config ⟨htable, isPlain_asked hid⟩

theorem isPlain_update {columns : List String} (htable : IsPlainName table)
    (hid : IsPlainName idColumn) (hne : columns ≠ []) (hdistinct : columns.Nodup)
    (hcolumns : ∀ column ∈ columns, IsPlainName column) :
    (update table (askedColumns columns) (asked idColumn)).IsPlain := by
  refine ⟨htable, by simpa [askedColumns] using hne, ?_, ?_, isPlain_asked hid⟩
  · simpa [askedColumns, Function.comp_def] using hdistinct
  · intro pair hpair
    obtain ⟨column, hcolumn, rfl⟩ := List.mem_map.1 hpair
    exact ⟨hcolumns column hcolumn, trivial⟩

theorem ofText_update {columns : List String} (htable : IsPlainName table)
    (hid : IsPlainName idColumn) (hne : columns ≠ []) (hdistinct : columns.Nodup)
    (hcolumns : ∀ column ∈ columns, IsPlainName column) :
    ofText (config.normalize (RawText.update table columns idColumn)) =
      .ok (update table (askedColumns columns) (asked idColumn)) := by
  have hplain := isPlain_update htable hid hne hdistinct hcolumns
  obtain ⟨first, others, rfl⟩ := List.exists_cons_of_ne_nil hne
  rw [← print_update]
  exact ofText_normalize_print config hplain

theorem spaced_insertLayout {columns : List String} {values : List Slot}
    (h : ∀ token ∈ (insert table columns values).tokens, Token.Regular token) :
    (insertLayout table columns values).Spaced := by
  simp only [tokens, List.forall_mem_cons] at h
  obtain ⟨hinsert, hinto, htable, hparen, htail⟩ := h
  refine .cons (by simp) hinsert (.inr (.inl (by simp))) (.cons (by decide) hinto
    (.inr (.inl (by simp))) (.cons (by decide) htable (.inr (.inl (by simp)))
      (.cons (by decide) hparen (.inl rfl) (Layout.spaced_after htail _))))

theorem isPlain_insert {columns : List String} (htable : IsPlainName table) (hne : columns ≠ [])
    (hdistinct : columns.Nodup) (hcolumns : ∀ column ∈ columns, IsPlainName column) :
    (insert table columns (askedValues columns)).IsPlain := by
  refine ⟨htable, hne, by simp [askedValues], hdistinct, hcolumns, ?_⟩
  intro value hvalue
  obtain ⟨_, -, rfl⟩ := List.mem_map.1 hvalue
  exact trivial

theorem ofText_insert {columns : List String} (htable : IsPlainName table) (hne : columns ≠ [])
    (hdistinct : columns.Nodup) (hcolumns : ∀ column ∈ columns, IsPlainName column) :
    ofText (config.normalize (RawText.insert table columns)) =
      .ok (insert table columns (askedValues columns)) := by
  have hplain := isPlain_insert htable hne hdistinct hcolumns
  have hcanonical := canonical_tokens hplain
  have htokens : (insertLayout table columns (askedValues columns)).map Prod.snd =
      (insert table columns (askedValues columns)).tokens := by
    simp [insertLayout, tokens, insertTail, Layout.map_snd_after]
  have hread := ofText_normalize_text config (spaced_insertLayout hcanonical.regular)
    (htokens ▸ hcanonical.ordinary none)
  obtain ⟨first, others, rfl⟩ := List.exists_cons_of_ne_nil hne
  rw [text_insertLayout, String.ofList_toList, htokens] at hread
  rw [ofText, hread]
  exact ofTokens_complete (.bare (form_of_isPlain hplain))

end Statement

end ClosedSql
