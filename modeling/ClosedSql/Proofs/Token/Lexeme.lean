import ClosedSql.Number.Reading
import ClosedSql.Proofs.Text.Folding
import ClosedSql.Statement.Token

/-!
# Tokens as written

What is read from a text as a token stands there as the token is written, and nothing that follows
would be read as part of it. The other way round, a token as written is read back wherever what
follows would not be read as part of it.
-/

namespace ClosedSql.Token

open Text

def chars : Token → List Char
  | word text => text.toList
  | quotedName text => enquote '"' text.toList
  | quotedText text => enquote '\'' text.toList
  | number text => text.toList
  | placeholder => ['?']
  | star => ['*']
  | comma => [',']
  | leftParen => ['(']
  | rightParen => [')']
  | semicolon => [';']
  | operator symbol => symbol.text.toList
  | unknown c => [c]

/-- Whether a token is a single character that is read by itself, whatever follows. -/
def isMark : Token → Bool
  | placeholder | star | comma | leftParen | rightParen | semicolon => true
  | _ => false

/-- Digits, and perhaps a point and further digits. -/
inductive Unsigned : List Char → Prop
  | whole {digits : List Char} (all : Number.isDigits digits = true) : Unsigned digits
  | pointed {digits more : List Char} (all : Number.isDigits digits = true)
      (rest : ∀ c ∈ more, c.isDigit = true) : Unsigned (digits ++ '.' :: more)

/-- A number as written. -/
inductive Numeral : List Char → Prop
  | unsigned {text : List Char} (unsigned : Unsigned text) : Numeral text
  | fraction {digits : List Char} (all : Number.isDigits digits = true) : Numeral ('.' :: digits)
  | negative {text : List Char} (unsigned : Unsigned text) : Numeral ('-' :: text)

/-- The tokens that are read from texts, apart from the unknown ones. -/
inductive Lexeme : Token → Prop
  | word {text : String} (identifier : isIdentifier text.toList = true) : Lexeme (.word text)
  | name (content : String) : Lexeme (.quotedName content)
  | text (content : String) : Lexeme (.quotedText content)
  | number {text : String} (numeral : Numeral text.toList) : Lexeme (.number text)
  | operator (symbol : OpSymbol) : Lexeme (.operator symbol)
  | mark {token : Token} (isMark : token.isMark = true) : Lexeme token

theorem Lexeme.isIdentifier {text : String} (h : Lexeme (.word text)) :
    isIdentifier text.toList = true := by
  cases h with
  | word identifier => exact identifier
  | mark isMark => cases isMark

def continuesNumber (number : List Char) (c : Char) : Bool :=
  c.isDigit || c == '.' && !number.contains '.'

/-- Whether a character that follows a token is read as part of it. -/
def continues : Token → Char → Bool
  | word _, c => isAsciiWord c
  | quotedName _, c => c == '"'
  | quotedText _, c => c == '\''
  | number text, c => continuesNumber text.toList c
  | operator .equals, c | operator .greater, c => c == '='
  | operator .less, c => c == '=' || c == '>'
  | _, _ => false

/-- The text goes on with nothing that is read as part of the token before it. -/
def EndsBefore (token : Token) (text : List Char) : Prop :=
  ∀ c ∈ text.head?, token.continues c = false

theorem endsBefore_nil (token : Token) : token.EndsBefore [] := by
  rintro c ⟨⟩

/-! ## Characters -/

/-- Characters that have something in common end where the next text begins without it. -/
theorem span_append {p : Char → Bool} {text rest : List Char} (htext : ∀ c ∈ text, p c = true)
    (hrest : ∀ c ∈ rest.head?, p c = false) :
    (text ++ rest).takeWhile p = text ∧ (text ++ rest).dropWhile p = rest := by
  rw [List.takeWhile_append_of_pos htext, List.dropWhile_append_of_pos htext]
  cases rest with
  | nil => simp
  | cons c rest =>
      have hc : ¬p c = true := by
        rw [hrest c rfl]
        decide
      rw [List.takeWhile_cons_of_neg hc, List.dropWhile_cons_of_neg hc, List.append_nil]
      exact ⟨rfl, rfl⟩

theorem head?_dropWhile {p : Char → Bool} (text : List Char) :
    ∀ c ∈ (text.dropWhile p).head?, p c = false := by
  intro c hc
  have hhead := List.head?_dropWhile_not p text
  rw [Option.mem_def.1 hc] at hhead
  exact hhead

def IsLetter (c : Char) : Prop :=
  c.isAlpha = true ∨ c = '_'

theorem IsLetter.isAsciiWord {c : Char} (h : IsLetter c) : isAsciiWord c = true := by
  rcases h with h | rfl
  · exact isAsciiWord_of_isAlpha h
  · decide

theorem IsLetter.ne {c d : Char} (h : IsLetter c) (hd : (d.isAlpha || d == '_') = false) :
    c ≠ d := by
  rcases h with h | rfl
  · exact ne_of_true_of_false h (Bool.or_eq_false_iff.1 hd).1
  · rintro rfl
    cases hd

theorem IsLetter.isDigit {c : Char} (h : IsLetter c) : c.isDigit = false := by
  rcases h with h | rfl
  · rw [Bool.eq_false_iff]
    intro hdigit
    exact not_isAlpha_of_isDigit hdigit h
  · decide

/-- An identifier is a letter and word characters. -/
theorem exists_cons_of_isIdentifier {text : List Char} (h : isIdentifier text = true) :
    ∃ c tail, text = c :: tail ∧ IsLetter c ∧ ∀ d ∈ tail, isAsciiWord d = true := by
  cases text with
  | nil => cases h
  | cons c tail =>
      rw [isIdentifier, Bool.and_eq_true, Bool.or_eq_true, beq_iff_eq, List.all_eq_true] at h
      exact ⟨c, tail, rfl, h.1, h.2⟩

theorem isIdentifier_cons {c : Char} {tail : List Char} (hc : IsLetter c)
    (htail : ∀ d ∈ tail, isAsciiWord d = true) : isIdentifier (c :: tail) = true := by
  rw [isIdentifier, Bool.and_eq_true, Bool.or_eq_true, beq_iff_eq, List.all_eq_true]
  exact ⟨hc, htail⟩

theorem exists_cons_of_isDigits {text : List Char} (h : Number.isDigits text = true) :
    ∃ c tail, text = c :: tail ∧ c.isDigit = true ∧ ∀ d ∈ tail, d.isDigit = true := by
  cases text with
  | nil => cases h
  | cons c tail =>
      have hall : ∀ d ∈ c :: tail, d.isDigit = true := by
        simpa [Number.isDigits] using h
      exact ⟨c, tail, rfl, hall c List.mem_cons_self,
        fun d hd => hall d (List.mem_cons_of_mem _ hd)⟩

theorem isDigits_cons {c : Char} {tail : List Char} (hc : c.isDigit = true)
    (htail : ∀ d ∈ tail, d.isDigit = true) : Number.isDigits (c :: tail) = true := by
  simpa [Number.isDigits] using ⟨hc, htail⟩

theorem point_not_mem {digits : List Char} (h : ∀ c ∈ digits, c.isDigit = true) :
    '.' ∉ digits := by
  intro hpoint
  exact absurd (h '.' hpoint) (by decide)

/-! ## Numbers -/

def IsNumeric (c : Char) : Prop :=
  c.isDigit = true ∨ c = '.' ∨ c = '-'

theorem Unsigned.isNumeric {text : List Char} (h : Unsigned text) : ∀ c ∈ text, IsNumeric c := by
  cases h with
  | whole all => exact fun c hc => .inl (Number.isDigit_of_isDigits all hc)
  | pointed all rest =>
      rw [List.forall_mem_append, List.forall_mem_cons]
      exact ⟨fun c hc => .inl (Number.isDigit_of_isDigits all hc), .inr (.inl rfl),
        fun c hc => .inl (rest c hc)⟩

theorem Numeral.isNumeric {text : List Char} (h : Numeral text) : ∀ c ∈ text, IsNumeric c := by
  cases h with
  | unsigned unsigned => exact unsigned.isNumeric
  | fraction all =>
      rw [List.forall_mem_cons]
      exact ⟨.inr (.inl rfl), fun c hc => .inl (Number.isDigit_of_isDigits all hc)⟩
  | negative unsigned =>
      rw [List.forall_mem_cons]
      exact ⟨.inr (.inr rfl), unsigned.isNumeric⟩

theorem Numeral.exists_cons {text : List Char} (h : Numeral text) : ∃ c tail, text = c :: tail := by
  cases h with
  | unsigned unsigned =>
      cases unsigned with
      | whole all =>
          obtain ⟨c, tail, rfl, -⟩ := exists_cons_of_isDigits all
          exact ⟨c, tail, rfl⟩
      | pointed all _ =>
          obtain ⟨c, tail, rfl, -⟩ := exists_cons_of_isDigits all
          exact ⟨c, _, rfl⟩
  | fraction _ => exact ⟨_, _, rfl⟩
  | negative _ => exact ⟨_, _, rfl⟩

/-- A number without a sign begins with a digit. -/
theorem Unsigned.beginsWithDigit {text : List Char} (h : Unsigned text) (rest : List Char) :
    beginsWithDigit (text ++ rest) = true := by
  cases h with
  | whole all =>
      obtain ⟨c, tail, rfl, hc, -⟩ := exists_cons_of_isDigits all
      exact hc
  | pointed all _ =>
      obtain ⟨c, tail, rfl, hc, -⟩ := exists_cons_of_isDigits all
      exact hc

theorem isDigits_takeWhile {text : List Char} (h : beginsWithDigit text = true) :
    Number.isDigits (text.takeWhile Char.isDigit) = true := by
  cases text with
  | nil => cases h
  | cons c rest =>
      rw [List.takeWhile_cons_of_pos (show c.isDigit = true from h)]
      exact isDigits_cons h (List.all_eq_true.1 List.all_takeWhile)

/-- A number is split off whole where the text does not go on with it. -/
theorem splitNumber_append {text rest : List Char} (h : Unsigned text)
    (hrest : ∀ c ∈ rest.head?, continuesNumber text c = false) :
    splitNumber (text ++ rest) = (text, rest) := by
  have hdigit : ∀ c ∈ rest.head?, c.isDigit = false := fun c hc =>
    (Bool.or_eq_false_iff.1 (hrest c hc)).1
  cases h with
  | whole all =>
      have hdigits : ∀ c ∈ text, c.isDigit = true := fun c hc => Number.isDigit_of_isDigits all hc
      obtain ⟨htake, hdrop⟩ := span_append hdigits hdigit
      rw [splitNumber, htake, hdrop]
      split
      · have hpoint := hrest '.' rfl
        simp [continuesNumber, point_not_mem hdigits] at hpoint
      · rfl
  | @pointed digits more all hmore =>
      have hpoint : ∀ c ∈ ('.' :: (more ++ rest)).head?, c.isDigit = false := by
        rintro c ⟨⟩
        decide
      obtain ⟨htake, hdrop⟩ := span_append (fun c hc => Number.isDigit_of_isDigits all hc) hpoint
      obtain ⟨hmoreTake, hmoreDrop⟩ := span_append hmore hdigit
      rw [List.append_assoc, List.cons_append, splitNumber, htake, hdrop]
      change (digits ++ '.' :: (more ++ rest).takeWhile Char.isDigit,
        (more ++ rest).dropWhile Char.isDigit) = _
      rw [hmoreTake, hmoreDrop]

/-- What is split off is a number, and the text after it does not go on with it. -/
theorem splitNumber_spec {text : List Char} (h : beginsWithDigit text = true) :
    ∃ number tail, splitNumber text = (number, tail) ∧ Unsigned number ∧ number ++ tail = text ∧
      ∀ c ∈ tail.head?, continuesNumber number c = false := by
  have hdigits := isDigits_takeWhile h
  have happend : text.takeWhile Char.isDigit ++ text.dropWhile Char.isDigit = text :=
    List.takeWhile_append_dropWhile
  have hhead : ∀ c ∈ (text.dropWhile Char.isDigit).head?, c.isDigit = false := head?_dropWhile text
  rw [splitNumber]
  split
  · next rest hrest =>
      rw [hrest] at happend
      refine ⟨_, _, rfl, .pointed hdigits (List.all_eq_true.1 List.all_takeWhile), ?_, ?_⟩
      · rw [List.append_assoc, List.cons_append, List.takeWhile_append_dropWhile, happend]
      · intro c hc
        simp [continuesNumber, head?_dropWhile rest c hc]
  · next hpoint =>
      refine ⟨_, _, rfl, .whole hdigits, happend, ?_⟩
      intro c hc
      have hne : c ≠ '.' := by
        rintro rfl
        obtain ⟨tail, htail⟩ := List.head?_eq_some_iff.1 (Option.mem_def.1 hc)
        exact hpoint tail htail
      simp [continuesNumber, hhead c hc, hne]

/-! ## Operators and marks -/

def signs : List Char :=
  "=!<>?*,();".toList

/-- A sign begins neither a text in quotes nor a number nor a word. -/
theorem ne_of_sign {c : Char} (hc : c ∈ signs) :
    ¬c = '\'' ∧ ¬c = '"' ∧ ¬c.isDigit = true ∧ ¬c = '.' ∧ ¬c = '-' ∧
      ¬(c.isAlpha = true ∨ c = '_') := by
  have hother : ∀ d ∈ signs, ¬d = '\'' ∧ ¬d = '"' ∧ ¬d.isDigit = true ∧ ¬d = '.' ∧ ¬d = '-' ∧
      ¬(d.isAlpha = true ∨ d = '_') := by
    decide
  exact hother c hc

/-- A mark is read by itself. -/
theorem read_of_mark {c : Char} {token : Token} (hc : c ∈ signs) (h : ofMark? c = some token)
    (rest : List Char) : read c rest = (token, rest) := by
  obtain ⟨hsingle, hdouble, hdigit, hpoint, hminus, hletter⟩ := ne_of_sign hc
  rw [read, if_neg hsingle, if_neg hdouble, if_neg hdigit, if_neg fun h => hpoint h.1,
    if_neg fun h => hminus h.1, if_neg hletter, h]

/-- The longest operator is read. -/
theorem read_of_operator {c : Char} {rest tail : List Char} {symbol : OpSymbol} (hc : c ∈ signs)
    (hmark : ofMark? c = none) (h : readOperator? (c :: rest) = some (symbol, tail)) :
    read c rest = (.operator symbol, tail) := by
  obtain ⟨hsingle, hdouble, hdigit, hpoint, hminus, hletter⟩ := ne_of_sign hc
  rw [read, if_neg hsingle, if_neg hdouble, if_neg hdigit, if_neg fun h => hpoint h.1,
    if_neg fun h => hminus h.1, if_neg hletter, hmark, h]

theorem exists_of_isMark {token : Token} (h : token.isMark = true) :
    ∃ c, token.chars = [c] ∧ ofMark? c = some token ∧ c ∈ signs := by
  cases token with
  | placeholder | star | comma | leftParen | rightParen | semicolon =>
      exact ⟨_, rfl, rfl, by decide⟩
  | word | quotedName | quotedText | number | operator | unknown => cases h

theorem of_ofMark? {c : Char} {token : Token} (h : ofMark? c = some token) :
    token.isMark = true ∧ token.chars = [c] ∧ ∀ d, token.continues d = false := by
  rw [ofMark?.eq_def] at h
  split at h
  all_goals cases h
  all_goals exact ⟨rfl, rfl, fun _ => rfl⟩

theorem exists_cons_of_operator (symbol : OpSymbol) :
    ∃ c tail, symbol.text.toList = c :: tail ∧ c ∈ signs ∧ ofMark? c = none := by
  cases symbol
  all_goals exact ⟨_, _, rfl, by decide, rfl⟩

/-- The longest operator is the whole operator, where nothing goes on that makes it longer. -/
theorem readOperator?_append (symbol : OpSymbol) {rest : List Char}
    (hrest : (operator symbol).EndsBefore rest) :
    readOperator? (symbol.text.toList ++ rest) = some (symbol, rest) := by
  cases rest with
  | nil => cases symbol <;> rfl
  | cons d rest =>
      have hd : (operator symbol).continues d = false := hrest d rfl
      cases symbol with
      | equals =>
          have hequals : d ≠ '=' := by simpa [continues] using hd
          change readOperator? ('=' :: d :: rest) = _
          simp [readOperator?, hequals]
      | less =>
          have hne : d ≠ '=' ∧ d ≠ '>' := by simpa [continues] using hd
          change readOperator? ('<' :: d :: rest) = _
          simp [readOperator?, hne.1, hne.2]
      | greater =>
          have hequals : d ≠ '=' := by simpa [continues] using hd
          change readOperator? ('>' :: d :: rest) = _
          simp [readOperator?, hequals]
      | doubleEquals | bangEquals | angles | lessEquals | greaterEquals => rfl

/-- An operator that is read is as long as it can be. -/
theorem of_readOperator? {text tail : List Char} {symbol : OpSymbol}
    (h : readOperator? text = some (symbol, tail)) :
    symbol.text.toList ++ tail = text ∧ (operator symbol).EndsBefore tail := by
  rw [readOperator?.eq_def] at h
  split at h
  case h_2 rest hequals =>
    cases h
    refine ⟨rfl, fun c hc => ?_⟩
    obtain ⟨more, rfl⟩ := List.head?_eq_some_iff.1 (Option.mem_def.1 hc)
    have hne : c ≠ '=' := by
      rintro rfl
      exact hequals more rfl
    simp [continues, hne]
  case h_6 rest hgreater hequals =>
    cases h
    refine ⟨rfl, fun c hc => ?_⟩
    obtain ⟨more, rfl⟩ := List.head?_eq_some_iff.1 (Option.mem_def.1 hc)
    have hne : c ≠ '=' ∧ c ≠ '>' := by
      constructor
      · rintro rfl
        exact hequals more rfl
      · rintro rfl
        exact hgreater more rfl
    simp [continues, hne.1, hne.2]
  case h_8 rest hequals =>
    cases h
    refine ⟨rfl, fun c hc => ?_⟩
    obtain ⟨more, rfl⟩ := List.head?_eq_some_iff.1 (Option.mem_def.1 hc)
    have hne : c ≠ '=' := by
      rintro rfl
      exact hequals more rfl
    simp [continues, hne]
  all_goals cases h
  all_goals exact ⟨rfl, fun _ _ => rfl⟩

theorem mem_signs_of_ofMark? {c : Char} {token : Token} (h : ofMark? c = some token) :
    c ∈ signs := by
  rw [ofMark?.eq_def] at h
  split at h
  all_goals first | decide | cases h

/-- A token is known by its first character as far as marks and texts in quotes are concerned. -/
theorem Lexeme.first {token : Token} (h : Lexeme token) :
    ∃ c tail, token.chars = c :: tail ∧ c.toNat < 128 ∧ isBlank c = false ∧
      (∀ other, ofMark? c = some other → token = other) ∧
      (c = '\'' → ∃ content, token = .quotedText content) := by
  have hsigns : ∀ c ∈ signs, c.toNat < 128 ∧ isBlank c = false ∧ isAsciiWord c = false ∧
      c ≠ '\'' := by
    decide
  have hword : ∀ {c : Char} {P : Token → Prop}, isAsciiWord c = true →
      c.toNat < 128 ∧ isBlank c = false ∧ (∀ other, ofMark? c = some other → P other) ∧
        c ≠ '\'' := by
    intro c P hc
    refine ⟨Nat.lt_of_le_of_lt (toNat_of_isAsciiWord hc).2 (by decide), isBlank_of_isAsciiWord hc,
      fun other hother => ?_, ne_of_true_of_false hc (by decide)⟩
    rw [(hsigns c (mem_signs_of_ofMark? hother)).2.2.1] at hc
    cases hc
  cases h with
  | word identifier =>
      obtain ⟨c, tail, hchars, hc, -⟩ := exists_cons_of_isIdentifier identifier
      obtain ⟨hascii, hblank, hmark, hquote⟩ := hword hc.isAsciiWord
      exact ⟨c, tail, hchars, hascii, hblank, hmark, fun h => absurd h hquote⟩
  | name content =>
      exact ⟨'"', _, rfl, by decide, by decide, fun _ h => (nomatch h), fun h => absurd h (by decide)⟩
  | text content =>
      exact ⟨'\'', _, rfl, by decide, by decide, fun _ h => (nomatch h), fun _ => ⟨content, rfl⟩⟩
  | number numeral =>
      obtain ⟨c, tail, hchars⟩ := numeral.exists_cons
      have hmem : c ∈ c :: tail := List.mem_cons_self
      rcases numeral.isNumeric c (hchars ▸ hmem) with hdigit | rfl | rfl
      · obtain ⟨hascii, hblank, hmark, hquote⟩ := hword (isAsciiWord_of_isDigit hdigit)
        exact ⟨c, tail, hchars, hascii, hblank, hmark, fun h => absurd h hquote⟩
      · exact ⟨'.', tail, hchars, by decide, by decide, fun _ h => (nomatch h),
          fun h => absurd h (by decide)⟩
      · exact ⟨'-', tail, hchars, by decide, by decide, fun _ h => (nomatch h),
          fun h => absurd h (by decide)⟩
  | operator symbol =>
      obtain ⟨c, tail, hchars, hc, hmark⟩ := exists_cons_of_operator symbol
      obtain ⟨hascii, hblank, -, hquote⟩ := hsigns c hc
      refine ⟨c, tail, hchars, hascii, hblank, fun other hother => ?_, fun h => absurd h hquote⟩
      rw [hmark] at hother
      cases hother
  | mark isMark =>
      obtain ⟨c, hchars, hmark, hc⟩ := exists_of_isMark isMark
      obtain ⟨hascii, hblank, -, hquote⟩ := hsigns c hc
      refine ⟨c, [], hchars, hascii, hblank, fun other hother => ?_, fun h => absurd h hquote⟩
      rw [hmark] at hother
      exact Option.some.inj hother

/-! ## Reading a token as written -/

section Read

variable {rest : List Char}

/-- An identifier is read back as a word. -/
theorem read_word {text : String} (h : isIdentifier text.toList = true)
    (hrest : (word text).EndsBefore rest) :
    ∃ c tail, text.toList = c :: tail ∧ read c (tail ++ rest) = (word text, rest) := by
  obtain ⟨c, tail, hchars, hc, htail⟩ := exists_cons_of_isIdentifier h
  obtain ⟨htake, hdrop⟩ := span_append htail hrest
  refine ⟨c, tail, hchars, ?_⟩
  rw [read, if_neg (hc.ne (by decide)), if_neg (hc.ne (by decide)), if_neg (by simp [hc.isDigit]),
    if_neg (fun hpoint => hc.ne (by decide) hpoint.1),
    if_neg (fun hminus => hc.ne (by decide) hminus.1), if_pos (id hc : _ ∨ _), htake, hdrop,
    ← hchars, String.ofList_toList]

theorem read_name (content : String) (hrest : (quotedName content).EndsBefore rest) :
    read '"' (double '"' content.toList ++ '"' :: rest) = (quotedName content, rest) := by
  have hhead : rest.head? ≠ some '"' := fun hquote =>
    absurd (hrest '"' hquote) (by simp [continues])
  rw [read, if_neg (by decide), if_pos rfl, unquote?_double content.toList hhead]
  dsimp only
  rw [String.ofList_toList]

theorem read_text (content : String) (hrest : (quotedText content).EndsBefore rest) :
    read '\'' (double '\'' content.toList ++ '\'' :: rest) = (quotedText content, rest) := by
  have hhead : rest.head? ≠ some '\'' := fun hquote =>
    absurd (hrest '\'' hquote) (by simp [continues])
  rw [read, if_pos rfl, unquote?_double content.toList hhead]
  dsimp only
  rw [String.ofList_toList]

/-- A number is read back as it is written. -/
theorem read_number {text : String} (h : Numeral text.toList)
    (hrest : (number text).EndsBefore rest) :
    ∃ c tail, text.toList = c :: tail ∧ read c (tail ++ rest) = (number text, rest) := by
  have hrest : ∀ c ∈ rest.head?, continuesNumber text.toList c = false := hrest
  generalize hchars : text.toList = written at h hrest ⊢
  cases h with
  | unsigned unsigned =>
      have hsplit := splitNumber_append unsigned hrest
      have hdigit := unsigned.beginsWithDigit []
      cases written with
      | nil => cases hdigit
      | cons c tail =>
          have hc : c.isDigit = true := hdigit
          refine ⟨c, tail, rfl, ?_⟩
          rw [read, if_neg (ne_of_true_of_false hc (by decide)),
            if_neg (ne_of_true_of_false hc (by decide)), if_pos hc, ← List.cons_append, hsplit]
          dsimp only
          rw [← hchars, String.ofList_toList]
  | @fraction digits all =>
      have hdigit : ∀ c ∈ rest.head?, c.isDigit = false := fun c hc =>
        (Bool.or_eq_false_iff.1 (hrest c hc)).1
      have hbegins := (Unsigned.whole all).beginsWithDigit rest
      obtain ⟨htake, hdrop⟩ := span_append (fun c hc => Number.isDigit_of_isDigits all hc) hdigit
      refine ⟨'.', digits, rfl, ?_⟩
      rw [read, if_neg (by decide), if_neg (by decide), if_neg (by decide), if_pos ⟨rfl, hbegins⟩,
        htake, hdrop, ← hchars, String.ofList_toList]
  | @negative digits unsigned =>
      have hrest : ∀ c ∈ rest.head?, continuesNumber digits c = false := by
        intro c hc
        simpa [continuesNumber] using hrest c hc
      refine ⟨'-', digits, rfl, ?_⟩
      rw [read, if_neg (by decide), if_neg (by decide), if_neg (by decide), if_neg (by simp),
        if_pos ⟨rfl, unsigned.beginsWithDigit rest⟩, splitNumber_append unsigned hrest]
      dsimp only
      rw [← hchars, String.ofList_toList]

/-- A token as written is read back where the text does not go on with it. -/
theorem Lexeme.read {token : Token} (h : Lexeme token) (hrest : token.EndsBefore rest) :
    ∃ c tail, token.chars = c :: tail ∧ Token.read c (tail ++ rest) = (token, rest) := by
  cases h with
  | word identifier => exact read_word identifier hrest
  | name content =>
      refine ⟨'"', double '"' content.toList ++ ['"'], rfl, ?_⟩
      rw [List.append_assoc, List.singleton_append, read_name content hrest]
  | text content =>
      refine ⟨'\'', double '\'' content.toList ++ ['\''], rfl, ?_⟩
      rw [List.append_assoc, List.singleton_append, read_text content hrest]
  | number numeral => exact read_number numeral hrest
  | operator symbol =>
      obtain ⟨c, tail, hchars, hc, hmark⟩ := exists_cons_of_operator symbol
      have hoperator := readOperator?_append symbol hrest
      rw [hchars, List.cons_append] at hoperator
      exact ⟨c, tail, hchars, read_of_operator hc hmark hoperator⟩
  | mark isMark =>
      obtain ⟨c, hchars, hmark, hc⟩ := exists_of_isMark isMark
      exact ⟨c, [], hchars, read_of_mark hc hmark rest⟩

end Read

/-! ## What is read -/

/-- A token that is read from a text, and what is left of the text. -/
structure ReadFrom (text : List Char) (token : Token) (tail : List Char) : Prop where
  lexeme : Lexeme token
  append : token.chars ++ tail = text
  ends : token.EndsBefore tail

/-- What is read between quotes is the content with its quotes doubled, and what follows the
closing quote is no further quote. -/
theorem of_unquote? {quote : Char} {text : List Char} {found : List Char × List Char}
    (h : unquote? quote text = some found) :
    double quote found.1 ++ quote :: found.2 = text ∧ ∀ c ∈ found.2.head?, (c == quote) = false := by
  fun_induction unquote? quote text generalizing found with
  | case1 => cases h
  | case2 =>
      cases h
      refine ⟨rfl, ?_⟩
      rintro c ⟨⟩
  | case3 => cases h
  | case4 rest ih =>
      obtain ⟨inner, hinner, rfl⟩ := Option.map_eq_some_iff.1 h
      obtain ⟨happend, hhead⟩ := ih hinner
      refine ⟨?_, hhead⟩
      rw [double, if_pos rfl, List.cons_append, List.cons_append, happend]
  | case5 d rest hd =>
      cases h
      refine ⟨rfl, ?_⟩
      rintro c ⟨⟩
      simpa using hd
  | case6 c d rest hc ih =>
      obtain ⟨inner, hinner, rfl⟩ := Option.map_eq_some_iff.1 h
      obtain ⟨happend, hhead⟩ := ih hinner
      refine ⟨?_, hhead⟩
      rw [double, if_neg hc, List.cons_append, happend]

theorem readFrom_text {rest : List Char} {found : List Char × List Char}
    (h : unquote? '\'' rest = some found) :
    ReadFrom ('\'' :: rest) (.quotedText (String.ofList found.1)) found.2 := by
  obtain ⟨happend, hends⟩ := of_unquote? h
  refine ⟨.text _, ?_, hends⟩
  rw [chars, String.toList_ofList, enquote, List.append_assoc, List.cons_append]
  exact congrArg (_ :: ·) happend

theorem readFrom_name {rest : List Char} {found : List Char × List Char}
    (h : unquote? '"' rest = some found) :
    ReadFrom ('"' :: rest) (.quotedName (String.ofList found.1)) found.2 := by
  obtain ⟨happend, hends⟩ := of_unquote? h
  refine ⟨.name _, ?_, hends⟩
  rw [chars, String.toList_ofList, enquote, List.append_assoc, List.cons_append]
  exact congrArg (_ :: ·) happend

theorem readFrom_number {written tail text : List Char} (h : Numeral written)
    (happend : written ++ tail = text)
    (hends : ∀ c ∈ tail.head?, continuesNumber written c = false) :
    ReadFrom text (.number (String.ofList written)) tail := by
  refine ⟨.number ?_, ?_, ?_⟩
  · rwa [String.toList_ofList]
  · rw [chars, String.toList_ofList, happend]
  · intro c hc
    rw [continues, String.toList_ofList]
    exact hends c hc

theorem readFrom_word {c : Char} (hc : IsLetter c) (rest : List Char) :
    ReadFrom (c :: rest) (.word (String.ofList (c :: rest.takeWhile isAsciiWord)))
      (rest.dropWhile isAsciiWord) := by
  refine ⟨.word ?_, ?_, head?_dropWhile rest⟩
  · rw [String.toList_ofList]
    exact isIdentifier_cons hc (List.all_eq_true.1 List.all_takeWhile)
  · rw [chars, String.toList_ofList, List.cons_append, List.takeWhile_append_dropWhile]

/-- What is read is a token as written, and what follows does not go on with it. -/
theorem readFrom_of_read {c : Char} {rest tail : List Char} {token : Token}
    (h : Token.read c rest = (token, tail)) (hknown : ∀ d, token ≠ .unknown d) :
    ReadFrom (c :: rest) token tail := by
  -- The cases come in the order in which the reader tries them.
  rw [Token.read] at h
  split at h
  · next hc =>
      subst hc
      split at h
      · next hread =>
          cases h
          exact readFrom_text hread
      · cases h
        exact absurd rfl (hknown _)
  split at h
  · next hc =>
      subst hc
      split at h
      · next hread =>
          cases h
          exact readFrom_name hread
      · cases h
        exact absurd rfl (hknown _)
  split at h
  · next hc =>
      obtain ⟨written, after, hsplit, hunsigned, happend, hends⟩ :=
        splitNumber_spec (show beginsWithDigit (c :: rest) = true from hc)
      rw [hsplit] at h
      cases h
      exact readFrom_number (.unsigned hunsigned) happend hends
  split at h
  · next hc =>
      obtain ⟨rfl, hdigit⟩ := hc
      cases h
      refine readFrom_number (.fraction (isDigits_takeWhile hdigit)) ?_ fun c hc => ?_
      · rw [List.cons_append, List.takeWhile_append_dropWhile]
      · simp [continuesNumber, head?_dropWhile rest c hc]
  split at h
  · next hc =>
      obtain ⟨rfl, hdigit⟩ := hc
      obtain ⟨written, after, hsplit, hunsigned, happend, hends⟩ := splitNumber_spec hdigit
      rw [hsplit] at h
      cases h
      refine readFrom_number (.negative hunsigned) ?_ fun c hc => ?_
      · rw [List.cons_append, happend]
      · simpa [continuesNumber] using hends c hc
  split at h
  · next hc =>
      cases h
      exact readFrom_word hc rest
  split at h
  · next mark hmark =>
      cases h
      obtain ⟨hmark, hchars, hends⟩ := of_ofMark? hmark
      exact ⟨.mark hmark, by rw [hchars]; rfl, fun d _ => hends d⟩
  · next symbol after _ hread =>
      cases h
      obtain ⟨happend, hends⟩ := of_readOperator? hread
      exact ⟨.operator symbol, happend, hends⟩
  · cases h
    exact absurd rfl (hknown _)

/-! ## Reading a text -/

/-- A text is scanned one token at a time. -/
theorem scan_of_read {c : Char} {rest tail : List Char} {token : Token}
    (hblank : isAsciiBlank c = false) (h : read c rest = (token, tail)) :
    scan (c :: rest) = token :: scan tail := by
  rw [scan, hblank, h]
  rfl

theorem scan_blanks {gap : List Char} (hgap : ∀ c ∈ gap, isAsciiBlank c = true)
    (rest : List Char) : scan (gap ++ rest) = scan rest := by
  induction gap with
  | nil => rfl
  | cons c gap ih =>
      rw [List.cons_append, scan, if_pos (hgap c List.mem_cons_self)]
      exact ih fun d hd => hgap d (List.mem_cons_of_mem _ hd)

/-- A token is read from its first character, which is no blank. -/
theorem Lexeme.exists_read {token : Token} (h : Lexeme token) {rest : List Char}
    (hrest : token.EndsBefore rest) :
    ∃ c tail, token.chars = c :: tail ∧ isAsciiBlank c = false ∧
      Token.read c (tail ++ rest) = (token, rest) := by
  obtain ⟨c, tail, hchars, -, hblank, -⟩ := h.first
  obtain ⟨d, letters, heq, hread⟩ := h.read hrest
  cases hchars.symm.trans heq
  refine ⟨c, tail, hchars, Bool.eq_false_iff.2 fun hascii => ?_, hread⟩
  rw [isBlank_of_isAsciiBlank hascii] at hblank
  cases hblank

/-- A token is scanned back before whatever does not belong to it. -/
theorem Lexeme.scan {token : Token} (h : Lexeme token) {rest : List Char}
    (hrest : token.EndsBefore rest) :
    Token.scan (token.chars ++ rest) = token :: Token.scan rest := by
  obtain ⟨c, tail, hchars, hblank, hread⟩ := h.exists_read hrest
  rw [hchars]
  exact scan_of_read hblank hread

end ClosedSql.Token
