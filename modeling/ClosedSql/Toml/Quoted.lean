import ClosedSql.Text.Hex

/-!
# TOML strings

A string is basic, with escapes, or literal, without; each of them also comes in a form
that may span lines and begins and ends with three quotes. In that form one or two quotes
may stand before the three that close it, a line end right after the opening quotes does
not count, and every line end that counts is a line feed.
-/

namespace ClosedSql.Toml

def isSpace (c : Char) : Bool :=
  c == ' ' || c == '\t'

def isPlain (c : Char) : Bool :=
  c == '\t' || (32 ≤ c.toNat && c.toNat != 127)

/-- The text after the line end at its head. -/
def lineEnd? : List Char → Option (List Char)
  | '\n' :: rest => some rest
  | '\r' :: '\n' :: rest => some rest
  | _ => none

def skipLines : List Char → List Char
  | [] => []
  | '\r' :: '\n' :: rest => skipLines rest
  | c :: rest => if isSpace c ∨ c = '\n' then skipLines rest else c :: rest

def codePoint? (count : Nat) (text : List Char) : Option (Char × List Char) :=
  (Text.takeHex? count text).bind fun found =>
    if found.1.isValidChar then some (Char.ofNat found.1, found.2) else none

def shortEscape? : Char → Option Char
  | 'b' => some '\x08'
  | 't' => some '\t'
  | 'n' => some '\n'
  | 'f' => some '\x0c'
  | 'r' => some '\r'
  | '"' => some '"'
  | '\\' => some '\\'
  | _ => none

def escape? : List Char → Option (Char × List Char)
  | [] => none
  | c :: rest =>
      if c = 'u' then codePoint? 4 rest
      else if c = 'U' then codePoint? 8 rest
      else (shortEscape? c).map fun meant => (meant, rest)

/-- The text after the line ends and spaces that a backslash at the end of a line, already gone,
joins to the next line. -/
def joinLines? (text : List Char) : Option (List Char) :=
  (lineEnd? (text.dropWhile isSpace)).map skipLines

theorem length_codePoint?_le {count : Nat} {text : List Char} {found : Char × List Char}
    (h : codePoint? count text = some found) : found.2.length ≤ text.length := by
  obtain ⟨unit, hunit, h⟩ := Option.bind_eq_some_iff.1 h
  have hrest := Text.length_takeHex?_le hunit
  split at h
  · simp only [Option.some.injEq] at h
    subst h
    exact hrest
  · cases h

theorem length_escape? {text : List Char} {found : Char × List Char}
    (h : escape? text = some found) : found.2.length < text.length := by
  cases text with
  | nil => cases h
  | cons c rest =>
      rw [escape?] at h
      split at h
      · exact Nat.lt_succ_of_le (length_codePoint?_le h)
      · split at h
        · exact Nat.lt_succ_of_le (length_codePoint?_le h)
        · obtain ⟨_, _, rfl⟩ := Option.map_eq_some_iff.1 h
          simp

theorem length_skipLines_le (text : List Char) : (skipLines text).length ≤ text.length := by
  fun_induction skipLines text with
  | case1 => exact Nat.le_refl _
  | case2 rest ih => simp only [List.length_cons]; omega
  | case3 c rest _ _ ih => simp only [List.length_cons]; omega
  | case4 => exact Nat.le_refl _

theorem length_lineEnd? {text rest : List Char} (h : lineEnd? text = some rest) :
    rest.length < text.length := by
  rw [lineEnd?.eq_def] at h
  split at h
  · simp only [Option.some.injEq] at h; subst h; simp
  · simp only [Option.some.injEq] at h; subst h; simp only [List.length_cons]; omega
  · cases h

theorem length_joinLines? {text rest : List Char} (h : joinLines? text = some rest) :
    rest.length < text.length := by
  obtain ⟨line, hline, rfl⟩ := Option.map_eq_some_iff.1 h
  have hend := length_lineEnd? hline
  have hskip := length_skipLines_le line
  have hdrop := (List.dropWhile_sublist isSpace (l := text)).length_le
  omega

def basic? : List Char → Option (List Char × List Char)
  | [] => none
  | c :: rest =>
      if c = '"' then some ([], rest)
      else if c = '\\' then
        match _h : escape? rest with
        | some next => (basic? next.2).map fun found => (next.1 :: found.1, found.2)
        | none => none
      else if isPlain c then (basic? rest).map fun found => (c :: found.1, found.2)
      else none
termination_by text => text.length
decreasing_by
  · exact Nat.lt_succ_of_lt (length_escape? _h)
  · simp

def literal? (text : List Char) : Option (List Char × List Char) :=
  let inside (c : Char) : Bool := isPlain c && c != '\''
  match text.dropWhile inside with
  | '\'' :: rest => some (text.takeWhile inside, rest)
  | _ => none

/-- What follows the first three quotes of the run that ends a string: up to two quotes more, which
belong to the content, and the text after them. -/
def closing (quote : Char) (text : List Char) : List Char × List Char :=
  let content := (text.take 2).takeWhile (· == quote)
  (content, text.drop content.length)

def tripleQuote? (quote : Char) : List Char → Option (List Char)
  | a :: b :: c :: rest => if a = quote ∧ b = quote ∧ c = quote then some rest else none
  | _ => none

/-- A basic string of several lines whose opening quotes are already gone, and the text after
it. -/
def basicLines? : List Char → Option (List Char × List Char)
  | [] => none
  | c :: rest =>
      match tripleQuote? '"' (c :: rest) with
      | some tail => some (closing '"' tail)
      | none =>
          if c = '\\' then
            match _h : joinLines? rest, _h' : escape? rest with
            | some tail, _ => basicLines? tail
            | none, some next => (basicLines? next.2).map fun found => (next.1 :: found.1, found.2)
            | none, none => none
          else
            match _h : lineEnd? (c :: rest) with
            | some tail => (basicLines? tail).map fun found => ('\n' :: found.1, found.2)
            | none =>
                if isPlain c then (basicLines? rest).map fun found => (c :: found.1, found.2)
                else none
termination_by text => text.length
decreasing_by
  · exact Nat.lt_succ_of_lt (length_joinLines? _h)
  · exact Nat.lt_succ_of_lt (length_escape? _h')
  · exact length_lineEnd? _h
  · simp

def literalLines? : List Char → Option (List Char × List Char)
  | [] => none
  | c :: rest =>
      match tripleQuote? '\'' (c :: rest) with
      | some tail => some (closing '\'' tail)
      | none =>
          match _h : lineEnd? (c :: rest) with
          | some tail => (literalLines? tail).map fun found => ('\n' :: found.1, found.2)
          | none =>
              if isPlain c then (literalLines? rest).map fun found => (c :: found.1, found.2)
              else none
termination_by text => text.length
decreasing_by
  · exact length_lineEnd? _h
  · simp

def skipLineEnd (text : List Char) : List Char :=
  (lineEnd? text).getD text

def line? : List Char → Option (List Char × List Char)
  | '"' :: rest => basic? rest
  | '\'' :: rest => literal? rest
  | _ => none

def quoted? (text : List Char) : Option (List Char × List Char) :=
  match tripleQuote? '"' text, tripleQuote? '\'' text with
  | some rest, _ => basicLines? (skipLineEnd rest)
  | none, some rest => literalLines? (skipLineEnd rest)
  | none, none => line? text

end ClosedSql.Toml
