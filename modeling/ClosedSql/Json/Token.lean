import ClosedSql.Json.Number
import ClosedSql.Number.FloatStyle
import ClosedSql.Text.Hex

/-!
# JSON tokens

Punctuation, and the values that have no parts. Text is written without blanks, so a
document is the sequence of its tokens' texts; a reader skips the four blanks of the
format between tokens.
-/

namespace ClosedSql.Json

open Number

/-- A value without parts. An integer lies between `-2 ^ 63` and `2 ^ 64 - 1`. -/
inductive Scalar
  | null
  | bool (b : Bool)
  | int (n : Int)
  | float (x : Binary64)
  | string (s : String)
deriving DecidableEq

inductive Token
  | scalar (value : Scalar)
  | openArray
  | closeArray
  | openObject
  | closeObject
  | comma
  | colon
deriving DecidableEq

/-- Floats have a point always and an exponent from ten to the sixteenth and below ten to the
minus fifth, where the sign of the exponent is written. -/
def floatStyle : FloatStyle :=
  ⟨some (-5, 16), true, true, .even⟩

def isControl (c : Char) : Bool :=
  c.toNat < 32

/-- A character inside a string. Controls have an escape, of one letter where there is one. -/
def escapeChar (c : Char) : List Char :=
  if c = '"' then ['\\', '"']
  else if c = '\\' then ['\\', '\\']
  else if c = '\x08' then ['\\', 'b']
  else if c = '\x0c' then ['\\', 'f']
  else if c = '\n' then ['\\', 'n']
  else if c = '\r' then ['\\', 'r']
  else if c = '\t' then ['\\', 't']
  else if isControl c then '\\' :: 'u' :: Text.hexText 4 c.toNat
  else [c]

namespace Scalar

/-- A float that is no number or not finite has no text of its own. -/
def text : Scalar → List Char
  | null => "null".toList
  | bool true => "true".toList
  | bool false => "false".toList
  | int n => (toString n).toList
  | float x => if x.isFinite then floatStyle.write x else "null".toList
  | string s => '"' :: s.toList.flatMap escapeChar ++ ['"']

end Scalar

namespace Token

def text : Token → List Char
  | scalar value => value.text
  | openArray => ['[']
  | closeArray => [']']
  | openObject => ['\x7b']
  | closeObject => ['\x7d']
  | comma => [',']
  | colon => [':']

def isSpace (c : Char) : Bool :=
  c == ' ' || c == '\t' || c == '\n' || c == '\r'

def isHighUnit (unit : Nat) : Bool :=
  0xD800 ≤ unit && unit < 0xDC00

def isLowUnit (unit : Nat) : Bool :=
  0xDC00 ≤ unit && unit < 0xE000

/-- The character beyond the first plane that a pair of units stands for. -/
def ofUnits (high low : Nat) : Char :=
  Char.ofNat (0x10000 + (high - 0xD800) * 0x400 + (low - 0xDC00))

def lowUnit? : List Char → Option (Nat × List Char)
  | '\\' :: 'u' :: rest => (Text.takeHex? 4 rest).filter fun found => isLowUnit found.1
  | _ => none

/-- A character by its number, and the text after it. One beyond the first plane takes a pair of
units, and no unit of a pair may stand alone. -/
def codePoint? (text : List Char) : Option (Char × List Char) :=
  match Text.takeHex? 4 text with
  | none => none
  | some (unit, rest) =>
      if isHighUnit unit then (lowUnit? rest).map fun found => (ofUnits unit found.1, found.2)
      else if isLowUnit unit then none
      else some (Char.ofNat unit, rest)

def shortEscape? : Char → Option Char
  | '"' => some '"'
  | '\\' => some '\\'
  | '/' => some '/'
  | 'b' => some '\x08'
  | 'f' => some '\x0c'
  | 'n' => some '\n'
  | 'r' => some '\r'
  | 't' => some '\t'
  | _ => none

/-- What an escape stands for whose backslash is already gone, and the text after it. -/
def escape? : List Char → Option (Char × List Char)
  | [] => none
  | c :: rest =>
      if c = 'u' then codePoint? rest else (shortEscape? c).map fun meant => (meant, rest)

theorem length_lowUnit? {text : List Char} {found : Nat × List Char}
    (h : lowUnit? text = some found) : found.2.length < text.length := by
  rw [lowUnit?.eq_def] at h
  split at h
  · have := Text.length_takeHex?_le (Option.filter_eq_some_iff.1 h).1
    simp only [List.length_cons]
    omega
  · cases h

theorem length_codePoint?_le {text : List Char} {found : Char × List Char}
    (h : codePoint? text = some found) : found.2.length ≤ text.length := by
  rw [codePoint?] at h
  split at h
  · cases h
  · next unit rest hunit =>
      have hrest := Text.length_takeHex?_le hunit
      split at h
      · obtain ⟨low, hlow, rfl⟩ := Option.map_eq_some_iff.1 h
        exact Nat.le_trans (Nat.le_of_lt (length_lowUnit? hlow)) hrest
      · split at h
        · cases h
        · simp only [Option.some.injEq] at h
          subst h
          exact hrest

theorem length_escape? {text : List Char} {found : Char × List Char}
    (h : escape? text = some found) : found.2.length < text.length := by
  cases text with
  | nil => cases h
  | cons c rest =>
      rw [escape?] at h
      split at h
      · exact Nat.lt_succ_of_le (length_codePoint?_le h)
      · obtain ⟨_, _, rfl⟩ := Option.map_eq_some_iff.1 h
        simp

/-- A string whose opening quote is already gone: its content, and the text after its closing
quote. No control character may stand in it. -/
def string? : List Char → Option (List Char × List Char)
  | [] => none
  | c :: rest =>
      if c = '"' then some ([], rest)
      else if c = '\\' then
        match _h : escape? rest with
        | some next => (string? next.2).map fun found => (next.1 :: found.1, found.2)
        | none => none
      else if isControl c then none
      else (string? rest).map fun found => (c :: found.1, found.2)
termination_by text => text.length
decreasing_by
  · exact Nat.lt_succ_of_lt (length_escape? _h)
  · simp

def ofNumeral : Numeral → Token
  | .int n => scalar (.int n)
  | .float x => scalar (.float x)

def read? : List Char → Option (Token × List Char)
  | '[' :: rest => some (openArray, rest)
  | ']' :: rest => some (closeArray, rest)
  | '\x7b' :: rest => some (openObject, rest)
  | '\x7d' :: rest => some (closeObject, rest)
  | ',' :: rest => some (comma, rest)
  | ':' :: rest => some (colon, rest)
  | 'n' :: 'u' :: 'l' :: 'l' :: rest => some (scalar .null, rest)
  | 't' :: 'r' :: 'u' :: 'e' :: rest => some (scalar (.bool true), rest)
  | 'f' :: 'a' :: 'l' :: 's' :: 'e' :: rest => some (scalar (.bool false), rest)
  | '"' :: rest =>
      (string? rest).map fun found => (scalar (.string (String.ofList found.1)), found.2)
  | '-' :: rest => (numeral? true rest).map fun found => (ofNumeral found.1, found.2)
  | text => (numeral? false text).map fun found => (ofNumeral found.1, found.2)

theorem length_string? {text : List Char} {found : List Char × List Char}
    (h : string? text = some found) : found.2.length < text.length := by
  fun_induction string? text generalizing found with
  | case1 => cases h
  | case2 => simp only [Option.some.injEq] at h; subst h; simp
  | case3 rest next hnext _ ih =>
      obtain ⟨content, hcontent, rfl⟩ := Option.map_eq_some_iff.1 h
      have hrest := length_escape? hnext
      have htail := ih hcontent
      simp only [List.length_cons]
      omega
  | case4 => cases h
  | case5 => cases h
  | case6 c rest _ _ _ ih =>
      obtain ⟨content, hcontent, rfl⟩ := Option.map_eq_some_iff.1 h
      have htail := ih hcontent
      exact Nat.lt_succ_of_lt htail

/-- A token takes a character of the text at least. -/
theorem length_read? {text : List Char} {found : Token × List Char}
    (h : read? text = some found) : found.2.length < text.length := by
  rw [read?.eq_def] at h
  split at h
  case h_10 =>
    obtain ⟨_, hstring, rfl⟩ := Option.map_eq_some_iff.1 h
    exact Nat.lt_succ_of_lt (length_string? hstring)
  case h_11 =>
    obtain ⟨_, hnumeral, rfl⟩ := Option.map_eq_some_iff.1 h
    exact Nat.lt_succ_of_lt (length_numeral? hnumeral)
  case h_12 =>
    obtain ⟨_, hnumeral, rfl⟩ := Option.map_eq_some_iff.1 h
    exact length_numeral? hnumeral
  all_goals
    simp only [Option.some.injEq] at h
    subst h
    simp only [List.length_cons]
    omega

def scan? : List Char → Option (List Token)
  | [] => some []
  | c :: rest =>
      if isSpace c then scan? rest
      else
        match _h : read? (c :: rest) with
        | some next => (scan? next.2).map (next.1 :: ·)
        | none => none
termination_by text => text.length
decreasing_by
  · simp
  · exact length_read? _h

end Token

end ClosedSql.Json
