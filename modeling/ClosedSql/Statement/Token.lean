import ClosedSql.Filter
import ClosedSql.Text.Blank
import ClosedSql.Text.Case
import ClosedSql.Text.Word

/-!
# Tokens

A statement is cut into tokens, with ASCII blanks between them left out. Keywords are
words like any other here. A quote that is never closed, and every character that begins
no token, is a token of its own that no statement contains.
-/

namespace ClosedSql

inductive OpSymbol
  | equals
  | doubleEquals
  | bangEquals
  | angles
  | less
  | lessEquals
  | greater
  | greaterEquals
deriving DecidableEq

namespace OpSymbol

def text : OpSymbol → String
  | equals => "="
  | doubleEquals => "=="
  | bangEquals => "!="
  | angles => "<>"
  | less => "<"
  | lessEquals => "<="
  | greater => ">"
  | greaterEquals => ">="

def op : OpSymbol → CompareOp
  | equals | doubleEquals => .eq
  | bangEquals | angles => .ne
  | less => .lt
  | lessEquals => .le
  | greater => .gt
  | greaterEquals => .ge

/-- An operator as written is the comparison that is meant. -/
theorem ofSymbol?_text (symbol : OpSymbol) : CompareOp.ofSymbol? symbol.text = some symbol.op := by
  cases symbol <;> rfl

end OpSymbol

inductive Token
  /-- A keyword or a name. -/
  | word (text : String)
  /-- A name in double quotes, without them. -/
  | quotedName (text : String)
  /-- A text in single quotes, without them. -/
  | quotedText (text : String)
  /-- A number as written. -/
  | number (text : String)
  | placeholder
  | star
  | comma
  | leftParen
  | rightParen
  | semicolon
  | operator (symbol : OpSymbol)
  | unknown (c : Char)
deriving DecidableEq

namespace Token

open Text

def isKeyword (keyword : String) : Token → Bool
  | word text => sameIgnoringCase text.toList keyword.toList
  | _ => false

def splitNumber (text : List Char) : List Char × List Char :=
  match text.dropWhile Char.isDigit with
  | '.' :: rest =>
      (text.takeWhile Char.isDigit ++ '.' :: rest.takeWhile Char.isDigit,
        rest.dropWhile Char.isDigit)
  | rest => (text.takeWhile Char.isDigit, rest)

def beginsWithDigit : List Char → Bool
  | [] => false
  | c :: _ => c.isDigit

def ofMark? : Char → Option Token
  | '?' => some placeholder
  | '*' => some star
  | ',' => some comma
  | '(' => some leftParen
  | ')' => some rightParen
  | ';' => some semicolon
  | _ => none

/-- The longest operator at the head of a text, and the text after it. -/
def readOperator? : List Char → Option (OpSymbol × List Char)
  | '=' :: '=' :: rest => some (.doubleEquals, rest)
  | '=' :: rest => some (.equals, rest)
  | '!' :: '=' :: rest => some (.bangEquals, rest)
  | '<' :: '>' :: rest => some (.angles, rest)
  | '<' :: '=' :: rest => some (.lessEquals, rest)
  | '<' :: rest => some (.less, rest)
  | '>' :: '=' :: rest => some (.greaterEquals, rest)
  | '>' :: rest => some (.greater, rest)
  | _ => none

def read (c : Char) (rest : List Char) : Token × List Char :=
  if c = '\'' then
    match unquote? c rest with
    | some (content, tail) => (quotedText (String.ofList content), tail)
    | none => (unknown c, rest)
  else if c = '"' then
    match unquote? c rest with
    | some (content, tail) => (quotedName (String.ofList content), tail)
    | none => (unknown c, rest)
  else if c.isDigit then
    let (digits, tail) := splitNumber (c :: rest)
    (number (String.ofList digits), tail)
  else if c = '.' ∧ beginsWithDigit rest then
    (number (String.ofList ('.' :: rest.takeWhile Char.isDigit)), rest.dropWhile Char.isDigit)
  else if c = '-' ∧ beginsWithDigit rest then
    let (digits, tail) := splitNumber rest
    (number (String.ofList ('-' :: digits)), tail)
  else if c.isAlpha ∨ c = '_' then
    (word (String.ofList (c :: rest.takeWhile isAsciiWord)), rest.dropWhile isAsciiWord)
  else
    match ofMark? c, readOperator? (c :: rest) with
    | some token, _ => (token, rest)
    | none, some (symbol, tail) => (operator symbol, tail)
    | none, none => (unknown c, rest)

theorem length_dropWhile_le (p : Char → Bool) (text : List Char) :
    (text.dropWhile p).length ≤ text.length :=
  (List.dropWhile_sublist p).length_le

theorem length_splitNumber_le (text : List Char) :
    (splitNumber text).2.length ≤ text.length := by
  have hdrop := length_dropWhile_le Char.isDigit text
  rw [splitNumber]
  split
  · next rest heq =>
      have hrest := length_dropWhile_le Char.isDigit rest
      rw [heq, List.length_cons] at hdrop
      simp only
      omega
  · exact hdrop

theorem length_splitNumber_cons_le {c : Char} (rest : List Char) (hc : c.isDigit = true) :
    (splitNumber (c :: rest)).2.length ≤ rest.length := by
  have hdrop := length_dropWhile_le Char.isDigit rest
  rw [splitNumber, List.dropWhile_cons_of_pos hc]
  split
  · next tail heq =>
      have htail := length_dropWhile_le Char.isDigit tail
      rw [heq, List.length_cons] at hdrop
      simp only
      omega
  · exact hdrop

theorem length_readOperator?_le {c : Char} {rest : List Char} {found : OpSymbol × List Char}
    (h : readOperator? (c :: rest) = some found) : found.2.length ≤ rest.length := by
  rw [readOperator?.eq_def] at h
  split at h <;> simp_all only [List.cons.injEq, Option.some.injEq, reduceCtorEq] <;>
    (obtain ⟨_, rfl⟩ := ‹c = _ ∧ rest = _›; subst h; simp)

theorem length_read_le (c : Char) (rest : List Char) : (read c rest).2.length ≤ rest.length := by
  rw [read]
  split
  · split
    · next found hfound => exact Nat.le_of_lt (length_unquote? hfound)
    · exact Nat.le_refl _
  · split
    · split
      · next found hfound => exact Nat.le_of_lt (length_unquote? hfound)
      · exact Nat.le_refl _
    · split
      · next hc => exact length_splitNumber_cons_le rest hc
      · split
        · exact length_dropWhile_le _ _
        · split
          · exact length_splitNumber_le rest
          · split
            · exact length_dropWhile_le _ _
            · split
              · exact Nat.le_refl _
              · next hop => exact length_readOperator?_le hop
              · exact Nat.le_refl _

def scan : List Char → List Token
  | [] => []
  | c :: rest =>
      if isAsciiBlank c then scan rest
      else (read c rest).1 :: scan (read c rest).2
termination_by text => text.length
decreasing_by
  · simp
  · exact Nat.lt_succ_of_le (length_read_le c rest)

def ofText (text : String) : List Token :=
  scan text.toList

end Token

end ClosedSql
