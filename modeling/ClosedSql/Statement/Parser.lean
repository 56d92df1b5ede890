import ClosedSql.Statement.Form
import ClosedSql.Statement.Token

/-!
# Reading statements

A statement is read from its tokens from left to right; its first word decides which of
five forms is tried. Every form may end in one semicolon. A condition that goes on with
`and` or `or` is told from other statements that are not recognized. Only a count may have
such a condition, or any other, as long as nothing but a condition can be meant.
-/

namespace ClosedSql.Statement

def reservedWords : List (List Char) :=
  ["select", "insert", "update", "delete", "from", "where", "and", "or", "not", "set", "values",
    "into", "order", "by", "limit", "offset", "group", "having", "join", "inner", "left", "right",
    "on", "union", "as", "in", "is", "null", "like", "true", "false", "distinct"].map String.toList

def isReserved (word : String) : Bool :=
  reservedWords.contains (Text.lower word.toList)

def name? : Token → Option String
  | .word text => if isReserved text then none else some text
  | .quotedName text => if Text.isIdentifier text.toList then some text else none
  | _ => none

def startsWith (keyword : String) : List Token → Bool
  | token :: _ => token.isKeyword keyword
  | [] => false

def keyword (keyword : String) : List Token → Except Reason (List Token)
  | token :: rest => if token.isKeyword keyword then .ok rest else .error .notRecognized
  | [] => .error .notRecognized

def mark (expected : Token) : List Token → Except Reason (List Token)
  | token :: rest => if token = expected then .ok rest else .error .notRecognized
  | [] => .error .notRecognized

def name : List Token → Except Reason (String × List Token)
  | token :: rest =>
      match name? token with
      | some name => .ok (name, rest)
      | none => .error .notRecognized
  | [] => .error .notRecognized

def finish (statement : Statement) : List Token → Except Reason Statement
  | [] | [.semicolon] => .ok statement
  | _ => .error .notRecognized

/-- The value of a number as written: with a point a floating-point number, without one an
integer of 64 bits. -/
def numberLiteral? (text : String) : Option Value :=
  if text.toList.contains '.' then (Number.readFloat? text.toList).map Value.float
  else (Number.readInt64? text.toList).map Value.int

/-- The text that stands for the current time as a value. -/
def nowText : String :=
  "now()"

def wordLiteral? (text : String) : Option Value :=
  let word := Text.lower text.toList
  if word = "true".toList then some (.bool true)
  else if word = "false".toList then some (.bool false)
  else if word = "null".toList then some .null
  else none

/-- A placeholder or a literal, and the tokens after it. The call of `now` is a literal. -/
def operand : List Token → Except Reason (Slot × List Token)
  | .placeholder :: rest => .ok (.placeholder, rest)
  | .quotedText text :: rest => .ok (.literal (.text text), rest)
  | .number text :: rest =>
      match numberLiteral? text with
      | some value => .ok (.literal value, rest)
      | none => .error .notRecognized
  | .word text :: rest =>
      match wordLiteral? text, rest with
      | some value, _ => .ok (.literal value, rest)
      | none, .leftParen :: .rightParen :: tail =>
          if Text.lower text.toList = "now".toList then .ok (.literal (.text nowText), tail)
          else .error .notRecognized
      | none, _ => .error .notRecognized
  | _ => .error .notRecognized

theorem length_operand {tokens : List Token} {found : Slot × List Token}
    (h : operand tokens = .ok found) : found.2.length < tokens.length := by
  rw [operand.eq_def] at h
  split at h
  · cases h; simp
  · cases h; simp
  · split at h
    · cases h; simp
    · cases h
  · split at h
    · cases h; simp
    · split at h
      · cases h; simp; omega
      · cases h
    · cases h
  · cases h

def condition (tokens : List Token) : Except Reason (Condition Slot × List Token) := do
  let (column, tokens) ← name tokens
  match tokens with
  | .operator symbol :: tokens =>
      let (slot, tokens) ← operand tokens
      if startsWith "and" tokens || startsWith "or" tokens then throw .ambiguous
      return (⟨column, symbol.op, slot⟩, tokens)
  | _ => throw .notRecognized

/-- Further names after commas, none of them twice. -/
def moreNames (names : List String) : List Token → Except Reason (List String × List Token)
  | .comma :: token :: rest =>
      match name? token with
      | some name =>
          if names.contains name then .error .notRecognized else moreNames (names ++ [name]) rest
      | none => .error .notRecognized
  | [.comma] => .error .notRecognized
  | rest => .ok (names, rest)

/-- Further operands after commas. -/
def moreOperands (tokens : List Token) : Except Reason (List Slot × List Token) :=
  match tokens with
  | .comma :: rest =>
      match _h : operand rest with
      | .ok (slot, tail) =>
          match moreOperands tail with
          | .ok (slots, tail) => .ok (slot :: slots, tail)
          | .error reason => .error reason
      | .error reason => .error reason
  | rest => .ok ([], rest)
termination_by tokens.length
decreasing_by
  have := length_operand _h
  simp only [List.length_cons] at this ⊢
  omega

def insertForm (tokens : List Token) : Except Reason Statement := do
  let tokens ← keyword "into" tokens
  let (table, tokens) ← name tokens
  let tokens ← mark .leftParen tokens
  let (column, tokens) ← name tokens
  let (columns, tokens) ← moreNames [column] tokens
  let tokens ← mark .rightParen tokens
  let tokens ← keyword "values" tokens
  let tokens ← mark .leftParen tokens
  let (value, tokens) ← operand tokens
  let (values, tokens) ← moreOperands tokens
  let tokens ← mark .rightParen tokens
  finish (.insert table columns (value :: values)) tokens

def assignment (tokens : List Token) : Except Reason ((String × Slot) × List Token) :=
  match tokens with
  | token :: .operator .equals :: rest =>
      match name? token, operand rest with
      | some column, .ok (slot, tail) => .ok ((column, slot), tail)
      | _, _ => .error .notRecognized
  | _ => .error .notRecognized

theorem length_assignment {tokens : List Token} {found : (String × Slot) × List Token}
    (h : assignment tokens = .ok found) : found.2.length < tokens.length := by
  rw [assignment.eq_def] at h
  split at h
  · split at h
    · next hoperand =>
        have := length_operand hoperand
        cases h
        simp only [List.length_cons] at this ⊢
        omega
    · cases h
  · cases h

/-- Further assignments after commas, to columns not yet assigned. -/
def moreAssignments (columns : List String) (tokens : List Token) :
    Except Reason (List (String × Slot) × List Token) :=
  match tokens with
  | .comma :: rest =>
      match _h : assignment rest with
      | .ok (found, tail) =>
          if columns.contains found.1 then .error .notRecognized
          else
            match moreAssignments (found.1 :: columns) tail with
            | .ok (others, tail) => .ok (found :: others, tail)
            | .error reason => .error reason
      | .error reason => .error reason
  | rest => .ok ([], rest)
termination_by tokens.length
decreasing_by
  have := length_assignment _h
  simp only [List.length_cons] at this ⊢
  omega

def updateForm (tokens : List Token) : Except Reason Statement := do
  let (table, tokens) ← name tokens
  let tokens ← keyword "set" tokens
  let (first, tokens) ← assignment tokens
  let (others, tokens) ← moreAssignments [first.1] tokens
  let tokens ← keyword "where" tokens
  let (found, tokens) ← condition tokens
  finish (.update table (first :: others) found) tokens

def deleteForm (tokens : List Token) : Except Reason Statement := do
  let tokens ← keyword "from" tokens
  let (table, tokens) ← name tokens
  let tokens ← keyword "where" tokens
  let (found, tokens) ← condition tokens
  finish (.delete table found) tokens

def whereClause (tokens : List Token) : Except Reason (Option (Condition Slot) × List Token) :=
  if startsWith "where" tokens then do
    let (found, tokens) ← condition (tokens.drop 1)
    return (some found, tokens)
  else return (none, tokens)

def orderClause (tokens : List Token) : Except Reason (Option OrderBy × List Token) :=
  if startsWith "order" tokens then do
    let tokens ← keyword "by" (tokens.drop 1)
    let (column, tokens) ← name tokens
    if startsWith "desc" tokens then return (some ⟨column, false⟩, tokens.drop 1)
    if startsWith "asc" tokens then return (some ⟨column, true⟩, tokens.drop 1)
    return (some ⟨column, true⟩, tokens)
  else return (none, tokens)

def limitClause (tokens : List Token) : Except Reason (Option UInt64 × List Token) :=
  if startsWith "limit" tokens then
    match tokens.drop 1 with
    | .number text :: rest =>
        match Number.readUInt64? text.toList with
        | some limit => .ok (some limit, rest)
        | none => .error .notRecognized
    | _ => .error .notRecognized
  else .ok (none, tokens)

def selectForm (tokens : List Token) : Except Reason Statement := do
  let tokens ← mark .star tokens
  let tokens ← keyword "from" tokens
  let (table, tokens) ← name tokens
  let (found, tokens) ← whereClause tokens
  let (order, tokens) ← orderClause tokens
  let (limit, tokens) ← limitClause tokens
  finish (.select table found order limit) tokens

/-- Words that make the end of a count more than a condition. -/
def blockingWords : List String :=
  ["select", "join", "group", "having", "union", "order", "limit", "offset"]

def isBlocking : Token → Bool
  | .semicolon | .unknown _ => true
  | token => blockingWords.any token.isKeyword

def dropSemicolon (tokens : List Token) : List Token :=
  if tokens.getLast? = some .semicolon then tokens.dropLast else tokens

/-- Everything after `where` as a condition that is not understood. -/
def beyondCondition (tokens : List Token) : Except Reason CountFilter :=
  let tail := dropSemicolon tokens
  if tail.isEmpty || tail.any isBlocking then .error .notRecognized
  else
    let reason := if tail.any fun token => token.isKeyword "and" || token.isKeyword "or" then
      Reason.ambiguous else .notRecognized
    .ok (.beyond reason (tail.count .placeholder))

/-- Whether the tokens are at their end but for a semicolon. -/
def atEnd : List Token → Bool
  | [] | .semicolon :: _ => true
  | _ => false

/-- The condition of a count and the end of the statement: one condition where that is all,
anything else as it is. -/
def countFilter (table : String) (label : Option String) (tokens : List Token) :
    Except Reason Statement :=
  match condition tokens with
  | .ok (found, rest) =>
      if atEnd rest then finish (.count table label (.single found)) rest
      else (beyondCondition tokens).map (.count table label)
  | .error _ => (beyondCondition tokens).map (.count table label)

/-- The optional name of a count. -/
def countLabel (tokens : List Token) : Except Reason (Option String × List Token) :=
  if startsWith "as" tokens then do
    let (label, tokens) ← name (tokens.drop 1)
    return (some label, tokens)
  else if startsWith "from" tokens then return (none, tokens)
  else do
    let (label, tokens) ← name tokens
    return (some label, tokens)

def countForm (tokens : List Token) : Except Reason Statement := do
  let tokens ← mark .star tokens
  let tokens ← mark .rightParen tokens
  let (label, tokens) ← countLabel tokens
  let tokens ← keyword "from" tokens
  let (table, tokens) ← name tokens
  if startsWith "where" tokens then countFilter table label (tokens.drop 1)
  else finish (.count table label .none) tokens

def ofTokens (tokens : List Token) : Except Reason Statement :=
  match tokens with
  | [] => .error .notRecognized
  | token :: rest =>
      if token.isKeyword "select" then
        match rest with
        | second :: .leftParen :: tail =>
            if second.isKeyword "count" then countForm tail else selectForm rest
        | _ => selectForm rest
      else if token.isKeyword "insert" then insertForm rest
      else if token.isKeyword "update" then updateForm rest
      else if token.isKeyword "delete" then deleteForm rest
      else .error .notRecognized

/-- The statement written as a text, whose dialect literals have been replaced. -/
def ofText (text : String) : Except Reason Statement :=
  ofTokens (Token.ofText text)

/-- The category of a text without dialect literals. -/
def classify (text : String) : Shape :=
  match ofText text with
  | .ok statement => statement.shape
  | .error _ => .unrecognized text

end ClosedSql.Statement
