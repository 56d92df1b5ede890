import ClosedSql.Proofs.Statement.Grammar
import ClosedSql.Proofs.Token.Layout

/-!
# Writing statements

The canonical text of a statement: keywords in capitals, one space between words, question marks
for placeholders, texts in single quotes and integers in decimal digits. Not every statement has
one, since names that are quoted and floating-point numbers can be read in more than one way; the
plain statements do.
-/

namespace ClosedSql

open Text

/-! ## Tokens of a statement -/

def CompareOp.spelling : CompareOp → OpSymbol
  | eq => .equals
  | ne => .angles
  | lt => .less
  | le => .lessEquals
  | gt => .greater
  | ge => .greaterEquals

theorem CompareOp.op_spelling (op : CompareOp) : op.spelling.op = op := by
  cases op <;> rfl

def Slot.token : Slot → Token
  | .placeholder => .placeholder
  | .literal value =>
      match value with
      | .text content => .quotedText content
      | .int _ | .float _ => .number value.display
      | .bool _ | .null => .word value.display

def Condition.tokens (condition : Condition Slot) : List Token :=
  [.word condition.column, .operator condition.op.spelling, condition.operand.token]

def separated {α : Type} (item : α → List Token) : List α → List Token
  | [] => []
  | first :: others => item first ++ others.flatMap fun other => .comma :: item other

namespace Statement

def whereTokens : Option (Condition Slot) → List Token
  | none => []
  | some condition => .word "WHERE" :: condition.tokens

def orderTokens : Option OrderBy → List Token
  | none => []
  | some order =>
      [.word "ORDER", .word "BY", .word order.column,
        .word (if order.ascending then "ASC" else "DESC")]

def limitTokens : Option UInt64 → List Token
  | none => []
  | some limit => [.word "LIMIT", .number (toString limit.toNat)]

def labelTokens : Option String → List Token
  | none => []
  | some label => [.word "AS", .word label]

def condition? : Statement → Option (Condition Slot)
  | update _ _ condition | delete _ condition | count _ _ (.single condition) => some condition
  | select _ condition _ _ => condition
  | insert _ _ _ | count _ _ _ => none

def tokens : Statement → List Token
  | insert table columns values =>
      .word "INSERT" :: .word "INTO" :: .word table :: .leftParen ::
        (separated (fun column => [.word column]) columns ++ .rightParen :: .word "VALUES" ::
          .leftParen :: (separated (fun value => [value.token]) values ++ [.rightParen]))
  | update table assignments condition =>
      .word "UPDATE" :: .word table :: .word "SET" ::
        (separated (fun pair => [.word pair.1, .operator .equals, pair.2.token]) assignments ++
          .word "WHERE" :: condition.tokens)
  | delete table condition =>
      .word "DELETE" :: .word "FROM" :: .word table :: .word "WHERE" :: condition.tokens
  | select table condition order limit =>
      .word "SELECT" :: .star :: .word "FROM" :: .word table ::
        (whereTokens condition ++ (orderTokens order ++ limitTokens limit))
  | count table label filter =>
      .word "SELECT" :: .word "COUNT" :: .leftParen :: .star :: .rightParen ::
        (labelTokens label ++ .word "FROM" :: .word table ::
          whereTokens (count table label filter).condition?)

end Statement

/-! ## Text of a statement -/

/-- The space between two tokens: none before a comma or a closing parenthesis, after an opening
parenthesis or between `COUNT` and its parenthesis. -/
def Token.gap (previous token : Token) : List Char :=
  if token = .comma ∨ token = .rightParen ∨ previous = .leftParen ∨
      (previous = .word "COUNT" ∧ token = .leftParen) then []
  else [' ']

/-- Tokens with the usual spaces, after a given one. -/
def Layout.after : Token → List Token → Layout
  | _, [] => []
  | previous, token :: rest => (previous.gap token, token) :: after token rest

def Layout.ofTokens : List Token → Layout
  | [] => []
  | token :: rest => ([], token) :: after token rest

def Statement.print (statement : Statement) : String :=
  String.ofList (Layout.ofTokens statement.tokens).text

example :
    (Statement.insert "notes" ["id", "title"] [.placeholder, .literal (.text "it's")]).print =
      "INSERT INTO notes (id, title) VALUES (?, 'it''s')" := by
  decide

example :
    (Statement.count "notes" (some "n") (.single ⟨"size", .ge, .literal (.int (-10))⟩)).print =
      "SELECT COUNT(*) AS n FROM notes WHERE size >= -10" := by
  decide

/-! ## Plain statements -/

/-- Names that can be written without quotes and are no spelling of the current time. -/
structure IsPlainName (name : String) : Prop where
  identifier : isIdentifier name.toList = true
  free : Statement.isReserved name = false
  notStamp : lower name.toList ≠ "current_timestamp".toList

instance (name : String) : Decidable (IsPlainName name) :=
  decidable_of_iff
    (isIdentifier name.toList = true ∧ Statement.isReserved name = false ∧
      lower name.toList ≠ "current_timestamp".toList)
    ⟨fun h => ⟨h.1, h.2.1, h.2.2⟩, fun h => ⟨h.identifier, h.free, h.notStamp⟩⟩

/-- Values that can be written: placeholders, texts, truth values, the absence of a value and all
integers but zero and one, which may stand for truth values. -/
def Slot.IsPlain : Slot → Prop
  | .placeholder => True
  | .literal value =>
      match value with
      | .text _ | .bool _ | .null => True
      | .int n => n ≠ 0 ∧ n ≠ 1
      | .float _ => False

instance : (slot : Slot) → Decidable slot.IsPlain
  | .placeholder | .literal (.text _) | .literal (.bool _) | .literal .null =>
      inferInstanceAs (Decidable True)
  | .literal (.int n) => inferInstanceAs (Decidable (n ≠ 0 ∧ n ≠ 1))
  | .literal (.float _) => inferInstanceAs (Decidable False)

def Condition.IsPlain (condition : Condition Slot) : Prop :=
  IsPlainName condition.column ∧ condition.operand.IsPlain

instance (condition : Condition Slot) : Decidable condition.IsPlain :=
  inferInstanceAs (Decidable (_ ∧ _))

def CountFilter.IsPlain : CountFilter → Prop
  | .none => True
  | .single condition => condition.IsPlain
  | .beyond _ _ => False

instance : (filter : CountFilter) → Decidable filter.IsPlain
  | .none => inferInstanceAs (Decidable True)
  | .single condition => inferInstanceAs (Decidable condition.IsPlain)
  | .beyond _ _ => inferInstanceAs (Decidable False)

/-- Statements with plain names and values. A change has at least one column, no column is named
twice, and the condition of a count is at most a single one. -/
def Statement.IsPlain : Statement → Prop
  | insert table columns values =>
      IsPlainName table ∧ columns ≠ [] ∧ columns.length = values.length ∧ columns.Nodup ∧
        (∀ column ∈ columns, IsPlainName column) ∧ ∀ value ∈ values, value.IsPlain
  | update table assignments condition =>
      IsPlainName table ∧ assignments ≠ [] ∧ (assignments.map Prod.fst).Nodup ∧
        (∀ pair ∈ assignments, IsPlainName pair.1 ∧ pair.2.IsPlain) ∧ condition.IsPlain
  | delete table condition => IsPlainName table ∧ condition.IsPlain
  | select table condition order _ =>
      IsPlainName table ∧ (∀ found ∈ condition, found.IsPlain) ∧
        ∀ by_ ∈ order, IsPlainName by_.column
  | count table label filter =>
      IsPlainName table ∧ (∀ name ∈ label, IsPlainName name) ∧ filter.IsPlain

instance : (statement : Statement) → Decidable statement.IsPlain
  | .insert _ _ _ | .update _ _ _ | .delete _ _ | .select _ _ _ _ | .count _ _ _ =>
      inferInstanceAs (Decidable (_ ∧ _))

end ClosedSql
