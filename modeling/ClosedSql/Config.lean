import ClosedSql.Text.Blank
import ClosedSql.Text.Case
import ClosedSql.Text.Word

/-!
# Settings

The settings of statements and calls, their defaults, and the faults that make settings
unacceptable. What replaces the spellings of the current time must not contain such a
spelling itself, and the two names must be identifiers.
-/

namespace ClosedSql

/-- What becomes of the condition of a count. -/
inductive CountPolicy
  /-- One condition filters the count; anything more is not supported. -/
  | apply
  /-- The condition is dropped and every row counts. -/
  | ignore
deriving DecidableEq

/-- What a raw call does with a statement that is not supported. -/
inductive UnsupportedPolicy
  /-- Answer as if nothing had been found or changed. -/
  | lenient
  /-- Fail with the reason. -/
  | strict
deriving DecidableEq

structure Config where
  /-- Stands in for every spelling of the current time. -/
  nowLiteral : String := "'now()'"
  /-- The column that holds the id of a row. -/
  idColumn : String := "id"
  /-- The column of a count that has no name of its own. -/
  countAlias : String := "total"
  countPolicy : CountPolicy := .apply
  unsupportedPolicy : UnsupportedPolicy := .lenient
  /-- A condition may compare with a literal. -/
  literalPredicates : Bool := true
deriving DecidableEq

/-- Why settings are refused. -/
inductive ConfigFault
  | unreadable
  | malformed
  | emptyNow
  | reservedNow (literal : String)
  | notIdentifier (setting value : String)
deriving DecidableEq

namespace ConfigFault

def message : ConfigFault → String
  | unreadable => "Failed to read config file"
  | malformed => "Failed to parse config"
  | emptyNow => "now_literal cannot be empty"
  | reservedNow literal =>
      "now_literal '" ++ literal ++ "' must not contain CURRENT_TIMESTAMP or DATETIME"
  | notIdentifier setting value =>
      setting ++ " '" ++ value ++ "' is not a valid identifier"

end ConfigFault

namespace Config

instance : Inhabited Config :=
  ⟨{}⟩

/-- Whether a text holds one of the words that stand for the current time, in any case of its
ASCII letters. -/
def mentionsNow (literal : List Char) : Bool :=
  Text.occurs "CURRENT_TIMESTAMP".toList (Text.upper literal) ||
    Text.occurs "DATETIME".toList (Text.upper literal)

def fault? (config : Config) : Option ConfigFault :=
  let literal := Text.trim config.nowLiteral.toList
  if literal.isEmpty then some .emptyNow
  else if mentionsNow literal then some (.reservedNow config.nowLiteral)
  else if !Text.isIdentifier config.idColumn.toList then
    some (.notIdentifier "id_column" config.idColumn)
  else if !Text.isIdentifier config.countAlias.toList then
    some (.notIdentifier "count_alias" config.countAlias)
  else none

def validate (config : Config) : Except ConfigFault Config :=
  match config.fault? with
  | some fault => .error fault
  | none => .ok config

end Config

end ClosedSql
