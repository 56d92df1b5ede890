import ClosedSql.Column.Kind
import ClosedSql.Config
import ClosedSql.Value

/-!
# Errors

Three layers can refuse. Binding gives a reason why a statement is not supported, and
then nothing has been sent. A store gives the cause of its failure. A call adds faults of
its own, such as a row that is not there. Each cause has one wording.
-/

namespace ClosedSql

/-- Why a statement is not supported. -/
inductive Reason
  /-- It has none of the known shapes. -/
  | notRecognized
  /-- Values, columns and parameters do not match in number. -/
  | mismatch (expected actual : Nat)
  /-- Its condition has several parts. -/
  | ambiguous
  /-- Its condition compares with a literal, and the settings forbid that. -/
  | literal
deriving DecidableEq

namespace Reason

def message : Reason → String
  | notRecognized => "statement shape not recognized"
  | mismatch expected actual =>
      "expected " ++ toString expected ++ " value(s), got " ++ toString actual
  | ambiguous => "WHERE clause has more than one condition"
  | literal => "WHERE clause compares against a literal"

end Reason

/-- Why a store could not serve a request. -/
inductive Failure
  | noSuchTable (table : String)
  /-- Every row would be changed. -/
  | unfilteredUpdate (table : String)
  /-- Every row would be deleted. -/
  | unfilteredDelete (table : String)
  /-- The failure was ordered beforehand. -/
  | ordered (message : String)
  | noValues (table : String)
  | cannotBind (value : Value) (type : ColumnType)
  | cannotSend (parameter : Nat)
  | cannotRead (column : Nat) (type : ColumnType)
  /-- The count is not an integer of 64 bits. -/
  | cannotReadCount
  /-- There is no column where the count should be. -/
  | noSuchColumn (column : Nat)
  /-- The server itself refused. -/
  | refused
deriving DecidableEq

namespace Failure

def message : Failure → String
  | noSuchTable table => "relation \"" ++ table ++ "\" does not exist"
  | unfilteredUpdate table => "UPDATE on \"" ++ table ++ "\" requires a filter"
  | unfilteredDelete table => "DELETE on \"" ++ table ++ "\" requires a filter"
  | ordered message => message
  | noValues table => "UPDATE on " ++ table ++ " has no values"
  | cannotBind value type => "cannot bind " ++ value.shown ++ " as " ++ type.label
  | cannotSend parameter => "error serializing parameter " ++ toString parameter
  | cannotRead column type =>
      "cannot read column " ++ toString column ++ " of type " ++ type.label
  | cannotReadCount => "error deserializing column 0"
  | noSuchColumn column => "invalid column `" ++ toString column ++ "`"
  | refused => "db error"

end Failure

/-- Why a call failed. -/
inductive Fault
  /-- No server answers. -/
  | unreachable
  | store (failure : Failure)
  | rowCount (expected actual : Nat)
  | noSuchColumn (column : String)
  | noSuchRow (table id : String)
  | unsupported (reason : Reason)
  | config (fault : ConfigFault)
deriving DecidableEq

namespace Fault

/-- The wording of a fault; that of a server out of reach is left to whoever failed to reach
it. -/
def message : Fault → String
  | unreachable => "Connection failed"
  | store failure => "Store request failed: " ++ failure.message
  | rowCount expected actual =>
      "Expected " ++ toString expected ++ " row(s), got " ++ toString actual
  | noSuchColumn column => "Column not found: " ++ column
  | noSuchRow table id => "No row in " ++ table ++ " with id " ++ id
  | unsupported reason => "Unsupported statement: " ++ reason.message
  | config fault => "Invalid configuration: " ++ fault.message

end Fault

end ClosedSql
