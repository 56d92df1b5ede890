import ClosedSql.Number.FloatStyle
import ClosedSql.Number.Reading
import ClosedSql.Text.Blank
import ClosedSql.Text.Visible

/-!
# Values

A value is what a column or a parameter holds: nothing, a truth value, an integer of 64
bits, a floating-point number or a text. Values of different kinds compare as numbers
where both can be read as numbers; nothing compares with the absence of a value.
-/

namespace ClosedSql

open Number

inductive Value
  | null
  | bool (b : Bool)
  | int (n : Int64)
  | float (x : Binary64)
  | text (s : String)
deriving DecidableEq

namespace Value

instance : Inhabited Value :=
  ⟨null⟩

def isNull : Value → Bool
  | null => true
  | _ => false

def ofBit (b : Bool) : Int64 :=
  if b then 1 else 0

/-- The integer a value can stand for. A float without fraction beyond the range stands for
the end of the range, and a text may have blanks around its digits. -/
def toInt64? : Value → Option Int64
  | int n => some n
  | float x => x.toInt?.map Int64.ofIntClamp
  | text s => readInt64? (Text.trim s.toList)
  | null | bool _ => none

/-- The floating-point number a value compares as against a number. -/
def toFloat? : Value → Option Binary64
  | int n => some (.ofInt n.toInt)
  | float x => some x
  | text s => readFloat? (Text.trim s.toList)
  | null | bool _ => none

def compareAsFloats? (a b : Value) : Option Ordering :=
  match a.toFloat?, b.toFloat? with
  | some x, some y => x.compare? y
  | _, _ => none

/-- Compare two values, where they can be compared. Two integers, two truth values and two
texts compare as such, and a truth value counts as zero or one beside a number. Everything
else compares by the floating-point numbers the two can be read as. -/
def compare? : Value → Value → Option Ordering
  | null, _ | _, null => none
  | bool a, bool b => some (compare a b)
  | text a, text b => some (compare a b)
  | int a, int b => some (compare a.toInt b.toInt)
  | bool a, int b => some (compare (ofBit a).toInt b.toInt)
  | int a, bool b => some (compare a.toInt (ofBit b).toInt)
  | bool a, float y => compareAsFloats? (int (ofBit a)) (float y)
  | float x, bool b => compareAsFloats? (float x) (int (ofBit b))
  | a, b => compareAsFloats? a b

/-- Plain text of a number: every digit in place and no exponent. -/
def plainFloat : FloatStyle :=
  ⟨none, false, false, .up⟩

/-- A number inside a message: a point always, an exponent below a ten-thousandth and from
ten to the sixteenth. -/
def messageFloat : FloatStyle :=
  ⟨some (-4, 16), true, false, .up⟩

def display : Value → String
  | null => "NULL"
  | bool true => "true"
  | bool false => "false"
  | int n => toString n.toInt
  | float x => String.ofList (plainFloat.write x)
  | text s => s

/-- A value with its kind, as messages show it. -/
def shown : Value → String
  | null => "Null"
  | bool true => "Bool(true)"
  | bool false => "Bool(false)"
  | int n => "Int(" ++ toString n.toInt ++ ")"
  | float x => "Float(" ++ String.ofList (messageFloat.write x) ++ ")"
  | text s => "Text(" ++ Text.shown s ++ ")"

end Value

end ClosedSql
