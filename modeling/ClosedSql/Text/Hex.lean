/-!
# Hexadecimal digits

Numbers in base sixteen, read in either case of the letters and written in lower case.
-/

namespace ClosedSql.Text

def hexDigit? (c : Char) : Option Nat :=
  if c.isDigit then some (c.toNat - '0'.toNat)
  else if 'a' ≤ c ∧ c ≤ 'f' then some (c.toNat - 'a'.toNat + 10)
  else if 'A' ≤ c ∧ c ≤ 'F' then some (c.toNat - 'A'.toNat + 10)
  else none

def readHex? (digits : List Char) : Option Nat :=
  digits.foldlM (fun total c => (hexDigit? c).map (16 * total + ·)) 0

/-- A number of exactly `count` digits at the head of a text, and the text after it. -/
def takeHex? (count : Nat) (text : List Char) : Option (Nat × List Char) :=
  if (text.take count).length = count then
    (readHex? (text.take count)).map fun n => (n, text.drop count)
  else none

theorem length_takeHex?_le {count : Nat} {text : List Char} {found : Nat × List Char}
    (h : takeHex? count text = some found) : found.2.length ≤ text.length := by
  rw [takeHex?] at h
  split at h
  · obtain ⟨_, _, rfl⟩ := Option.map_eq_some_iff.1 h
    simp
  · cases h

/-- A number with zeros in front up to a width. -/
def hexText (width n : Nat) : List Char :=
  let digits := Nat.toDigits 16 n
  List.replicate (width - digits.length) '0' ++ digits

def readHexBytes? : List Char → Option (List UInt8)
  | [] => some []
  | [_] => none
  | high :: low :: rest => do
      let byte ← readHex? [high, low]
      return UInt8.ofNat byte :: (← readHexBytes? rest)

end ClosedSql.Text
