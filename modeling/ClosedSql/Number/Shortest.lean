import ClosedSql.Number.Binary64

/-!
# The fewest digits that read back

A finite number is written with as few decimal digits as still read back as that
number. For one digit, two digits and so on the two neighbours of the number on the
decimal grid are tested against the interval of reals that round to it. The first grid
with a hit wins, and of two hits the nearer.
-/

namespace ClosedSql.Number

/-- Which of two equally near decimals is taken: the larger, or the even one. -/
inductive Tie
  | up
  | even
deriving DecidableEq

/-- A decimal, `digits * 10 ^ exponent`. -/
structure Digits where
  digits : Nat
  exponent : Int
deriving DecidableEq

namespace Digits

/-- The decimal exponent just above a positive number of `units`: the number lies below that
power of ten and not below the one before. -/
def magnitude (units : Nat) : Int :=
  ((Nat.repr (units * tenTo 400 / one)).length : Int) - 400

def readsBack (rank candidate num den : Nat) : Bool :=
  let here := unitsOfRank 52 rank
  let low := (unitsOfRank 52 (rank - 1) + here) * den
  let high := (here + unitsOfRank 52 (rank + 1)) * den
  let twice := 2 * candidate * num
  if rank % 2 = 0 then low ≤ twice && twice ≤ high else low < twice && twice < high

/-- The best decimal with `count` digits, if one reads back. -/
def ofCount? (tie : Tie) (rank count : Nat) : Option Digits :=
  let units := unitsOfRank 52 rank
  let exponent := magnitude units - count
  let num := one * tenTo exponent.toNat
  let den := tenTo (-exponent).toNat
  let below := units * den / num
  let twice := 2 * units * den
  let middle := (2 * below + 1) * num
  let takeAbove := middle < twice ||
    (middle == twice && (tie == .up || below % 2 == 1))
  match readsBack rank below num den, readsBack rank (below + 1) num den with
  | true, true => some ⟨if takeAbove then below + 1 else below, exponent⟩
  | true, false => some ⟨below, exponent⟩
  | false, true => some ⟨below + 1, exponent⟩
  | false, false => none

def dropZeros : Nat → Digits → Digits
  | 0, d => d
  | count + 1, d =>
      if d.digits % 10 = 0 then dropZeros count ⟨d.digits / 10, d.exponent + 1⟩ else d

/-- The shortest decimal of the number of a positive rank. Seventeen digits always read back. -/
def shortest (tie : Tie) (rank : Nat) : Digits :=
  match (List.range 17).findSome? fun n => ofCount? tie rank (n + 1) with
  | some d => dropZeros 17 d
  | none => ⟨0, 0⟩

end Digits

end ClosedSql.Number
