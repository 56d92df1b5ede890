import ClosedSql.Number.Rounding

/-!
# Floating-point numbers of 64 bits

A finite number is a sign and a rank among the nonnegative numbers of the binary64
format. Every finite number is a whole number of units of `2 ^ -1074`, so ordering,
wholeness and conversion are questions about integers, answered exactly. Rounding is
to nearest, of two equally near numbers to the one of even rank.
-/

namespace ClosedSql.Number

def finiteRanks : Nat :=
  2047 * twoTo 52

def one : Nat :=
  twoTo 1074

/-- Twice the largest power of two: what the next number after the largest would be, in
units. -/
def infinityUnits : Nat :=
  twoTo 2098

/-- A number of the binary64 format. The many bit patterns that are not numbers are one. -/
inductive Binary64
  | nan
  | infinite (negative : Bool)
  | finite (negative : Bool) (rank : Fin finiteRanks)
deriving DecidableEq

namespace Binary64

def signed (negative : Bool) (size : Nat) : Int :=
  if negative then -(size : Int) else size

def ofUnits (negative : Bool) (num den : Nat) : Binary64 :=
  if h : nearestRank 52 num den < finiteRanks then
    .finite negative ⟨nearestRank 52 num den, h⟩
  else .infinite negative

def ofRatio (negative : Bool) (num den : Nat) : Binary64 :=
  ofUnits negative (num * one) den

def ofInt (n : Int) : Binary64 :=
  ofRatio (n < 0) n.natAbs 1

/-- The number nearest to `size * 10 ^ exponent`. Sizes far outside the format are settled
without computing the power. -/
def ofDecimal (negative : Bool) (size : Nat) (exponent : Int) : Binary64 :=
  let width := ((Nat.toDigits 10 size).length : Int) + exponent
  if size = 0 || width < -330 then .finite negative ⟨0, by decide⟩
  else if 310 < width then .infinite negative
  else ofRatio negative (size * tenTo exponent.toNat) (tenTo (-exponent).toNat)

/-- Where a number lies on the line, in units. The infinities take the places just beyond the
largest finite numbers. -/
def extent : Binary64 → Option Int
  | .nan => none
  | .infinite negative => some (signed negative infinityUnits)
  | .finite negative rank => some (signed negative (unitsOfRank 52 rank))

/-- Numbers compare by their place; what is not a number compares with nothing. -/
def compare? (x y : Binary64) : Option Ordering :=
  match x.extent, y.extent with
  | some a, some b => some (compare a b)
  | _, _ => none

def isFinite : Binary64 → Bool
  | .finite _ _ => true
  | _ => false

/-- The integer a finite number without fraction stands for. -/
def toInt? : Binary64 → Option Int
  | .finite negative rank =>
      let units := unitsOfRank 52 rank
      if units % one = 0 then some (signed negative (units / one)) else none
  | _ => none

def ofBits (bits : UInt64) : Binary64 :=
  let negative := twoTo 63 ≤ bits.toNat
  let size := bits.toNat % twoTo 63
  if h : size < finiteRanks then .finite negative ⟨size, h⟩
  else if size = finiteRanks then .infinite negative
  else .nan

/-- The pattern of 64 bits of a number; a quiet one without payload for what is none. -/
def toBits : Binary64 → UInt64
  | .nan => 0x7ff8000000000000
  | .infinite negative => UInt64.ofNat ((if negative then twoTo 63 else 0) + finiteRanks)
  | .finite negative rank => UInt64.ofNat ((if negative then twoTo 63 else 0) + rank)

def finiteSingleRanks : Nat :=
  255 * twoTo 23

def singleUnit : Nat :=
  twoTo 925

def ofSingleRank (negative : Bool) (rank : Nat) : Binary64 :=
  if rank < finiteSingleRanks then ofUnits negative (unitsOfRank 23 rank * singleUnit) 1
  else .infinite negative

def toSingle : Binary64 → Binary64
  | .finite negative rank =>
      ofSingleRank negative (nearestRank 23 (unitsOfRank 52 rank) singleUnit)
  | x => x

def ofSingleBits (bits : UInt32) : Binary64 :=
  let size := bits.toNat % twoTo 31
  if finiteSingleRanks < size then .nan else ofSingleRank (twoTo 31 ≤ bits.toNat) size

end Binary64

end ClosedSql.Number
