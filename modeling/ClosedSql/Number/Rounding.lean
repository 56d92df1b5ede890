import ClosedSql.Number.Integer

/-!
# Rounding to a binary format

The nonnegative numbers of a binary floating-point format with `p` fraction bits are
listed in ascending order; the place of a number in the list is its rank, and rank
zero is zero. Measured in the smallest positive number of the format every one of
them is a whole number of units. The first `2 ^ (p + 1)` are spaced by one unit, and
the spacing doubles after every further `2 ^ p`.
-/

namespace ClosedSql.Number

/-- The number of a given rank, in units. -/
def unitsOfRank (p rank : Nat) : Nat :=
  if rank < twoTo p then rank
  else (twoTo p + rank % twoTo p) * twoTo (rank / twoTo p - 1)

/-- The rank of the number nearest to `num / den` units; of two equally near ones the even. -/
def nearestRank (p num den : Nat) : Nat :=
  let doublings := (num / den).log2 - p
  let spacing := twoTo doublings * den
  let below := doublings * twoTo p + num / spacing
  let rest := 2 * (num % spacing)
  if spacing < rest || (spacing == rest && below % 2 == 1) then below + 1 else below

/-- The number nearest to `num / den` units, in units. -/
def nearestUnits (p num den : Nat) : Nat :=
  unitsOfRank p (nearestRank p num den)

/-- The quotient rounded to a whole number, a half upward. -/
def roundHalfUp (num den : Nat) : Nat :=
  (2 * num + den) / (2 * den)

/-- The quotient rounded to a whole number, a half to the even one. -/
def roundHalfEven (num den : Nat) : Nat :=
  let below := num / den
  let rest := 2 * (num % den)
  if den < rest || (den == rest && below % 2 == 1) then below + 1 else below

end ClosedSql.Number
