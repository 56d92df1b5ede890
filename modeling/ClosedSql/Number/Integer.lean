/-!
# Powers and integer ranges

Number formats count in powers of two and of ten, and an integer type holds the integers
that fit in its bits.
-/

namespace ClosedSql.Number

def twoTo (n : Nat) : Nat :=
  Nat.pow 2 n

def tenTo (n : Nat) : Nat :=
  Nat.pow 10 n

theorem twoTo_succ (n : Nat) : twoTo (n + 1) = 2 * twoTo n :=
  Nat.mul_comm _ _

theorem tenTo_succ (n : Nat) : tenTo (n + 1) = 10 * tenTo n :=
  Nat.mul_comm _ _

theorem twoTo_pos (n : Nat) : 0 < twoTo n := by
  induction n with
  | zero => decide
  | succ n ih => rw [twoTo_succ]; omega

theorem tenTo_pos (n : Nat) : 0 < tenTo n := by
  induction n with
  | zero => decide
  | succ n ih => rw [tenTo_succ]; omega

/-- Whether an integer fits in so many bits, one of them for the sign. -/
def fitsBits (bits : Nat) (n : Int) : Bool :=
  -(twoTo (bits - 1) : Int) ≤ n && n < twoTo (bits - 1)

def int64? (n : Int) : Option Int64 :=
  if fitsBits 64 n then some (Int64.ofInt n) else none

/-- An integer that fits is kept as it is. -/
theorem toInt_of_int64? {n : Int} {word : Int64} (h : int64? n = some word) : word.toInt = n := by
  rw [int64?] at h
  split at h
  · next hfits =>
      simp only [fitsBits, Bool.and_eq_true, decide_eq_true_eq] at hfits
      have hbound : twoTo (64 - 1) = 9223372036854775808 := by decide
      rw [hbound] at hfits
      simp only [Option.some.injEq] at h
      subst h
      exact Int64.toInt_ofInt_of_le (by omega) (by omega)
  · cases h

end ClosedSql.Number
