import ClosedSql.Number.FloatStyle

/-!
# Digits of a float, one step at a time

The decimal exponent of a float is a question about two powers of ten, and once it is known the
search for the fewest digits, and their text, can be evaluated.
-/

namespace ClosedSql.Number

theorem length_toDigits_eq {n count : Nat} (hlow : tenTo count ≤ n) (hhigh : n < tenTo (count + 1)) :
    (Nat.toDigits 10 n).length = count + 1 := by
  have hmost := (Nat.length_toDigits_le_iff (show 1 < 10 by decide) (Nat.succ_pos count)).2 hhigh
  rcases Nat.eq_zero_or_pos count with rfl | hpos
  · have hleast : 0 < (Nat.toDigits 10 n).length := Nat.length_toDigits_pos
    omega
  · have hleast : ¬(Nat.toDigits 10 n).length ≤ count := fun hle =>
      Nat.not_lt.2 hlow ((Nat.length_toDigits_le_iff (by decide) hpos).1 hle)
    omega

namespace Digits

/-- The magnitude of a number between two powers of ten. -/
theorem magnitude_eq {units count : Nat} (hlow : tenTo count ≤ units * tenTo 400 / one)
    (hhigh : units * tenTo 400 / one < tenTo (count + 1)) :
    magnitude units = (count : Int) + 1 - 400 := by
  rw [magnitude, Nat.repr_eq_ofList_toDigits, String.length_ofList,
    length_toDigits_eq hlow hhigh, Int.natCast_succ]

/-- The best decimal with a given exponent, if one reads back. -/
def ofExponent? (tie : Tie) (rank : Nat) (exponent : Int) : Option Digits :=
  let units := unitsOfRank 52 rank
  let num := one * tenTo exponent.toNat
  let den := tenTo (-exponent).toNat
  let below := units * den / num
  let twice := 2 * units * den
  let middle := (2 * below + 1) * num
  let takeAbove := middle < twice ||
    (middle == twice && (tie == .up || below % 2 == 1))
  match readsBack rank below num den, readsBack rank (below + 1) num den with
  | true, true => some ⟨if takeAbove then below + 1 else below, exponent⟩
  | true, false => some ⟨below, exponent⟩
  | false, true => some ⟨below + 1, exponent⟩
  | false, false => none

theorem ofCount?_eq (tie : Tie) (rank count : Nat) :
    ofCount? tie rank count = ofExponent? tie rank (magnitude (unitsOfRank 52 rank) - count) :=
  rfl

/-- The shortest decimal is found with the fewest digits below the magnitude. -/
theorem shortest_of_findSome? {tie : Tie} {rank : Nat} {size : Int} {d : Digits}
    (hsize : magnitude (unitsOfRank 52 rank) = size)
    (h : ((List.range 17).findSome? fun n => ofExponent? tie rank (size - (n + 1 : Nat))) = some d) :
    shortest tie rank = dropZeros 17 d := by
  have hsearch : ((List.range 17).findSome? fun n => ofCount? tie rank (n + 1)) = some d := by
    simp only [ofCount?_eq, hsize]
    exact h
  rw [shortest, hsearch]

end Digits

namespace FloatStyle

def spell (style : FloatStyle) (negative : Bool) (found : Digits) : List Char :=
  let digits := Nat.toDigits 10 found.digits
  let leading := found.exponent + digits.length - 1
  let inRange := match style.positional with
    | none => true
    | some (first, last) => first ≤ leading && leading < last
  sign negative ++
    if inRange then style.fixed digits found.exponent else style.scientific digits leading

/-- A float is written with its shortest digits. -/
theorem write_eq_spell (style : FloatStyle) (negative : Bool) {rank : Fin finiteRanks}
    (h : rank.val ≠ 0) :
    style.write (.finite negative rank) =
      style.spell negative (Digits.shortest style.tie rank) := by
  rw [write, if_neg h]
  rfl

end FloatStyle

end ClosedSql.Number
