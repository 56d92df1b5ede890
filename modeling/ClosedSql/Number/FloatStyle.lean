import ClosedSql.Number.Shortest

/-!
# Floating-point numbers as text

The shortest decimal of a number is written with or without an exponent. What a format
decides is one value of `FloatStyle`: which numbers need no exponent, whether a whole
number keeps its point, the sign of an exponent, and which of two equally near decimals
is taken.
-/

namespace ClosedSql.Number

structure FloatStyle where
  /-- The exponents of the leading digit that are written without an exponent, from the first
  up to but not including the second; `none` for all. -/
  positional : Option (Int × Int)
  /-- A whole number ends in a point and a zero. -/
  point : Bool
  /-- A positive exponent has a sign. -/
  plus : Bool
  tie : Tie

namespace FloatStyle

def sign (negative : Bool) : List Char :=
  if negative then ['-'] else []

def fixed (style : FloatStyle) (digits : List Char) (exponent : Int) : List Char :=
  let tail := if style.point then ['.', '0'] else []
  let whole := (digits.length : Int) + exponent
  if 0 ≤ exponent then digits ++ List.replicate exponent.toNat '0' ++ tail
  else if 0 < whole then digits.take whole.toNat ++ '.' :: digits.drop whole.toNat
  else '0' :: '.' :: List.replicate (-whole).toNat '0' ++ digits

/-- One digit before the point, and the exponent of that digit. -/
def scientific (style : FloatStyle) (digits : List Char) (exponent : Int) : List Char :=
  let fraction := if digits.length ≤ 1 then [] else '.' :: digits.drop 1
  let mark := if exponent < 0 then ['-'] else if style.plus then ['+'] else []
  digits.take 1 ++ fraction ++ 'e' :: mark ++ Nat.toDigits 10 exponent.natAbs

def write (style : FloatStyle) : Binary64 → List Char
  | .nan => "NaN".toList
  | .infinite negative => sign negative ++ "inf".toList
  | .finite negative rank =>
      if rank.val = 0 then sign negative ++ style.fixed ['0'] 0
      else
        let found := Digits.shortest style.tie rank
        let digits := Nat.toDigits 10 found.digits
        let leading := found.exponent + digits.length - 1
        let inRange := match style.positional with
          | none => true
          | some (first, last) => first ≤ leading && leading < last
        sign negative ++
          if inRange then style.fixed digits found.exponent else style.scientific digits leading

end FloatStyle

end ClosedSql.Number
