import ClosedSql.Text.Hex

/-!
# Universally unique identifiers

Numbers of 128 bits, written as thirty-two hexadecimal digits with hyphens after the
eighth, twelfth, sixteenth and twentieth. They are also read without hyphens, in braces
and as a resource name.
-/

namespace ClosedSql

structure Uuid where
  number : BitVec 128
deriving DecidableEq

namespace Uuid

def ofDigits? (digits : List Char) : Option Uuid :=
  if digits.length = 32 then (Text.readHex? digits).map fun n => ⟨.ofNat 128 n⟩
  else none

def ofHyphenated? (text : List Char) : Option Uuid :=
  match text.drop 8, text.drop 13, text.drop 18, text.drop 23 with
  | '-' :: second, '-' :: third, '-' :: fourth, '-' :: fifth =>
      ofDigits? (text.take 8 ++ second.take 4 ++ third.take 4 ++ fourth.take 4 ++ fifth)
  | _, _, _, _ => none

def insideBraces? (text : List Char) : Option (List Char) :=
  match text, text.getLast? with
  | '\x7b' :: rest, some '\x7d' => some rest.dropLast
  | _, _ => none

/-- The text after the beginning of a resource name. -/
def afterScheme? (text : List Char) : Option (List Char) :=
  if "urn:uuid:".toList.isPrefixOf text then some (text.drop 9) else none

/-- The identifier of a text in any of the accepted forms; the length tells them apart. -/
def ofText? (text : List Char) : Option Uuid :=
  match text.length with
  | 32 => ofDigits? text
  | 36 => ofHyphenated? text
  | 38 => (insideBraces? text).bind ofHyphenated?
  | 45 => (afterScheme? text).bind ofHyphenated?
  | _ => none

def text (id : Uuid) : List Char :=
  let digits := Text.hexText 32 id.number.toNat
  digits.take 8 ++ '-' :: (digits.drop 8).take 4 ++ '-' :: (digits.drop 12).take 4 ++
    '-' :: (digits.drop 16).take 4 ++ '-' :: digits.drop 20

end Uuid

end ClosedSql
