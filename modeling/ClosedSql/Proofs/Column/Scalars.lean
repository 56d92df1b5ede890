import ClosedSql.Proofs.Column.Integers
import ClosedSql.Proofs.Column.Numerics
import ClosedSql.Proofs.Number.Decimals
import ClosedSql.Proofs.Text.Hexadecimal

/-!
# Scalar columns, read and written back

What is read from a truth value, an integer, a decimal, an identifier or a text is bound to a
column of the same type as what it was when it was read. A decimal is read as a float only where
that float stands for the same number; in all other cases its text keeps every digit. Digits are
lost before that, where a server sends a number for which there is no decimal.
-/

namespace ClosedSql

open Number

/-- Data that are the same to a server; the places of a decimal do not count. -/
inductive Datum.Same : Datum → Datum → Prop
  | refl (datum : Datum) : Same datum datum
  | decimal {a b : Decimal} (sameNumber : a.sameNumber b = true) : Same (.decimal a) (.decimal b)

/-- What is the same as a decimal is a decimal for the same number. -/
theorem Datum.Same.exists_decimal {datum : Datum} {b : Decimal} (h : Same datum (.decimal b)) :
    ∃ d, datum = .decimal d ∧ d.value = b.value := by
  cases h with
  | refl => exact ⟨b, rfl, rfl⟩
  | @decimal a _ sameNumber => exact ⟨a, rfl, Decimal.sameNumber_iff.1 sameNumber⟩

namespace Number.Decimal

/-- A decimal as a server keeps it is the same number. -/
theorem sameNumber_settled {d e : Decimal} (h : d.sameNumber e = true) :
    d.sameNumber e.settled = true := by
  rw [settled]
  split
  · next hzero =>
      rw [sameNumber, beq_iff_eq] at h ⊢
      have he : e.signedMantissa = 0 := by
        rw [signedMantissa, hzero]
        cases e.negative <;> rfl
      have hpos := tenTo_pos e.scale
      rw [he, Int.zero_mul, Int.mul_eq_zero] at h
      have hd : d.signedMantissa = 0 := h.resolve_right (by omega)
      rw [hd, Int.zero_mul]
      exact (Int.zero_mul _).symm
  · exact h

end Number.Decimal

namespace Value

/-- A decimal is never read as nothing. -/
theorem ofDecimal_ne_null (d : Decimal) : ofDecimal d ≠ .null := by
  rw [ofDecimal]
  split <;> intro h <;> cases h

/-- A decimal that is read as a float is the number which that float stands for. -/
theorem recovered_of_ofDecimal {d : Decimal} {x : Binary64} (h : ofDecimal d = .float x) :
    ∃ e, Decimal.ofFloat? x = some e ∧ d.sameNumber e = true := by
  rw [ofDecimal] at h
  split at h
  · next hsame =>
      obtain rfl := Value.float.inj h
      obtain ⟨e, he, hnumber⟩ := (Option.any_eq_true _ _).1 hsame
      exact ⟨e, he, hnumber⟩
  · cases h

/-- The value of a decimal stands for the same number again. -/
theorem toDecimal?_ofDecimal (d : Decimal) :
    ∃ e, (ofDecimal d).toDecimal? = some e ∧ d.sameNumber e = true := by
  cases hread : ofDecimal d with
  | float x => exact recovered_of_ofDecimal hread
  | text s =>
      rw [ofDecimal] at hread
      split at hread
      · cases hread
      · obtain rfl := Value.text.inj hread
        refine ⟨d, ?_, d.sameNumber_self⟩
        rw [toDecimal?, String.toList_ofList, d.trim_text, d.ofText?_text]
  | null => exact absurd hread (ofDecimal_ne_null d)
  | bool b => rw [ofDecimal] at hread; split at hread <;> cases hread
  | int n => rw [ofDecimal] at hread; split at hread <;> cases hread

end Value

namespace ColumnType

def isScalar : ColumnType → Bool
  | bool | int2 | int4 | int8 | numeric | uuid => true
  | type => type.isText

variable {type : ColumnType}

theorem isScalar_of_admits {datum : Datum} (hscalar : type.isScalar = true)
    (hadmits : type.admits datum = true) :
    (∃ b, datum = .bool b) ∨ (∃ n, datum = .int n) ∨ (∃ d, datum = .decimal d) ∨
      (∃ id, datum = .uuid id) ∨ ∃ s, datum = .text s := by
  cases datum with
  | bool b => simp
  | int n => simp
  | decimal d => simp
  | uuid id => simp
  | text s => simp
  | float x => cases type <;> simp [isScalar, isText, admits] at hscalar hadmits
  | moment micros => cases type <;> simp [isScalar, isText, admits] at hscalar hadmits
  | day day => cases type <;> simp [isScalar, isText, admits] at hscalar hadmits
  | json document => cases type <;> simp [isScalar, isText, admits] at hscalar hadmits

/-- An integer of a type is bound as that integer. -/
theorem datum?_int {n : Int} (hadmits : type.admits (.int n) = true) (now : Calendar.Instant) :
    type.datum? now (.int (Int64.ofInt n)) = some (.int n) := by
  obtain ⟨bits, hbits, hfits⟩ := (Option.any_eq_true _ _).1 hadmits
  have hword : (Int64.ofInt n).toInt = n := by
    refine toInt_ofInt_of_fits (fitsBits_mono ?_ hfits)
    rcases bits_of_intBits? hbits with h | h <;> omega
  rw [datum?_of_intBits? hbits]
  change (if fitsBits bits (Int64.ofInt n).toInt then some (Datum.int (Int64.ofInt n).toInt)
    else none) = _
  rw [hword, if_pos hfits]

/-- An identifier is bound from its text. -/
theorem datum?_uuid (id : Uuid) (now : Calendar.Instant) :
    ColumnType.uuid.datum? now (.text (String.ofList id.text)) = some (.uuid id) := by
  change (Uuid.ofText? (Text.trim (String.ofList id.text).toList)).map Datum.uuid = _
  rw [String.toList_ofList, id.trim_text, id.ofText?_text, Option.map_some]

/-- A value that is bound to a decimal column is bound as the decimal it stands for. -/
theorem datum?_of_toDecimal? {value : Value} {e : Decimal} (h : value.toDecimal? = some e)
    (now : Calendar.Instant) : ColumnType.numeric.datum? now value = some (.decimal e.settled) := by
  change value.toDecimal?.map (fun e => Datum.decimal e.settled) = _
  rw [h, Option.map_some]

/-- The value of a datum is there, and it is bound as that datum. -/
theorem datum?_valueOf (hscalar : type.isScalar = true) {datum : Datum}
    (hadmits : type.admits datum = true) (now : Calendar.Instant) :
    type.valueOf datum ≠ .null ∧
      ∃ bound, type.datum? now (type.valueOf datum) = some bound ∧ datum.Same bound := by
  rcases isScalar_of_admits hscalar hadmits with ⟨b, rfl⟩ | ⟨n, rfl⟩ | ⟨d, rfl⟩ | ⟨id, rfl⟩ | ⟨s, rfl⟩
  · obtain rfl : type = .bool := beq_iff_eq.1 hadmits
    exact ⟨nofun, _, rfl, .refl _⟩
  · exact ⟨nofun, _, datum?_int hadmits now, .refl _⟩
  · obtain rfl : type = .numeric := beq_iff_eq.1 hadmits
    obtain ⟨e, he, hsame⟩ := Value.toDecimal?_ofDecimal d
    exact ⟨Value.ofDecimal_ne_null d, _, datum?_of_toDecimal? he now,
      .decimal (Decimal.sameNumber_settled hsame)⟩
  · obtain rfl : type = .uuid := beq_iff_eq.1 hadmits
    exact ⟨nofun, _, datum?_uuid id now, .refl _⟩
  · refine ⟨nofun, .text s, ?_, .refl _⟩
    cases type <;> first | rfl | cases hadmits

/-- A decimal is spelled in bytes by the number that it was made of. -/
theorem decimal?_of_content? {bytes : List UInt8} {d : Decimal}
    (h : type.content? (.bytes bytes) = some (some (.decimal d))) :
    ∃ n, Numeric.ofBytes? bytes = some n ∧ n.decimal? = some d := by
  obtain rfl : type = .numeric := beq_iff_eq.1 (admits_of_content? h)
  obtain ⟨datum, hdatum, hsame⟩ := Option.map_eq_some_iff.1 h
  obtain rfl := Option.some.inj hsame
  obtain ⟨e, he, hinj⟩ := Option.map_eq_some_iff.1 (Option.filter_eq_some_iff.1 hdatum).1
  obtain rfl := Datum.decimal.inj hinj
  exact Option.bind_eq_some_iff.1 he

/-- What is read from a scalar column is bound to a column of the same type as what the cell was
decoded as: nothing as nothing, and a datum as the same datum. A decimal is read as a float only
where it is the number that the float stands for. What the decimal itself keeps of a number sent in
bytes is all of it wherever some decimal stands for that number; a number with more than
twenty-eight places or ninety-six bits is rounded when it is decoded, and comes back rounded. -/
theorem bind_of_read?_scalar (hscalar : type.isScalar = true) {cell : Cell} {value : Value}
    (hread : type.read? cell = some value) (now : Calendar.Instant) :
    ∃ content bound, type.content? cell = some content ∧ type.bind now value = .ok bound ∧
      Option.Rel Datum.Same content bound ∧
      (∀ d x, content = some (.decimal d) → value = .float x →
        ∃ e, Decimal.ofFloat? x = some e ∧ d.sameNumber e = true) ∧
      ∀ bytes b, cell = .bytes bytes → bound = some (.decimal b) →
        ∃ n, Numeric.ofBytes? bytes = some n ∧ n.KeptBy b := by
  obtain ⟨-, content, hcontent, rfl⟩ := read?_eq_some_iff.1 hread
  cases content with
  | none => exact ⟨none, none, hcontent, bind_null now, .none, nofun, nofun⟩
  | some datum =>
      obtain ⟨hnull, bound, hbound, hsame⟩ :=
        datum?_valueOf hscalar (admits_of_content? hcontent) now
      refine ⟨some datum, some bound, hcontent, bind_of_datum? hnull hbound, .some hsame, ?_, ?_⟩
      · intro d x hdecimal hfloat
        obtain rfl := Option.some.inj hdecimal
        exact Value.recovered_of_ofDecimal hfloat
      · intro bytes b hcell hdecimal
        obtain rfl := hcell
        obtain rfl := Option.some.inj hdecimal
        obtain ⟨d, rfl, hnumber⟩ := Datum.Same.exists_decimal hsame
        obtain ⟨n, hn, hd⟩ := decimal?_of_content? hcontent
        exact ⟨n, hn, (Numeric.keptBy_of_decimal? hd).congr hnumber⟩

def wideDecimal : Decimal where
  negative := false
  mantissa := 12345678901234567890123456789
  scale := 9
  mantissa_lt := by decide
  scale_le := by decide

/-- The same number as it is sent, in eight groups of which five stand before the point. -/
def wideBytes : List UInt8 :=
  [0x00, 0x08, 0x00, 0x04, 0x00, 0x00, 0x00, 0x09, 0x04, 0xd2, 0x16, 0x2e, 0x23, 0x34, 0x0d, 0x80,
    0x1e, 0xd2, 0x04, 0xd2, 0x16, 0x2e, 0x23, 0x28]

theorem bind_of_read?_scalar_wide :
    ColumnType.numeric.isScalar = true ∧
      ColumnType.numeric.read? (.bytes wideBytes) =
        some (.text "12345678901234567890.123456789") ∧
      (∃ n, Numeric.ofBytes? wideBytes = some n ∧ wideDecimal.value = n.value ∧
        wideDecimal.scale ≤ n.places) ∧
      ∃ content bound,
        ColumnType.numeric.content? (.bytes wideBytes) = some content ∧
          ColumnType.numeric.bind ⟨0, 0⟩ (.text "12345678901234567890.123456789") = .ok bound ∧
          Option.Rel Datum.Same content bound ∧
          (∀ d x, content = some (.decimal d) →
            Value.text "12345678901234567890.123456789" = .float x →
              ∃ e, Decimal.ofFloat? x = some e ∧ d.sameNumber e = true) ∧
          ∀ bytes b, Cell.bytes wideBytes = .bytes bytes → bound = some (.decimal b) →
            ∃ n, Numeric.ofBytes? bytes = some n ∧ n.KeptBy b := by
  have hread : ColumnType.numeric.read? (.bytes wideBytes) =
      some (.text "12345678901234567890.123456789") := by
    decide +kernel
  have hspelled : Numeric.ofBytes? wideBytes =
      some ⟨false, 4, 9, [1234, 5678, 9012, 3456, 7890, 1234, 5678, 9000]⟩ := by
    rfl
  refine ⟨rfl, hread, ⟨_, hspelled, ?_, Nat.le_refl 9⟩, bind_of_read?_scalar rfl hread ⟨0, 0⟩⟩
  unfold Decimal.value Numeric.value
  norm_num [Numeric.sumFrom, Decimal.signedMantissa, Binary64.signed, wideDecimal]

/-- One half and one more unit in the thirty-second place, in eight groups after the point. -/
def longNumber : Numeric :=
  ⟨false, -1, 32, [5000, 0, 0, 0, 0, 0, 0, 1]⟩

def longBytes : List UInt8 :=
  [0x00, 0x08, 0xff, 0xff, 0x00, 0x00, 0x00, 0x20, 0x13, 0x88, 0x00, 0x00, 0x00, 0x00, 0x00, 0x00,
    0x00, 0x00, 0x00, 0x00, 0x00, 0x00, 0x00, 0x01]

theorem value_longNumber : longNumber.value = 1 / 2 + 1 / 10 ^ 32 := by
  unfold Numeric.value longNumber
  norm_num [Numeric.sumFrom]

/-- What is left of that number, as a float and as a decimal. -/
def floatHalf : Binary64 :=
  .ofRatio false 1 2

def decimalHalf : Decimal where
  negative := false
  mantissa := 5
  scale := 1
  mantissa_lt := by decide
  scale_le := by decide

theorem value_decimalHalf_ne : decimalHalf.value ≠ longNumber.value := by
  rw [value_longNumber]
  unfold Decimal.value
  norm_num [Decimal.signedMantissa, Binary64.signed, decimalHalf]

/-- A number with more places than a decimal can have is read as a float that does not stand for
it, and comes back as another number. -/
theorem bind_of_read?_scalar_rounded :
    Numeric.ofBytes? longBytes = some longNumber ∧ longNumber.value = 1 / 2 + 1 / 10 ^ 32 ∧
      ColumnType.numeric.read? (.bytes longBytes) = some (.float floatHalf) ∧
      (∀ e, Decimal.ofFloat? floatHalf = some e → e.value ≠ longNumber.value) ∧
      ColumnType.numeric.bind ⟨0, 0⟩ (.float floatHalf) = .ok (some (.decimal decimalHalf)) ∧
      decimalHalf.value ≠ longNumber.value := by
  have hread : ColumnType.numeric.read? (.bytes longBytes) = some (.float floatHalf) := by
    decide +kernel
  have hfloat : Decimal.ofFloat? floatHalf = some decimalHalf := by decide +kernel
  have hdecimal : (Value.float floatHalf).toDecimal? = some decimalHalf := by
    rw [Value.toDecimal?, hfloat]
  have hnull : Value.float floatHalf ≠ .null := by
    intro h
    cases h
  refine ⟨rfl, value_longNumber, hread, ?_, ?_, value_decimalHalf_ne⟩
  · intro e he
    obtain rfl := Option.some.inj (hfloat.symm.trans he)
    exact value_decimalHalf_ne
  · exact bind_of_datum? hnull (datum?_of_toDecimal? hdecimal ⟨0, 0⟩)

end ColumnType

end ClosedSql
