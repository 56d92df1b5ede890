import ClosedSql.Proofs.Column.Cells
import ClosedSql.Proofs.Number.Words
import ClosedSql.Proofs.Statement.Terms

/-!
# Integer parameters

A parameter of an integer type is the integer that the value is, or it is refused. Values are
converted by way of integers of 64 bits, and a text or an integer that does not fit is lost on that
way; a float without fraction is moved to the nearest end of 64 bits. The narrower types refuse
the ends as they refuse what lies beyond them. The type of 64 bits takes them for the float.
-/

namespace ClosedSql

open Number

/-! ## Floats that are integers -/

namespace Number

/-- A float is finite and lies at an integer exactly if it is read as that integer. -/
theorem Binary64.toInt?_eq_some_iff {x : Binary64} {n : Int} :
    x.toInt? = some n ↔ x.isFinite = true ∧ x.extent = some (n * one) := by
  constructor
  · intro h
    refine ⟨?_, extent_of_toInt? h⟩
    cases x with
    | finite => rfl
    | nan => cases h
    | infinite => cases h
  · rintro ⟨hfinite, hplace⟩
    cases x with
    | nan => cases hfinite
    | infinite => cases hfinite
    | finite negative rank =>
        have hone : (0 : Int) < one := Int.natCast_pos.2 one_pos
        rw [extent, Option.some.injEq] at hplace
        have hsize : unitsOfRank 52 rank = n.natAbs * one := by
          have habs := congrArg Int.natAbs hplace
          rw [Int.natAbs_mul, Int.natAbs_natCast] at habs
          rw [← habs]
          cases negative <;> simp [signed]
        rw [toInt?, hsize, if_pos (Nat.mul_mod_left _ _), Nat.mul_div_cancel _ one_pos]
        rw [hsize] at hplace
        cases negative with
        | false =>
            simp only [signed, Bool.false_eq_true, if_false, Int.natCast_mul] at hplace ⊢
            rw [Int.eq_of_mul_eq_mul_right (Int.ne_of_gt hone) hplace]
        | true =>
            simp only [signed, if_true, Int.natCast_mul, ← Int.neg_mul] at hplace ⊢
            rw [Int.eq_of_mul_eq_mul_right (Int.ne_of_gt hone) hplace]

end Number

/-! ## The integer that a value is -/

namespace Value

/-- The integer that a value is: itself, zero or one for a truth value, the place of a float on the
line, and what a text spells in decimal digits between blanks. -/
inductive Denotes : Value → Int → Prop
  | int (n : Int64) : Denotes (.int n) n.toInt
  | bit (b : Bool) : Denotes (.bool b) (if b then 1 else 0)
  | float {x : Binary64} {n : Int} (finite : x.isFinite = true)
      (place : x.extent = some (n * one)) : Denotes (.float x) n
  | text {s : String} {n : Int} (spelled : Grammar.Integral (Text.trim s.toList) n) :
      Denotes (.text s) n

/-- The value is a float that is an integer, but none of 64 bits. -/
def Beyond (value : Value) : Prop :=
  ∃ x n, value = .float x ∧ value.Denotes n ∧ fitsBits 64 n = false

theorem denotes_float_iff {x : Binary64} {n : Int} : (float x).Denotes n ↔ x.toInt? = some n := by
  rw [Binary64.toInt?_eq_some_iff]
  constructor
  · intro h
    cases h with
    | float finite place => exact ⟨finite, place⟩
  · rintro ⟨finite, place⟩
    exact .float finite place

/-- The integer that a value is converted by, unless it is a float beyond them all. -/
theorem toIntParam?_eq_some_iff {value : Value} (h : ¬value.Beyond) {n : Int64} :
    value.toIntParam? = some n ↔ value.Denotes n.toInt := by
  cases value with
  | null =>
      constructor
      · intro hn
        cases hn
      · intro hn
        cases hn
  | bool b =>
      constructor
      · intro hn
        obtain rfl := Option.some.inj hn
        cases b with
        | false => exact .bit false
        | true => exact .bit true
      · intro hn
        rw [toIntParam?, Option.some.injEq]
        generalize hk : n.toInt = k at hn
        cases hn with
        | bit => cases b <;> exact (Int64.toInt_inj.1 hk).symm
  | int m =>
      constructor
      · intro hn
        obtain rfl := Option.some.inj hn
        exact .int m
      · intro hn
        generalize hk : n.toInt = k at hn
        cases hn with
        | int => rw [Int64.toInt_inj.1 hk]; rfl
  | float x =>
      rw [denotes_float_iff]
      change x.toInt?.map Int64.ofIntClamp = some n ↔ _
      cases hx : x.toInt? with
      | none => simp
      | some k =>
          have hfits : fitsBits 64 k = true := by
            rw [← Bool.not_eq_false]
            intro hbeyond
            exact h ⟨x, k, rfl, denotes_float_iff.2 hx, hbeyond⟩
          rw [Option.map_some, Option.some.injEq, Option.some.injEq, ← Int64.toInt_inj,
            toInt_ofIntClamp_of_fits hfits]
  | text s =>
      change readInt64? (Text.trim s.toList) = some n ↔ _
      rw [Statement.readInt64?_eq_some_iff]
      constructor
      · exact .text
      · intro hn
        cases hn with
        | text spelled => exact spelled

/-- A float beyond 64 bits is converted by way of one of their ends. -/
theorem toIntParam?_of_beyond {x : Binary64} {n : Int} (h : (float x).Denotes n) :
    (float x).toIntParam? = some (Int64.ofIntClamp n) := by
  change x.toInt?.map Int64.ofIntClamp = _
  rw [denotes_float_iff.1 h, Option.map_some]

/-- A float denotes one integer at most. -/
theorem Denotes.unique_float {x : Binary64} {m n : Int} (hm : (Value.float x).Denotes m)
    (hn : (Value.float x).Denotes n) : m = n :=
  Option.some.inj ((denotes_float_iff.1 hm).symm.trans (denotes_float_iff.1 hn))

end Value

/-! ## Binding -/

namespace ColumnType

variable {type : ColumnType} {bits : Nat}

/-- What a value is in an integer type of so many bits: nothing, or the integer that it is. -/
inductive Exact (bits : Nat) : Value → Option Datum → Prop
  | absent : Exact bits .null none
  | integer {value : Value} {n : Int} (denotes : value.Denotes n)
      (fits : fitsBits bits n = true) : Exact bits value (some (.int n))

theorem exact_null_iff {bound : Option Datum} : Exact bits .null bound ↔ bound = none := by
  constructor
  · intro h
    cases h with
    | absent => rfl
    | integer denotes _ => cases denotes
  · rintro rfl
    exact .absent

/-- What is bound of a value that is there is exact if it is the integer that the value denotes, and
if that integer fits. -/
theorem exact_iff_of_ne_null {value : Value} (hnull : value ≠ .null) {bound : Option Datum} :
    Exact bits value bound ↔
      ∃ datum, bound = some datum ∧
        ∃ n, datum = .int n ∧ value.Denotes n ∧ fitsBits bits n = true := by
  constructor
  · intro h
    cases h with
    | absent => exact absurd rfl hnull
    | integer denotes fits => exact ⟨_, rfl, _, rfl, denotes, fits⟩
  · rintro ⟨_, rfl, _, rfl, denotes, fits⟩
    exact .integer denotes fits

theorem bits_of_intBits? (h : type.intBits? = some bits) : bits < 64 ∨ bits = 64 ∧ type = .int8 := by
  cases type <;> simp only [intBits?, reduceCtorEq, Option.some.injEq] at h <;> subst h <;> simp

/-- Every integer type binds by the integer that a value is read as, if it fits. -/
theorem datum?_of_intBits? (h : type.intBits? = some bits) (now : Calendar.Instant) (value : Value) :
    type.datum? now value = (value.toIntParam?.map Int64.toInt).bind fun n =>
      if fitsBits bits n then some (.int n) else none := by
  cases type <;> simp only [intBits?, reduceCtorEq, Option.some.injEq] at h <;> subst h <;> rfl

/-- A float beyond 64 bits is no narrower integer, and neither is the end that it is moved to. -/
theorem refused_of_beyond {value : Value} (h : value.Beyond) (hbits : bits < 64) :
    (∀ n, value.Denotes n → fitsBits bits n = false) ∧
      ∃ n, value.toIntParam? = some n ∧ fitsBits bits n.toInt = false := by
  obtain ⟨x, n, rfl, hn, hbeyond⟩ := h
  obtain ⟨hbefore, hafter⟩ := not_fitsBits_ofIntClamp hbeyond hbits
  refine ⟨?_, _, Value.toIntParam?_of_beyond hn, hafter⟩
  intro m hm
  rw [hm.unique_float hn, hbefore]

/-- The datum of a value in an integer type. -/
theorem datum?_eq_some_iff (htype : type.intBits? = some bits) {value : Value}
    (hroom : type = .int8 → ¬value.Beyond) (now : Calendar.Instant) {datum : Datum} :
    type.datum? now value = some datum ↔
      ∃ n, datum = .int n ∧ value.Denotes n ∧ fitsBits bits n = true := by
  have hbits := bits_of_intBits? htype
  rw [datum?_of_intBits? htype]
  by_cases hbeyond : value.Beyond
  · have hnarrow : bits < 64 := hbits.resolve_right fun h => hroom h.2 hbeyond
    obtain ⟨hnone, m, hm, hfits⟩ := refused_of_beyond hbeyond hnarrow
    rw [hm, Option.map_some, Option.bind_some, hfits]
    constructor
    · intro h
      cases h
    · rintro ⟨n, -, hn, hyes⟩
      rw [hnone n hn] at hyes
      cases hyes
  · constructor
    · intro h
      obtain ⟨m, hm, h⟩ := Option.bind_eq_some_iff.1 h
      obtain ⟨n, hn, rfl⟩ := Option.map_eq_some_iff.1 hm
      split at h
      · next hfits =>
          obtain rfl := Option.some.inj h
          exact ⟨_, rfl, (Value.toIntParam?_eq_some_iff hbeyond).1 hn, hfits⟩
      · cases h
    · rintro ⟨n, rfl, hn, hfits⟩
      have hwide : fitsBits 64 n = true := fitsBits_mono (by omega) hfits
      have hword := toInt_ofInt_of_fits hwide
      have hparam : value.toIntParam? = some (Int64.ofInt n) :=
        (Value.toIntParam?_eq_some_iff hbeyond).2 (by rwa [hword])
      rw [hparam, Option.map_some, Option.bind_some, hword, if_pos hfits]

/-- A value is bound to an integer type as exactly what it is there, and refused where it is
nothing there; but a float beyond 64 bits is not refused by the type of 64 bits. -/
theorem bind_integer_exact (htype : type.intBits? = some bits) {value : Value}
    (hroom : type = .int8 → ¬value.Beyond) (now : Calendar.Instant) :
    (∀ bound, type.bind now value = .ok bound ↔ Exact bits value bound) ∧
      ((∀ bound, ¬Exact bits value bound) →
        type.bind now value = .error (.cannotBind value type)) := by
  by_cases hnull : value = .null
  · subst hnull
    refine ⟨fun bound => ?_, fun h => absurd .absent (h none)⟩
    rw [bind_null, exact_null_iff, Except.ok.injEq, eq_comm]
  · have hexact : ∀ bound, Exact bits value bound ↔
        ∃ datum, bound = some datum ∧ type.datum? now value = some datum := by
      intro bound
      simp only [exact_iff_of_ne_null hnull, datum?_eq_some_iff htype hroom now]
    simp only [hexact, bind_of_ne_null hnull]
    cases type.datum? now value with
    | none => simp
    | some datum =>
        refine ⟨fun bound => ?_, fun h => absurd ⟨datum, rfl, rfl⟩ (h (some datum))⟩
        simp [eq_comm]

def leastWord : Binary64 :=
  .ofBits 0xC3E0000000000000

theorem bind_integer_exact_leastWord :
    ColumnType.int8.intBits? = some 64 ∧
      (ColumnType.int8 = .int8 → ¬(Value.float leastWord).Beyond) ∧
      (Value.float leastWord).Denotes (-9223372036854775808) ∧
      ColumnType.int8.bind ⟨0, 0⟩ (.float leastWord) = .ok (some (.int (-9223372036854775808))) := by
  have hdenotes : (Value.float leastWord).Denotes (-9223372036854775808) := .float rfl (by decide +kernel)
  have hroom : ¬(Value.float leastWord).Beyond := by
    rintro ⟨x, n, hx, hn, hbeyond⟩
    rw [hn.unique_float hdenotes] at hbeyond
    exact absurd hbeyond (by decide)
  have htype : ColumnType.int8.intBits? = some 64 := rfl
  obtain ⟨hexact, -⟩ := bind_integer_exact htype (fun _ => hroom) ⟨0, 0⟩
  exact ⟨htype, fun _ => hroom, hdenotes, (hexact _).2 (.integer hdenotes (by decide))⟩

/-- A float beyond 64 bits is bound to the type of 64 bits as the end on its side. -/
theorem bind_int8_of_beyond {x : Binary64} {n : Int} (hn : (Value.float x).Denotes n)
    (hbeyond : fitsBits 64 n = false) (now : Calendar.Instant) :
    ColumnType.int8.bind now (.float x) =
      .ok (some (.int (if n < 0 then -9223372036854775808 else 9223372036854775807))) := by
  have hend := toInt_ofIntClamp_of_not_fits hbeyond
  have hfits := fitsBits_toInt (Int64.ofIntClamp n)
  have hnull : Value.float x ≠ .null := by
    intro h
    cases h
  rw [bind_of_ne_null hnull, datum?_of_intBits? rfl, Value.toIntParam?_of_beyond hn, Option.map_some,
    Option.bind_some, if_pos hfits, hend]

/-- The float two to the sixty-third is bound as the integer below it. -/
theorem bind_integer_inexact :
    ∃ x : Binary64, (Value.float x).Denotes 9223372036854775808 ∧ fitsBits 64 9223372036854775808 = false ∧
      ColumnType.int8.bind ⟨0, 0⟩ (.float x) = .ok (some (.int 9223372036854775807)) := by
  have hdenotes : (Value.float (.ofBits 0x43E0000000000000)).Denotes 9223372036854775808 :=
    .float rfl (by decide +kernel)
  exact ⟨_, hdenotes, by decide, bind_int8_of_beyond hdenotes (by decide) ⟨0, 0⟩⟩

end ColumnType

end ClosedSql
