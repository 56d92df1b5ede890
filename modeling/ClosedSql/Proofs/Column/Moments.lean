import ClosedSql.Proofs.Calendar.Texts
import ClosedSql.Proofs.Column.Cells

/-!
# Columns of dates and times, read and written back

The text read from a date, or from a date and time, is bound to a column of the same type as what
the cell held. The offset makes a difference: where it is written, a year outside the years from
zero to 9999 has a sign that no form with an offset takes, and the text is refused.
-/

namespace ClosedSql

open Calendar

namespace Calendar.Instant

/-- Microseconds are counted back exactly. -/
theorem toMicros_ofMicros (micros : Int) : (ofMicros micros).toMicros = micros := by
  have hnanos : (micros / 1000000 - millennium) * 1000000000 +
      (((micros % 1000000).toNat * 1000 : Nat) : Int) =
        (micros - millennium * 1000000) * 1000 := by
    rw [Int.natCast_mul, Int.toNat_of_nonneg (Int.emod_nonneg _ (by decide))]
    omega
  rw [toMicros, ofMicros, hnanos, Int.mul_tdiv_cancel _ (by decide), Int.sub_add_cancel]

theorem nanos_ofMicros_lt (micros : Int) : (ofMicros micros).nanos < 1000000000 := by
  have hmod := Int.emod_lt_of_pos micros (show 0 < 1000000 by decide)
  change (micros % 1000000).toNat * 1000 < 1000000000
  omega

/-- The midnight of a day is on that day. -/
theorem day_midnight (day : Int) : Instant.day ⟨day * daySeconds, 0⟩ = day :=
  Int.mul_ediv_cancel day (by decide)

end Calendar.Instant

/-- The instant that a day or a moment is; a day is its midnight. -/
def Datum.instant? : Datum → Option Instant
  | .moment micros => some (.ofMicros micros)
  | .day n => some ⟨n * Instant.daySeconds, 0⟩
  | _ => none

namespace Value

/-- No word for the current time has a hyphen. -/
theorem isNowWord_of_hyphen {text : List Char} (h : '-' ∈ text) : isNowWord text = false := by
  have hlower : '-' ∈ Text.lower text := List.mem_map.2 ⟨'-', h, rfl⟩
  have hword : ∀ word : List Char, '-' ∉ word → (Text.lower text == word) = false := by
    intro word hfree
    rw [beq_eq_false_iff_ne]
    rintro rfl
    exact hfree hlower
  rw [isNowWord, hword _ (by decide), hword _ (by decide), hword _ (by decide)]
  rfl

/-- A text of the characters of dates and times, with a hyphen, stands for what is read from it. -/
theorem toInstant?_of_marks {text : List Char} (hmarks : ∀ c ∈ text, IsMark c) (hyphen : '-' ∈ text)
    (now : Instant) : (Value.text (String.ofList text)).toInstant? now = readInstant? text := by
  have htrim : Text.trim text = text :=
    Text.trim_of_not_isBlank fun c hc => isBlank_of_isMark (hmarks c hc)
  rw [toInstant?, String.toList_ofList, htrim]
  exact if_neg (by rw [isNowWord_of_hyphen hyphen]; exact Bool.false_ne_true)

variable {micros : Int}

/-- The text of a moment is read as an instant as it stands. -/
theorem toInstant?_momentText (type : ColumnType) (micros : Int) (now : Instant) :
    (Value.text (String.ofList (momentText type micros))).toInstant? now =
      readInstant? (momentText type micros) := by
  refine toInstant?_of_marks ?_ (List.mem_append_left _ (hyphen_mem_text _)) now
  intro c hc
  rcases List.mem_append.1 hc with htext | hoffset
  · exact isMark_of_mem_text htext
  · split at hoffset
    · exact isMark_of_mem_universal c hoffset
    · cases hoffset

/-- The text of a moment without an offset stands for that moment, whatever its year. -/
theorem toInstant?_timestamp (h : (Instant.ofMicros micros).inRange = true) (now : Instant) :
    (Value.text (String.ofList (momentText .timestamp micros))).toInstant? now =
      some (.ofMicros micros) := by
  rw [toInstant?_momentText, momentText, if_neg (by decide), List.append_nil]
  exact readInstant?_text h (Instant.nanos_ofMicros_lt micros)

/-- The text of a moment with an offset stands for that moment if its year has no sign. -/
theorem toInstant?_timestamptz_of_plain (h : (Instant.ofMicros micros).inRange = true)
    (hplain : Date.Plain (Instant.ofMicros micros).date.year) (now : Instant) :
    (Value.text (String.ofList (momentText .timestamptz micros))).toInstant? now =
      some (.ofMicros micros) := by
  rw [toInstant?_momentText, momentText, if_pos rfl]
  exact readInstant?_universal_of_plain h (Instant.nanos_ofMicros_lt micros) hplain

/-- The text of a moment with an offset stands for nothing if its year has a sign. -/
theorem toInstant?_timestamptz_of_not_plain (h : (Instant.ofMicros micros).inRange = true)
    (hplain : ¬Date.Plain (Instant.ofMicros micros).date.year) (now : Instant) :
    (Value.text (String.ofList (momentText .timestamptz micros))).toInstant? now = none := by
  rw [toInstant?_momentText, momentText, if_pos rfl]
  exact readInstant?_universal_of_not_plain h (Instant.nanos_ofMicros_lt micros) hplain

/-- The text of a day stands for its midnight. -/
theorem toInstant?_date {day : Int} (h : (Date.ofDay day).inRange = true) (now : Instant) :
    (Value.text (String.ofList (Date.ofDay day).text)).toInstant? now =
      some ⟨day * Instant.daySeconds, 0⟩ := by
  rw [toInstant?_of_marks (fun c hc => isMark_of_mem_date hc) (hyphen_mem_date _)]
  exact readInstant?_date h

end Value

namespace ColumnType

def isTemporal : ColumnType → Bool
  | timestamp | timestamptz | date => true
  | _ => false

/-- Whether the text of a content has a sign that is not taken back: a year that is not one of zero
to 9999, in a type with an offset. -/
def SignedYear (type : ColumnType) (content : Option Datum) : Prop :=
  type = .timestamptz ∧
    ∃ micros, content = some (.moment micros) ∧ ¬Date.Plain (Instant.ofMicros micros).date.year

variable {type : ColumnType}

theorem temporal_of_admits {datum : Datum} (htemporal : type.isTemporal = true)
    (hadmits : type.admits datum = true) :
    (∃ micros, datum = .moment micros ∧ (type = .timestamp ∨ type = .timestamptz) ∧
        (Instant.ofMicros micros).inRange = true) ∨
      ∃ day, datum = .day day ∧ type = .date ∧ (Date.ofDay day).inRange = true := by
  cases datum with
  | moment micros =>
      rw [admits, Bool.and_eq_true, Bool.or_eq_true, beq_iff_eq, beq_iff_eq] at hadmits
      exact .inl ⟨micros, rfl, hadmits⟩
  | day day =>
      rw [admits, Bool.and_eq_true, beq_iff_eq] at hadmits
      exact .inr ⟨day, rfl, hadmits⟩
  | bool b => cases type <;> simp [isTemporal, admits] at htemporal hadmits
  | int n => cases type <;> simp [isTemporal, admits, intBits?] at htemporal hadmits
  | float x => cases type <;> simp [isTemporal, admits] at htemporal hadmits
  | decimal d => cases type <;> simp [isTemporal, admits] at htemporal hadmits
  | uuid id => cases type <;> simp [isTemporal, admits] at htemporal hadmits
  | json document => cases type <;> simp [isTemporal, admits] at htemporal hadmits
  | text s => cases type <;> simp [isTemporal, isText, admits] at htemporal hadmits

section

variable {value : Value} {now : Instant}

/-- A value that stands for a moment is bound as that moment. -/
theorem bind_of_moment {micros : Int} (htype : type = .timestamp ∨ type = .timestamptz)
    (hnull : value ≠ .null) (h : value.toInstant? now = some (.ofMicros micros)) :
    type.bind now value = .ok (some (.moment micros)) := by
  refine bind_of_datum? hnull ?_
  rcases htype with rfl | rfl <;>
    rw [datum?, h, Option.map_some, Instant.toMicros_ofMicros]

/-- A value that stands for the midnight of a day is bound as that day. -/
theorem bind_of_midnight {day : Int} (hnull : value ≠ .null)
    (h : value.toInstant? now = some ⟨day * Instant.daySeconds, 0⟩) :
    ColumnType.date.bind now value = .ok (some (.day day)) := by
  refine bind_of_datum? hnull ?_
  rw [datum?, h, Option.map_some, Instant.day_midnight]

/-- A value that stands for no instant is refused. -/
theorem bind_timestamptz_of_none (hnull : value ≠ .null) (h : value.toInstant? now = none) :
    ColumnType.timestamptz.bind now value = .error (.cannotBind value .timestamptz) := by
  refine bind_of_datum?_eq_none hnull ?_
  rw [datum?, h, Option.map_none]

end

/-- The text of a moment stands for it, unless it has a sign that is not taken back. -/
theorem toInstant?_moment {micros : Int} (htype : type = .timestamp ∨ type = .timestamptz)
    (hrange : (Instant.ofMicros micros).inRange = true)
    (hsigned : ¬type.SignedYear (some (.moment micros))) (now : Instant) :
    (type.valueOf (.moment micros)).toInstant? now = some (.ofMicros micros) := by
  rw [valueOf]
  rcases htype with rfl | rfl
  · exact Value.toInstant?_timestamp hrange now
  · exact Value.toInstant?_timestamptz_of_plain hrange
      (Classical.byContradiction fun hplain => hsigned ⟨rfl, micros, rfl, hplain⟩) now

/-- What is read from a column of days or moments is bound to a column of the same type as what the
cell held, and it stands for that very instant, unless its year has a sign before an offset: then it
is refused. -/
theorem bind_of_read?_temporal (htemporal : type.isTemporal = true) {cell : Cell} {value : Value}
    (hread : type.read? cell = some value) (now : Instant) :
    ∃ content, type.content? cell = some content ∧
      (¬type.SignedYear content →
        type.bind now value = .ok content ∧
          ∀ datum, content = some datum →
            ∃ instant, datum.instant? = some instant ∧ value.toInstant? now = some instant) ∧
      (type.SignedYear content → type.bind now value = .error (.cannotBind value type)) := by
  obtain ⟨-, content, hcontent, rfl⟩ := read?_eq_some_iff.1 hread
  refine ⟨content, hcontent, ?_⟩
  cases content with
  | none => exact ⟨fun _ => ⟨bind_null now, nofun⟩, fun ⟨_, _, hmoment, _⟩ => nomatch hmoment⟩
  | some datum =>
      rw [contentValue]
      rcases temporal_of_admits htemporal (admits_of_content? hcontent) with
        ⟨micros, rfl, htype, hrange⟩ | ⟨day, rfl, rfl, hrange⟩
      · constructor
        · intro hunsigned
          have hinstant := toInstant?_moment htype hrange hunsigned now
          refine ⟨bind_of_moment htype nofun hinstant, ?_⟩
          rintro _ ⟨⟩
          exact ⟨_, rfl, hinstant⟩
        · rintro ⟨rfl, other, hsame, hplain⟩
          obtain rfl := Datum.moment.inj (Option.some.inj hsame)
          exact bind_timestamptz_of_none nofun
            (Value.toInstant?_timestamptz_of_not_plain hrange hplain now)
      · have hinstant := Value.toInstant?_date hrange now
        refine ⟨fun _ => ⟨bind_of_midnight nofun hinstant, ?_⟩, fun hsigned => nomatch hsigned.1⟩
        rintro _ ⟨⟩
        exact ⟨_, rfl, hinstant⟩

/-- The last microsecond of the year zero. -/
theorem bind_of_read?_temporal_yearZero :
    ColumnType.timestamptz.isTemporal = true ∧
      ColumnType.timestamptz.read? (.datum (.moment (-62135596800000001))) =
        some (.text "0000-12-31T23:59:59.999999+00:00") ∧
      ¬ColumnType.timestamptz.SignedYear (some (.moment (-62135596800000001))) ∧
      ColumnType.timestamptz.bind ⟨0, 0⟩ (.text "0000-12-31T23:59:59.999999+00:00") =
        .ok (some (.moment (-62135596800000001))) := by
  have hread : ColumnType.timestamptz.read? (.datum (.moment (-62135596800000001))) =
      some (.text "0000-12-31T23:59:59.999999+00:00") := by
    decide +kernel
  have hplain : Date.Plain (Instant.ofMicros (-62135596800000001)).date.year :=
    ⟨by decide +kernel, by decide +kernel⟩
  have hunsigned : ¬ColumnType.timestamptz.SignedYear (some (.moment (-62135596800000001))) := by
    rintro ⟨-, micros, hsame, hsigned⟩
    obtain rfl := Datum.moment.inj (Option.some.inj hsame)
    exact hsigned hplain
  obtain ⟨content, hcontent, hbound, -⟩ := bind_of_read?_temporal rfl hread ⟨0, 0⟩
  obtain rfl : some (.moment (-62135596800000001)) = content := Option.some.inj hcontent
  exact ⟨rfl, hread, hunsigned, (hbound hunsigned).1⟩

/-- The first moment of the year 10000 is read with a sign and then refused; without an offset it
is bound back. -/
theorem bind_moment_year10000 :
    ColumnType.timestamptz.read? (.datum (.moment 253402300800000000)) =
        some (.text "+10000-01-01T00:00:00+00:00") ∧
      ColumnType.timestamptz.bind ⟨0, 0⟩ (.text "+10000-01-01T00:00:00+00:00") =
        .error (.cannotBind (.text "+10000-01-01T00:00:00+00:00") .timestamptz) ∧
      ColumnType.timestamp.bind ⟨0, 0⟩ (.text "+10000-01-01T00:00:00") =
        .ok (some (.moment 253402300800000000)) := by
  have hread : ColumnType.timestamptz.read? (.datum (.moment 253402300800000000)) =
      some (.text "+10000-01-01T00:00:00+00:00") := by
    decide +kernel
  have hnone : (Value.text "+10000-01-01T00:00:00+00:00").toInstant? ⟨0, 0⟩ = none := by
    decide +kernel
  have hsome : (Value.text "+10000-01-01T00:00:00").toInstant? ⟨0, 0⟩ =
      some (.ofMicros 253402300800000000) := by
    decide +kernel
  exact ⟨hread, bind_timestamptz_of_none nofun hnone, bind_of_moment (.inl rfl) nofun hsome⟩

end ColumnType

end ClosedSql
