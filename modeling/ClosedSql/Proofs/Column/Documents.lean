import ClosedSql.Proofs.Column.Cells
import ClosedSql.Proofs.Json.Reading
import ClosedSql.Proofs.Number.WholeFloats
import ClosedSql.Proofs.Number.Words

/-!
# Columns of documents, read and written back

A document is read as a scalar value, or as its text if it is a container, and a text is bound as
the document it spells, or else as a string. So a document is bound back unless it is the document
null, which is read as the absence of a value, an integer beyond the range of values, a string that
itself spells a document, or a container with a float that its own text does not give back.
-/

namespace ClosedSql

open Number

namespace Json

/-- Documents for which the value that is read from them stands. -/
def Kept : Json → Prop
  | scalar .null => False
  | scalar (.bool _) => True
  | scalar (.int n) => fitsBits 64 n = true
  | scalar (.float x) => x.isFinite = true
  | scalar (.string s) => ofText? s = none
  | container => All Scalar.Reread container

/-- Documents as a reader makes them. -/
structure Settled (document : Json) : Prop where
  canonical : document.canonical = document
  held : document.Held

/-- The canonical form of a document that is held is settled. -/
theorem settled_canonical {document : Json} (h : document.Held) : document.canonical.Settled :=
  ⟨document.canonical_canonical, h.canonical⟩

/-- A document whose floats are given back is read from its text. -/
theorem Settled.ofText? {document : Json} (h : document.Settled)
    (hreread : All Scalar.Reread document) : ofText? document.text = some document :=
  ofText?_text (h.held.1.and hreread) h.held.2

end Json

namespace Value

/-- A text that spells a document stands for it, in canonical form. -/
theorem toDocument_text {s : String} {document : Json} (h : Json.ofText? s = some document) :
    (Value.text s).toDocument = document.canonical := by
  rw [toDocument, h]

theorem toDocument_float {x : Binary64} (h : x.isFinite = true) :
    (Value.float x).toDocument = .scalar (.float x) := by
  rw [toDocument, toJson, toScalar, if_pos h]
  exact nofun

/-- A document that is kept is the one that its value stands for. -/
theorem toDocument_ofJson {document : Json} (hsettled : document.Settled) (hkept : document.Kept) :
    ofJson document ≠ .null ∧ (ofJson document).toDocument = document := by
  have hcontainer : Json.All Json.Scalar.Reread document →
      (Value.text document.text).toDocument = document := by
    intro hreread
    rw [toDocument_text (hsettled.ofText? hreread), hsettled.canonical]
  rw [ofJson, hsettled.canonical]
  cases document with
  | array items => exact ⟨nofun, hcontainer hkept⟩
  | object members => exact ⟨nofun, hcontainer hkept⟩
  | scalar value =>
      cases value with
      | null => exact hkept.elim
      | bool b => exact ⟨nofun, rfl⟩
      | int n =>
          have hword : int64? n = some (Int64.ofInt n) := if_pos hkept
          have hvalue := toInt_of_int64? hword
          refine ⟨?_, ?_⟩ <;> simp only [ofScalar, hword]
          · exact nofun
          · rw [toDocument, toJson, toScalar, hvalue]
            exact nofun
      | float x => exact ⟨nofun, toDocument_float hkept⟩
      | string s =>
          refine ⟨nofun, ?_⟩
          change (Value.text s).toDocument = _
          rw [toDocument, show Json.ofText? s = none from hkept]

/-- An integer beyond the range of values is read as a float, and stays one. -/
theorem toDocument_ofJson_int {n : Int} (hsettled : (Json.scalar (.int n)).Settled)
    (hbeyond : fitsBits 64 n = false) :
    ofJson (.scalar (.int n)) ≠ .null ∧
      (ofJson (.scalar (.int n))).toDocument = .scalar (.float (.ofInt n)) := by
  have hword : int64? n = none := if_neg (by simp [hbeyond])
  obtain ⟨hlow, hhigh⟩ := Json.all_scalar_iff.1 hsettled.held.1
  have hlarge : (twoTo 63 : Int) ≤ n := by
    by_contra hsmall
    have hfits : fitsBits 64 n = true := fitsBits_iff.2 ⟨hlow, Int.not_le.1 hsmall⟩
    rw [hbeyond] at hfits
    cases hfits
  have hfinite : (Binary64.ofInt n).isFinite = true := by
    have hpos := twoTo_pos 63
    obtain ⟨number, rfl⟩ := Int.eq_ofNat_of_zero_le (show 0 ≤ n by omega)
    exact Binary64.isFinite_ofInt (by omega) (Int.ofNat_lt.1 hhigh)
  have hvalue : ofJson (.scalar (.int n)) = float (.ofInt n) := by
    rw [ofJson, hsettled.canonical]
    change ofScalar (.int n) = _
    rw [ofScalar, hword]
  rw [hvalue]
  exact ⟨nofun, toDocument_float hfinite⟩

end Value

def Cell.Settled : Cell → Prop
  | .datum (.json document) => document.Settled
  | _ => True

namespace ColumnType

variable {type : ColumnType}

/-- A value that there is is bound as the document that it stands for. -/
theorem bind_document (htype : type = .json ∨ type = .jsonb) {value : Value} {document : Json}
    (hnull : value ≠ .null) (h : value.toDocument = document) (now : Calendar.Instant) :
    type.bind now value = .ok (some (.json document)) := by
  subst h
  refine bind_of_datum? hnull ?_
  rcases htype with rfl | rfl <;> rfl

theorem exists_document_of_admits (htype : type = .json ∨ type = .jsonb) {datum : Datum}
    (h : type.admits datum = true) : ∃ document, datum = .json document := by
  cases datum with
  | json document => exact ⟨document, rfl⟩
  | _ => rcases htype with rfl | rfl <;> cases h

/-- A document that is read from bytes is settled. -/
theorem settled_of_jsonOfBytes? {bytes : List UInt8} {document : Json}
    (h : jsonOfBytes? bytes = some document) : document.Settled := by
  obtain ⟨read, hread, rfl⟩ := Option.map_eq_some_iff.1 h
  obtain ⟨text, -, htext⟩ := Option.bind_eq_some_iff.1 hread
  exact Json.settled_canonical (Json.held_ofText? htext)

/-- The document that bytes spell is settled. -/
theorem settled_of_datumOfBytes? (htype : type = .json ∨ type = .jsonb) {bytes : List UInt8}
    {document : Json} (h : type.datumOfBytes? bytes = some (.json document)) :
    document.Settled := by
  rcases htype with rfl | rfl
  · obtain ⟨read, hread, hsame⟩ := Option.map_eq_some_iff.1 h
    obtain rfl := Datum.json.inj hsame
    exact settled_of_jsonOfBytes? hread
  · rw [datumOfBytes?.eq_def] at h
    simp only at h
    split at h
    · obtain ⟨read, hread, hsame⟩ := Option.map_eq_some_iff.1 h
      obtain rfl := Datum.json.inj hsame
      exact settled_of_jsonOfBytes? hread
    · cases h

/-- A column of documents holds documents, and they are settled. -/
theorem settled_of_content? (htype : type = .json ∨ type = .jsonb) {cell : Cell}
    (hcell : cell.Settled) {datum : Datum} (h : type.content? cell = some (some datum)) :
    ∃ document, datum = .json document ∧ document.Settled := by
  obtain ⟨document, rfl⟩ := exists_document_of_admits htype (admits_of_content? h)
  refine ⟨document, rfl, ?_⟩
  cases cell with
  | null => cases h
  | datum other =>
      rw [content?] at h
      split at h
      · obtain rfl := Option.some.inj (Option.some.inj h)
        exact hcell
      · cases h
  | bytes bytes =>
      obtain ⟨found, hfound, hsame⟩ := Option.map_eq_some_iff.1 h
      obtain rfl := Option.some.inj hsame
      exact settled_of_datumOfBytes? htype (Option.filter_eq_some_iff.1 hfound).1

/-- What is read from a column of documents is bound to a column of the same type as what the cell
held, if that is kept. Of the others, the document null is bound as the absence of a value, an
integer beyond the range of values as the float nearest to it, and a string that spells a document
as that document. -/
theorem bind_of_read?_document (htype : type = .json ∨ type = .jsonb) {cell : Cell}
    (hcell : cell.Settled) {value : Value} (hread : type.read? cell = some value)
    (now : Calendar.Instant) :
    ∃ content, type.content? cell = some content ∧
      (content = none → type.bind now value = .ok none) ∧
      ∀ datum, content = some datum →
        ∃ document, datum = .json document ∧
          (document.Kept → type.bind now value = .ok content) ∧
          (document = .scalar .null → type.bind now value = .ok none) ∧
          (∀ n, document = .scalar (.int n) → fitsBits 64 n = false →
            type.bind now value = .ok (some (.json (.scalar (.float (.ofInt n)))))) ∧
          ∀ s other, document = .scalar (.string s) → Json.ofText? s = some other →
            type.bind now value = .ok (some (.json other.canonical)) := by
  obtain ⟨-, content, hcontent, rfl⟩ := read?_eq_some_iff.1 hread
  refine ⟨content, hcontent, ?_, ?_⟩
  · rintro rfl
    exact bind_null now
  · rintro datum rfl
    obtain ⟨document, rfl, hsettled⟩ := settled_of_content? htype hcell hcontent
    rw [contentValue, valueOf]
    refine ⟨document, rfl, ?_, ?_, ?_, ?_⟩
    · intro hkept
      obtain ⟨hnull, hdocument⟩ := Value.toDocument_ofJson hsettled hkept
      exact bind_document htype hnull hdocument now
    · rintro rfl
      exact bind_null now
    · rintro n rfl hbeyond
      obtain ⟨hnull, hdocument⟩ := Value.toDocument_ofJson_int hsettled hbeyond
      exact bind_document htype hnull hdocument now
    · rintro s other rfl hother
      have hvalue : Value.ofJson (.scalar (.string s)) = .text s := rfl
      exact hvalue ▸ bind_document htype (by nofun) (Value.toDocument_text hother) now

def tenth : Binary64 :=
  .finite false ⟨4591870180066957722, by decide⟩

theorem text_tenth : (Json.Scalar.float tenth).text = "0.1".toList := by
  have hsize : Digits.magnitude (unitsOfRank 52 4591870180066957722) = 0 :=
    Digits.magnitude_eq (show tenTo 399 ≤ _ by decide +kernel) (by decide +kernel)
  have hshortest : Digits.shortest .even 4591870180066957722 = ⟨1, -1⟩ :=
    Digits.shortest_of_findSome? hsize (d := ⟨1, -1⟩) (by decide +kernel)
  rw [tenth, Json.Scalar.text_of_shortest (by decide) hshortest]
  decide +kernel

def mixedDocument : Json :=
  .object
    [("a", .array [.scalar (.int 18446744073709551615), .scalar (.int (-9223372036854775808)),
        .scalar (.float tenth), .scalar (.string "\"\\\n\x01é😀"), .array [], .scalar .null]),
      ("b", .object [])]

theorem bind_of_read?_document_mixed :
    (Cell.datum (.json mixedDocument)).Settled ∧
      ColumnType.jsonb.read? (.datum (.json mixedDocument)) = some (.text mixedDocument.text) ∧
      mixedDocument.Kept ∧
      ColumnType.jsonb.bind ⟨0, 0⟩ (.text mixedDocument.text) =
        .ok (some (.json mixedDocument)) := by
  have htenth : (Json.Scalar.float tenth).Reread := by
    rw [Json.Scalar.Reread, text_tenth]
    decide +kernel
  have hheld : mixedDocument.Held := by
    refine ⟨?_, ?_⟩
    · simp [mixedDocument, Json.Scalar.Held]
      decide
    · simp [mixedDocument, Json.Progress.depthLimit]
  have hcell : (Cell.datum (.json mixedDocument)).Settled := ⟨rfl, hheld⟩
  have hread : ColumnType.jsonb.read? (.datum (.json mixedDocument)) =
      some (.text mixedDocument.text) :=
    rfl
  have hkept : mixedDocument.Kept := by
    have hreread : Json.All Json.Scalar.Reread mixedDocument := by
      simp only [mixedDocument, Json.all_object_iff, Json.all_array_iff, Json.all_scalar_iff,
        List.forall_mem_cons]
      have hnone : ∀ item ∈ ([] : List Json), Json.All Json.Scalar.Reread item :=
        List.forall_mem_nil _
      exact ⟨⟨trivial, trivial, htenth, trivial, hnone, trivial, hnone⟩, List.forall_mem_nil _,
        List.forall_mem_nil _⟩
    exact hreread
  obtain ⟨content, hcontent, -, hbound⟩ := bind_of_read?_document (.inr rfl) hcell hread ⟨0, 0⟩
  obtain rfl : some (.json mixedDocument) = content := Option.some.inj hcontent
  obtain ⟨document, hsame, hbound, -⟩ := hbound _ rfl
  obtain rfl := Datum.json.inj hsame
  exact ⟨hcell, hread, hkept, hbound hkept⟩

/-- A float that its text does not give back, and the next one, which is read from that text. -/
def tiny : Binary64 :=
  .finite false ⟨4117924766666052641, by decide⟩

def nextToTiny : Binary64 :=
  .finite false ⟨4117924766666052642, by decide⟩

theorem text_tiny : (Json.Scalar.float tiny).text = "2.1000000000000003e-33".toList := by
  have hsize : Digits.magnitude (unitsOfRank 52 4117924766666052641) = -32 :=
    Digits.magnitude_eq (show tenTo 367 ≤ _ by decide +kernel) (by decide +kernel)
  have hshortest : Digits.shortest .even 4117924766666052641 = ⟨21000000000000003, -49⟩ :=
    Digits.shortest_of_findSome? hsize (d := ⟨21000000000000003, -49⟩) (by decide +kernel)
  rw [tiny, Json.Scalar.text_of_shortest (by decide) hshortest]
  decide +kernel

theorem text_array_tiny :
    (Json.array [.scalar (.float tiny)]).text = "[2.1000000000000003e-33]" := by
  have htokens : (Json.array [.scalar (.float tiny)]).tokens =
      [.openArray, .scalar (.float tiny), .closeArray] :=
    rfl
  rw [Json.text, htokens]
  simp only [List.flatMap_cons, List.flatMap_nil, Json.Token.text, text_tiny]
  rfl

/-- The text of the one float is read as the other. -/
theorem ofText?_array_tiny :
    Json.ofText? "[2.1000000000000003e-33]" = some (.array [.scalar (.float nextToTiny)]) := by
  have hopen : Json.Token.read? "[2.1000000000000003e-33]".toList =
      some (.openArray, "2.1000000000000003e-33]".toList) := by
    decide +kernel
  have hfloat : Json.Token.read? "2.1000000000000003e-33]".toList =
      some (.scalar (.float nextToTiny), [']']) := by
    decide +kernel
  have hscan : Json.Token.scan? "[2.1000000000000003e-33]".toList =
      some [.openArray, .scalar (.float nextToTiny), .closeArray] := by
    have hclose : Json.Token.read? [']'] = some (.closeArray, []) := rfl
    rw [Json.Token.scan?_of_read? hopen, Json.Token.scan?_of_read? hfloat,
      Json.Token.scan?_of_read? hclose, Json.Token.scan?]
    rfl
  rw [Json.ofText?, hscan]
  rfl

/-- The first integer beyond the range of values, and the float that it is read as. -/
def beyondWords : Binary64 :=
  .ofInt 9223372036854775808

/-- The document null comes back as nothing, the string of a digit as a number, an integer beyond
the range of values as a float, and a container with an unlucky float as one with another float. -/
theorem bind_of_read?_document_changed :
    (ColumnType.json.read? (.datum (.json (.scalar .null))) = some .null ∧
        ColumnType.json.bind ⟨0, 0⟩ .null = .ok none) ∧
      (ColumnType.json.read? (.datum (.json (.scalar (.string "1")))) = some (.text "1") ∧
        ColumnType.json.bind ⟨0, 0⟩ (.text "1") = .ok (some (.json (.scalar (.int 1))))) ∧
      (ColumnType.json.read? (.datum (.json (.scalar (.int 9223372036854775808)))) =
          some (.float beyondWords) ∧
        ColumnType.json.bind ⟨0, 0⟩ (.float beyondWords) =
          .ok (some (.json (.scalar (.float beyondWords))))) ∧
      ColumnType.json.read? (.datum (.json (.array [.scalar (.float tiny)]))) =
          some (.text "[2.1000000000000003e-33]") ∧
        ColumnType.json.bind ⟨0, 0⟩ (.text "[2.1000000000000003e-33]") =
          .ok (some (.json (.array [.scalar (.float nextToTiny)]))) ∧
        tiny ≠ nextToTiny := by
  have hone : Json.ofText? "1" = some (.scalar (.int 1)) := by
    have hreadable : (Json.Scalar.int 1).Readable := ⟨⟨by decide, by decide⟩, trivial⟩
    have htext : (Json.scalar (.int 1)).text = "1" := by decide +kernel
    rw [← htext]
    exact Json.ofText?_text (.scalar hreadable) .scalar
  have hbeyond : ColumnType.json.read? (.datum (.json (.scalar (.int 9223372036854775808)))) =
      some (.float beyondWords) := by
    decide +kernel
  have hfinite : beyondWords.isFinite = true := by decide +kernel
  have htiny : ColumnType.json.read? (.datum (.json (.array [.scalar (.float tiny)]))) =
      some (.text (Json.array [.scalar (.float tiny)]).text) :=
    rfl
  rw [text_array_tiny] at htiny
  refine ⟨⟨rfl, rfl⟩, ⟨rfl, ?_⟩, ⟨hbeyond, ?_⟩, htiny, ?_, by decide⟩
  · exact bind_document (.inl rfl) (by nofun) (Value.toDocument_text hone) ⟨0, 0⟩
  · exact bind_document (.inl rfl) (by nofun) (Value.toDocument_float hfinite) ⟨0, 0⟩
  · exact bind_document (.inl rfl) (by nofun) (Value.toDocument_text ofText?_array_tiny) ⟨0, 0⟩

end ColumnType

end ClosedSql
