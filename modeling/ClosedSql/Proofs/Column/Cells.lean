import ClosedSql.Column.Binding
import ClosedSql.Column.Reading

/-!
# Contents of cells

A cell holds nothing or a datum that belongs to the type of its column, whether the datum is given
or spelled in bytes. What is read from the cell is the value of its content, and that value is what
may be bound to a column of the same type.
-/

namespace ClosedSql

namespace ColumnType

variable {type : ColumnType}

/-- What a cell holds in a column of a type, if it is one of that type: nothing, or a datum. -/
def content? (type : ColumnType) : Cell → Option (Option Datum)
  | .null => some none
  | .datum datum => if type.admits datum then some (some datum) else none
  | .bytes bytes => ((type.datumOfBytes? bytes).filter type.admits).map some

def contentValue (type : ColumnType) : Option Datum → Value
  | none => .null
  | some datum => type.valueOf datum

theorem readDatum?_eq_map (type : ColumnType) (datum : Datum) :
    type.readDatum? datum = ((some datum).filter type.admits).map type.valueOf := by
  rw [readDatum?, Option.filter_some]
  split <;> rfl

/-- A type that can be read at all is read by the contents of its cells. -/
theorem read?_eq_map (h : type.isForeign = false) (cell : Cell) :
    type.read? cell = (type.content? cell).map type.contentValue := by
  rw [read?.eq_def, h, if_neg Bool.false_ne_true]
  cases cell with
  | null => rfl
  | datum datum =>
      change type.readDatum? datum = _
      rw [readDatum?, content?]
      split <;> rfl
  | bytes bytes =>
      change (type.datumOfBytes? bytes).bind type.readDatum? = _
      rw [content?]
      cases type.datumOfBytes? bytes with
      | none => rfl
      | some datum =>
          rw [Option.bind_some, readDatum?_eq_map, Option.map_map]
          rfl

/-- What is read from a cell is the value of what it holds. -/
theorem read?_eq_some_iff {cell : Cell} {value : Value} :
    type.read? cell = some value ↔
      type.isForeign = false ∧
        ∃ content, type.content? cell = some content ∧ value = type.contentValue content := by
  cases hforeign : type.isForeign with
  | true =>
      rw [read?.eq_def, hforeign, if_pos rfl]
      exact ⟨nofun, nofun⟩
  | false =>
      rw [read?_eq_map hforeign, Option.map_eq_some_iff]
      simp only [true_and, eq_comm]

/-- A datum that a cell holds belongs to the type of the column. -/
theorem admits_of_content? {cell : Cell} {datum : Datum}
    (h : type.content? cell = some (some datum)) : type.admits datum = true := by
  cases cell with
  | null => cases h
  | datum other =>
      rw [content?] at h
      split at h
      · next hadmits =>
          obtain rfl := Option.some.inj (Option.some.inj h)
          exact hadmits
      · cases h
  | bytes bytes =>
      obtain ⟨found, hfound, hsame⟩ := Option.map_eq_some_iff.1 h
      obtain rfl := Option.some.inj hsame
      exact (Option.filter_eq_some_iff.1 hfound).2

/-- The absence of a value fits every type. -/
theorem bind_null (now : Calendar.Instant) : type.bind now .null = .ok none :=
  rfl

/-- A value that there is is converted, or refused with its type. -/
theorem bind_of_ne_null {value : Value} (h : value ≠ .null) (now : Calendar.Instant) :
    type.bind now value = match type.datum? now value with
      | some datum => .ok (some datum)
      | none => .error (.cannotBind value type) := by
  have hnull : value.isNull = false := by
    cases value <;> first | rfl | exact absurd rfl h
  rw [bind, hnull]
  exact if_neg Bool.false_ne_true

theorem bind_of_datum? {value : Value} {datum : Datum} {now : Calendar.Instant}
    (hnull : value ≠ .null) (h : type.datum? now value = some datum) :
    type.bind now value = .ok (some datum) := by
  rw [bind_of_ne_null hnull, h]

/-- A value that cannot be converted is refused together with the type. -/
theorem bind_of_datum?_eq_none {value : Value} {now : Calendar.Instant} (hnull : value ≠ .null)
    (h : type.datum? now value = none) : type.bind now value = .error (.cannotBind value type) := by
  rw [bind_of_ne_null hnull, h]

end ColumnType

end ClosedSql
