/-!
# Maps from names

A map from names to anything, kept as a list in the order of the names. Names are
compared character by character, which is also the order of their UTF-8 bytes. As
the order is strict no name occurs twice, and two maps that give the same answers
are equal.
-/

namespace ClosedSql

/-- A finite map from names; the entries ascend strictly by name. -/
structure NameMap (α : Type) where
  entries : List (String × α)
  sorted : entries.Pairwise fun a b => a.1 < b.1

namespace NameMap

variable {α : Type}

def insertEntry (name : String) (value : α) : List (String × α) → List (String × α)
  | [] => [(name, value)]
  | entry :: rest =>
      if name < entry.1 then (name, value) :: entry :: rest
      else if entry.1 < name then entry :: insertEntry name value rest
      else (name, value) :: rest

theorem mem_insertEntry {name : String} {value : α} {entries : List (String × α)}
    {entry : String × α} (h : entry ∈ insertEntry name value entries) :
    entry = (name, value) ∨ entry ∈ entries := by
  induction entries with
  | nil => simpa [insertEntry] using h
  | cons head rest ih =>
      rw [insertEntry] at h
      split at h
      · simpa using h
      · split at h
        · rcases List.mem_cons.1 h with h | h
          · exact Or.inr (by simp [h])
          · exact (ih h).imp_right (List.mem_cons_of_mem _)
        · rcases List.mem_cons.1 h with h | h
          · exact Or.inl h
          · exact Or.inr (List.mem_cons_of_mem _ h)

theorem eq_of_not_lt {a b : String} (hab : ¬a < b) (hba : ¬b < a) : a = b :=
  String.le_antisymm (String.not_lt.1 hba) (String.not_lt.1 hab)

/-- Putting in an entry keeps the names ascending. -/
theorem sorted_insertEntry {name : String} {value : α} {entries : List (String × α)}
    (h : entries.Pairwise fun a b => a.1 < b.1) :
    (insertEntry name value entries).Pairwise fun a b => a.1 < b.1 := by
  induction entries with
  | nil => simp [insertEntry]
  | cons head rest ih =>
      obtain ⟨hhead, hrest⟩ := List.pairwise_cons.1 h
      rw [insertEntry]
      split
      · next hlt =>
          refine List.pairwise_cons.2 ⟨?_, h⟩
          intro entry hentry
          rcases List.mem_cons.1 hentry with rfl | hentry
          · exact hlt
          · exact String.lt_trans hlt (hhead _ hentry)
      · next hnlt =>
          split
          · next hgt =>
              refine List.pairwise_cons.2 ⟨?_, ih hrest⟩
              intro entry hentry
              rcases mem_insertEntry hentry with rfl | hentry
              · exact hgt
              · exact hhead _ hentry
          · next hngt =>
              refine List.pairwise_cons.2 ⟨?_, hrest⟩
              intro entry hentry
              rw [eq_of_not_lt hnlt hngt]
              exact hhead _ hentry

def empty : NameMap α :=
  ⟨[], List.Pairwise.nil⟩

instance : EmptyCollection (NameMap α) :=
  ⟨empty⟩

instance : Inhabited (NameMap α) :=
  ⟨empty⟩

instance [DecidableEq α] : DecidableEq (NameMap α) := fun a b =>
  if h : a.entries = b.entries then
    isTrue (by cases a; cases b; cases h; rfl)
  else isFalse fun hab => h (hab ▸ rfl)

def insert (map : NameMap α) (name : String) (value : α) : NameMap α :=
  ⟨insertEntry name value map.entries, sorted_insertEntry map.sorted⟩

def erase (map : NameMap α) (name : String) : NameMap α :=
  ⟨map.entries.filter fun entry => entry.1 ≠ name, map.sorted.filter _⟩

def get? (map : NameMap α) (name : String) : Option α :=
  (map.entries.find? fun entry => entry.1 = name).map Prod.snd

def names (map : NameMap α) : List String :=
  map.entries.map Prod.fst

def size (map : NameMap α) : Nat :=
  map.entries.length

def isEmpty (map : NameMap α) : Bool :=
  map.entries.isEmpty

/-- The map of a list of pairs; the last pair of a name counts. -/
def ofList (pairs : List (String × α)) : NameMap α :=
  pairs.foldl (fun map pair => map.insert pair.1 pair.2) empty

/-- The first map with every entry of the second set on top. -/
def merge (map other : NameMap α) : NameMap α :=
  other.entries.foldl (fun map entry => map.insert entry.1 entry.2) map

def mapValues {β : Type} (f : α → β) (map : NameMap α) : NameMap β :=
  ⟨map.entries.map fun entry => (entry.1, f entry.2), by
    rw [List.pairwise_map]
    exact map.sorted⟩

theorem ext {map other : NameMap α} (h : map.entries = other.entries) : map = other := by
  cases map
  cases other
  cases h
  rfl

theorem find?_insertEntry (name other : String) (value : α) (entries : List (String × α)) :
    (insertEntry name value entries).find? (fun entry => entry.1 = other) =
      if name = other then some (name, value)
      else entries.find? (fun entry => entry.1 = other) := by
  induction entries with
  | nil => by_cases h : name = other <;> simp [insertEntry, h]
  | cons head rest ih =>
      rw [insertEntry]
      split
      · by_cases h : name = other <;> simp [List.find?_cons, h]
      · next hnlt =>
          split
          · next hgt =>
              by_cases hhead : head.1 = other
              · have hne : ¬name = other := by
                  intro heq
                  rw [← heq] at hhead
                  rw [hhead] at hgt
                  exact String.lt_irrefl _ hgt
                simp [hhead, hne]
              · simp [hhead, ih]
          · next hngt =>
              by_cases h : name = other <;> simp [h, ← eq_of_not_lt hnlt hngt]

theorem get?_insert (map : NameMap α) (name other : String) (value : α) :
    (map.insert name value).get? other = if name = other then some value else map.get? other := by
  unfold get? insert
  rw [find?_insertEntry]
  split <;> rfl

@[simp]
theorem get?_empty (name : String) : (empty : NameMap α).get? name = none :=
  rfl

end NameMap

end ClosedSql
