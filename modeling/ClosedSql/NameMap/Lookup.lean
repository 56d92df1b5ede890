import ClosedSql.NameMap

/-!
# Looking up names

What `get?` answers after each operation on a map, and that the answers determine the map.
-/

namespace ClosedSql.NameMap

variable {α : Type}

/-! ## Entries -/

/-- An entry of an ascending list is found by its name. -/
theorem find?_of_mem {entries : List (String × α)} (h : entries.Pairwise fun a b => a.1 < b.1)
    {entry : String × α} (hmem : entry ∈ entries) :
    entries.find? (fun other => other.1 = entry.1) = some entry := by
  induction entries with
  | nil => cases hmem
  | cons head rest ih =>
      obtain ⟨hhead, hrest⟩ := List.pairwise_cons.1 h
      rcases List.mem_cons.1 hmem with rfl | hmem
      · simp
      · have hne : ¬head.1 = entry.1 := by
          intro heq
          have hlt := hhead _ hmem
          rw [heq] at hlt
          exact String.lt_irrefl _ hlt
        simp [hne, ih hrest hmem]

/-- A name below every name of a list is not found there. -/
theorem find?_eq_none_of_lt {name : String} {entries : List (String × α)}
    (h : ∀ entry ∈ entries, name < entry.1) :
    entries.find? (fun entry => entry.1 = name) = none := by
  rw [List.find?_eq_none]
  intro entry hentry heq
  have hlt := h entry hentry
  rw [of_decide_eq_true heq] at hlt
  exact String.lt_irrefl _ hlt

theorem find?_cons_self (entry : String × α) (rest : List (String × α)) :
    (entry :: rest).find? (fun other => other.1 = entry.1) = some entry := by
  simp

/-- Ascending lists with the same answers have the same entries. -/
theorem entries_eq_of_find? {xs ys : List (String × α)} (hxs : xs.Pairwise fun a b => a.1 < b.1)
    (hys : ys.Pairwise fun a b => a.1 < b.1)
    (h : ∀ name, (xs.find? fun entry => entry.1 = name).map Prod.snd =
      (ys.find? fun entry => entry.1 = name).map Prod.snd) : xs = ys := by
  induction xs generalizing ys with
  | nil =>
      cases ys with
      | nil => rfl
      | cons y ys => simpa using h y.1
  | cons x xs ih =>
      cases ys with
      | nil => simpa using h x.1
      | cons y ys =>
          obtain ⟨hx, hxs⟩ := List.pairwise_cons.1 hxs
          obtain ⟨hy, hys⟩ := List.pairwise_cons.1 hys
          -- the smaller head would be found on one side only
          have hnames : x.1 = y.1 := by
            apply eq_of_not_lt
            · intro hlt
              have hnone : (y :: ys).find? (fun entry => entry.1 = x.1) = none := by
                apply find?_eq_none_of_lt
                intro entry hentry
                rcases List.mem_cons.1 hentry with rfl | hentry
                · exact hlt
                · exact String.lt_trans hlt (hy _ hentry)
              have hfound := h x.1
              rw [find?_cons_self, hnone] at hfound
              cases hfound
            · intro hlt
              have hnone : (x :: xs).find? (fun entry => entry.1 = y.1) = none := by
                apply find?_eq_none_of_lt
                intro entry hentry
                rcases List.mem_cons.1 hentry with rfl | hentry
                · exact hlt
                · exact String.lt_trans hlt (hx _ hentry)
              have hfound := h y.1
              rw [find?_cons_self, hnone] at hfound
              cases hfound
          have hvalues : x.2 = y.2 := by
            have hfound := h x.1
            rw [find?_cons_self, hnames, find?_cons_self] at hfound
            simpa using hfound
          have hrest : xs = ys := by
            apply ih hxs hys
            intro name
            by_cases hname : x.1 = name
            · have hleft := find?_eq_none_of_lt fun entry hentry => hname ▸ hx entry hentry
              have hright := find?_eq_none_of_lt fun entry hentry =>
                hname ▸ hnames ▸ hy entry hentry
              rw [hleft, hright]
            · have hfound := h name
              rwa [List.find?_cons_of_neg (by simpa using hname),
                List.find?_cons_of_neg (by simpa using hnames ▸ hname)] at hfound
          rw [hrest, Prod.ext hnames hvalues]

/-! ## Maps -/

/-- What is found for a name is what stands beside it among the entries. -/
theorem get?_eq_some_iff {map : NameMap α} {name : String} {value : α} :
    map.get? name = some value ↔ (name, value) ∈ map.entries := by
  constructor
  · intro h
    obtain ⟨entry, hentry, rfl⟩ := Option.map_eq_some_iff.1 h
    have hname := List.find?_some hentry
    have hmem := List.mem_of_find?_eq_some hentry
    simp only [decide_eq_true_eq] at hname
    rw [← hname]
    exact hmem
  · intro h
    simp [get?, find?_of_mem map.sorted h]

/-- Two maps that give the same answers are equal. -/
theorem ext_get? {map other : NameMap α} (h : ∀ name, map.get? name = other.get? name) :
    map = other :=
  ext (entries_eq_of_find? map.sorted other.sorted h)

/-- Giving a name the value that it has changes nothing. -/
theorem insert_of_get? {map : NameMap α} {name : String} {value : α}
    (h : map.get? name = some value) : map.insert name value = map := by
  apply ext_get?
  intro other
  rw [get?_insert]
  split
  · next hname => rw [← hname, h]
  · rfl

theorem get?_erase (map : NameMap α) (name other : String) :
    (map.erase name).get? other = if name = other then none else map.get? other := by
  unfold get? erase
  rw [List.find?_filter]
  split
  · next h =>
      subst h
      simp
  · next h =>
      congr 2
      funext entry
      by_cases hentry : entry.1 = other
      · simp [hentry, Ne.symm h]
      · simp [hentry]

theorem get?_mapValues {β : Type} (f : α → β) (map : NameMap α) (name : String) :
    (map.mapValues f).get? name = (map.get? name).map f := by
  simp [get?, mapValues, List.find?_map, Function.comp_def]

/-- Of several insertions under one name the last counts. -/
theorem get?_foldl_insert (pairs : List (String × α)) (map : NameMap α) (name : String) :
    (pairs.foldl (fun map pair => map.insert pair.1 pair.2) map).get? name =
      ((pairs.reverse.find? fun pair => pair.1 = name).map Prod.snd).or (map.get? name) := by
  induction pairs generalizing map with
  | nil => rfl
  | cons pair rest ih =>
      rw [List.foldl_cons, ih, get?_insert, List.reverse_cons, List.find?_append]
      cases rest.reverse.find? fun pair => pair.1 = name with
      | some found => rfl
      | none => by_cases h : pair.1 = name <;> simp [h]

/-- The last pair of a name counts. -/
theorem get?_ofList (pairs : List (String × α)) (name : String) :
    (ofList pairs).get? name = (pairs.reverse.find? fun pair => pair.1 = name).map Prod.snd := by
  rw [ofList, get?_foldl_insert]
  simp

/-- The values of the second map win. -/
theorem get?_merge (map other : NameMap α) (name : String) :
    (map.merge other).get? name = (other.get? name).or (map.get? name) := by
  rw [merge, get?_foldl_insert]
  congr 1
  -- a name occurs once, so the last entry of a name is the first
  cases h : other.get? name with
  | some value =>
      rw [get?_eq_some_iff] at h
      have hsorted : other.entries.reverse.Pairwise fun a b => b.1 < a.1 := by
        rw [List.pairwise_reverse]
        exact other.sorted
      have hfound : other.entries.reverse.find? (fun entry => entry.1 = name) ≠ none := by
        rw [ne_eq, List.find?_eq_none]
        intro hnone
        exact hnone (name, value) (List.mem_reverse.2 h) (by simp)
      obtain ⟨entry, hentry⟩ := Option.ne_none_iff_exists'.1 hfound
      have hname := List.find?_some hentry
      simp only [decide_eq_true_eq] at hname
      have hmem := List.mem_reverse.1 (List.mem_of_find?_eq_some hentry)
      have hleft := get?_eq_some_iff.2 (hname ▸ hmem : (name, entry.2) ∈ other.entries)
      rw [get?_eq_some_iff.2 h] at hleft
      rw [hentry, Option.map_some, ← hleft]
  | none =>
      rw [get?, Option.map_eq_none_iff, List.find?_eq_none] at h
      rw [Option.map_eq_none_iff, List.find?_eq_none]
      intro entry hentry
      exact h entry (List.mem_reverse.1 hentry)

/-- To overwrite with the same entries again changes nothing. -/
theorem merge_merge (map other : NameMap α) : (map.merge other).merge other = map.merge other := by
  apply ext_get?
  intro name
  rw [get?_merge, get?_merge]
  cases other.get? name <;> rfl

/-! ## Maps of lists -/

/-- Every entry comes from the list. -/
theorem mem_of_mem_ofList {pairs : List (String × α)} {entry : String × α}
    (h : entry ∈ (ofList pairs).entries) : entry ∈ pairs := by
  have hget := get?_eq_some_iff.2 h
  rw [get?_ofList, Option.map_eq_some_iff] at hget
  obtain ⟨found, hfound, hvalue⟩ := hget
  have hname := List.find?_some hfound
  simp only [decide_eq_true_eq] at hname
  rw [← Prod.ext hname hvalue]
  exact List.mem_reverse.1 (List.mem_of_find?_eq_some hfound)

theorem nodup_names (map : NameMap α) : map.names.Nodup := by
  rw [names, List.Nodup, List.pairwise_map]
  refine map.sorted.imp ?_
  intro entry other hlt heq
  rw [heq] at hlt
  exact String.lt_irrefl _ hlt

theorem mem_names_ofList {pairs : List (String × α)} {name : String} :
    name ∈ (ofList pairs).names ↔ name ∈ pairs.map Prod.fst := by
  constructor
  · intro h
    obtain ⟨entry, hentry, rfl⟩ := List.mem_map.1 h
    exact List.mem_map_of_mem (mem_of_mem_ofList hentry)
  · intro h
    obtain ⟨pair, hpair, rfl⟩ := List.mem_map.1 h
    cases hget : (ofList pairs).get? pair.1 with
    | some value => exact List.mem_map.2 ⟨(pair.1, value), get?_eq_some_iff.1 hget, rfl⟩
    | none =>
        rw [get?_ofList, Option.map_eq_none_iff, List.find?_eq_none] at hget
        exact absurd (decide_eq_true rfl) (hget pair (List.mem_reverse.2 hpair))

/-- The names of a list in which no name occurs twice are put in order. -/
theorem names_ofList_perm {pairs : List (String × α)} (h : (pairs.map Prod.fst).Nodup) :
    (ofList pairs).names.Perm (pairs.map Prod.fst) :=
  (List.perm_ext_iff_of_nodup (nodup_names _) h).2 fun _ => mem_names_ofList

/-- Where no name occurs twice, a name has the value that it has in the list. -/
theorem get?_ofList_eq_some_iff {pairs : List (String × α)} (h : (pairs.map Prod.fst).Nodup)
    {name : String} {value : α} : (ofList pairs).get? name = some value ↔ (name, value) ∈ pairs := by
  constructor
  · intro hget
    exact mem_of_mem_ofList (get?_eq_some_iff.1 hget)
  · intro hmem
    obtain ⟨⟨_, other⟩, hentry, rfl⟩ := List.mem_map.1 (mem_names_ofList.2 (List.mem_map_of_mem hmem))
    obtain ⟨i, hi, hleft⟩ := List.getElem_of_mem (mem_of_mem_ofList hentry)
    obtain ⟨j, hj, hright⟩ := List.getElem_of_mem hmem
    have hleftPlace : i < (pairs.map Prod.fst).length := by simpa using hi
    have hrightPlace : j < (pairs.map Prod.fst).length := by simpa using hj
    have hnames : (pairs.map Prod.fst)[i] = (pairs.map Prod.fst)[j] := by simp [hleft, hright]
    obtain rfl : i = j := (List.getElem_inj h).1 hnames
    rw [hleft] at hright
    cases hright
    exact get?_eq_some_iff.2 hentry

/-- A map is that of its own entries. -/
theorem ofList_entries (map : NameMap α) : ofList map.entries = map := by
  apply ext_get?
  intro name
  ext value
  rw [get?_ofList_eq_some_iff (nodup_names map), get?_eq_some_iff]

theorem isEmpty_iff {map : NameMap α} : map.isEmpty = true ↔ map = .empty := by
  constructor
  · intro h
    apply ext
    exact List.isEmpty_iff.1 h
  · rintro rfl
    rfl

/-! ## Changing the values -/

theorem names_mapValues {β : Type} (f : α → β) (map : NameMap α) : (map.mapValues f).names = map.names := by
  simp [names, mapValues]

theorem size_mapValues {β : Type} (f : α → β) (map : NameMap α) : (map.mapValues f).size = map.size := by
  simp [size, mapValues]

theorem isEmpty_mapValues {β : Type} (f : α → β) (map : NameMap α) :
    (map.mapValues f).isEmpty = map.isEmpty := by
  simp [isEmpty, mapValues]

theorem mapValues_insert {β : Type} (f : α → β) (map : NameMap α) (name : String) (value : α) :
    (map.insert name value).mapValues f = (map.mapValues f).insert name (f value) := by
  apply ext_get?
  intro other
  rw [get?_mapValues, get?_insert, get?_insert, get?_mapValues]
  split <;> rfl

/-- Changing the values of a list of pairs changes those of its map. -/
theorem mapValues_ofList {β : Type} (f : α → β) (pairs : List (String × α)) :
    (ofList pairs).mapValues f = ofList (pairs.map fun pair => (pair.1, f pair.2)) := by
  have hfold : ∀ map : NameMap α,
      (pairs.foldl (fun map pair => map.insert pair.1 pair.2) map).mapValues f =
        (pairs.map fun pair => (pair.1, f pair.2)).foldl
          (fun map pair => map.insert pair.1 pair.2) (map.mapValues f) := by
    induction pairs with
    | nil => intro map; rfl
    | cons pair rest ih =>
        intro map
        rw [List.foldl_cons, ih, mapValues_insert]
        rfl
  exact hfold empty

end ClosedSql.NameMap
