import ClosedSql.Proofs.Number.Order
import ClosedSql.Proofs.Value.Comparison

/-!
# Comparing three values

Two texts compare by their characters and two integers exactly, but beside a number both count as
floating-point numbers. So three values that compare with each other are in order, unless two of
them are texts and the third a number that lies between them the other way about, or two of them are
different integers that are rounded to the third.
-/

namespace ClosedSql

open Number

namespace Value

def Comparable (a b : Value) : Prop :=
  ∃ order, a.compare? b = some order

instance (a b : Value) : Decidable (Comparable a b) :=
  decidable_of_iff _ Option.isSome_iff_exists

/-- The first value compares as less than the second or as equal to it. -/
def AtMost (a b : Value) : Prop :=
  a.compare? b = some .lt ∨ a.compare? b = some .eq

instance (a b : Value) : Decidable (AtMost a b) :=
  inferInstanceAs (Decidable (_ ∨ _))

/-- From the first value over the second to the third it goes up, and it stays level only if it does
so twice. -/
def Ascends (a b c : Value) : Prop :=
  a.AtMost b → b.AtMost c →
    a.AtMost c ∧ (a.compare? c = some .eq → a.compare? b = some .eq ∧ b.compare? c = some .eq)

instance (a b c : Value) : Decidable (Ascends a b c) :=
  inferInstanceAs (Decidable (_ → _ → _ ∧ (_ → _ ∧ _)))

/-- Two values that compare by themselves are parted by a third, which is of another kind. -/
inductive Parted : Value → Value → Value → Prop
  /-- The third equals two integers that differ. -/
  | integers {m n : Int64} {r : Value} (differ : m ≠ n) (left : r.compare? (int m) = some .eq)
      (right : r.compare? (int n) = some .eq) : Parted (int m) (int n) r
  /-- The third is no text and lies between two texts the other way about. -/
  | texts {s t : String} {r : Value} (lt : s < t) (number : ∀ u, r ≠ text u)
      (above : (text t).AtMost r) (below : r.AtMost (text s)) : Parted (text s) (text t) r

/-- One of three values parts the two others. -/
def SomeParted (values : List Value) : Prop :=
  ∃ p q r, [p, q, r].Perm values ∧ Parted p q r

/-! ## How two values compare -/

def whole? : Value → Option Int
  | bool b => some (ofBit b).toInt
  | int n => some n.toInt
  | null | float _ | text _ => none

/-- Where a value lies beside a number, in units. -/
def place? : Value → Option Int
  | bool b => some (Binary64.roundedPlace (ofBit b).toInt)
  | int n => some (Binary64.roundedPlace n.toInt)
  | float x => x.extent
  | text s => (text s).toFloat?.bind Binary64.extent
  | null => none

def IsText (value : Value) : Prop :=
  ∃ s, value = text s

/-- In which of three ways two values compare. -/
inductive Compared (a b : Value) (order : Ordering) : Prop
  | texts {s t : String} (left : a = text s) (right : b = text t) (result : order = compare s t)
  | wholes {m n : Int} (left : a.whole? = some m) (right : b.whole? = some n)
      (result : order = compare m n)
  | places {x y : Int} (unlike : ¬(a.IsText ∧ b.IsText))
      (uneven : a.whole? = none ∨ b.whole? = none) (left : a.place? = some x)
      (right : b.place? = some y) (result : order = compare x y)

theorem not_isText_of_whole? {value : Value} {n : Int} (h : value.whole? = some n) :
    ¬value.IsText := by
  rintro ⟨s, rfl⟩
  cases h

/-- An integer lies beside a number where rounding puts it. -/
theorem place?_of_whole? {value : Value} {n : Int} (h : value.whole? = some n) :
    value.place? = some (Binary64.roundedPlace n) := by
  cases value with
  | null | float _ | text _ => cases h
  | bool _ | int _ =>
      obtain rfl := Option.some.inj h
      rfl

theorem natAbs_toInt_lt (n : Int64) : n.toInt.natAbs < twoTo 64 := by
  have hbound : twoTo 64 = 18446744073709551616 := by decide
  have hlow := n.le_toInt
  have hhigh := n.toInt_lt
  omega

theorem place?_int (n : Int64) : (int n).place? = (int n).toFloat?.bind Binary64.extent := by
  rw [toFloat?, Option.bind_some, Binary64.extent_ofInt_eq (natAbs_toInt_lt n), place?]

theorem place?_bool (b : Bool) :
    (bool b).place? = (int (ofBit b)).toFloat?.bind Binary64.extent := by
  rw [← place?_int, place?, place?]

theorem place?_float (x : Binary64) : (float x).place? = (float x).toFloat?.bind Binary64.extent :=
  rfl

theorem place?_text (s : String) : (text s).place? = (text s).toFloat?.bind Binary64.extent :=
  rfl

/-- Values that are compared as floating-point numbers are compared by their places. -/
theorem Compared.of_floats {a b u v : Value} {order : Ordering} (unlike : ¬(a.IsText ∧ b.IsText))
    (uneven : a.whole? = none ∨ b.whole? = none) (left : a.place? = u.toFloat?.bind Binary64.extent)
    (right : b.place? = v.toFloat?.bind Binary64.extent)
    (h : u.compareAsFloats? v = some order) : Compared a b order := by
  rw [compareAsFloats?] at h
  split at h
  · next x y hx hy =>
      rw [hx, Option.bind_some] at left
      rw [hy, Option.bind_some] at right
      rw [Binary64.compare?] at h
      split at h
      · next i j hi hj =>
          exact .places unlike uneven (left.trans hi) (right.trans hj) (Option.some.inj h).symm
      · cases h
  · cases h

/-- Two values that compare do so in one of three ways. -/
theorem compared {a b : Value} {order : Ordering} (h : a.compare? b = some order) :
    Compared a b order := by
  have hleft {p q : Value} (h : ∀ s, p ≠ text s) : ¬(p.IsText ∧ q.IsText) :=
    fun ⟨⟨s, hs⟩, _⟩ => h s hs
  have hright {p q : Value} (h : ∀ s, q ≠ text s) : ¬(p.IsText ∧ q.IsText) :=
    fun ⟨_, s, hs⟩ => h s hs
  cases a with
  | null => cases h
  | bool x =>
      cases b with
      | null | text _ => cases h
      | bool y =>
          refine .wholes rfl rfl ((Option.some.inj h).symm.trans ?_)
          cases x <;> cases y <;> rfl
      | int n => exact .wholes rfl rfl (Option.some.inj h).symm
      | float y => exact .of_floats (hleft nofun) (.inr rfl) (place?_bool x) (place?_float y) h
  | int m =>
      cases b with
      | null => cases h
      | bool y => exact .wholes rfl rfl (Option.some.inj h).symm
      | int n => exact .wholes rfl rfl (Option.some.inj h).symm
      | float y => exact .of_floats (hleft nofun) (.inr rfl) (place?_int m) (place?_float y) h
      | text t => exact .of_floats (hleft nofun) (.inr rfl) (place?_int m) (place?_text t) h
  | float x =>
      cases b with
      | null => cases h
      | bool y => exact .of_floats (hleft nofun) (.inl rfl) (place?_float x) (place?_bool y) h
      | int n => exact .of_floats (hleft nofun) (.inl rfl) (place?_float x) (place?_int n) h
      | float y => exact .of_floats (hleft nofun) (.inl rfl) (place?_float x) (place?_float y) h
      | text t => exact .of_floats (hleft nofun) (.inl rfl) (place?_float x) (place?_text t) h
  | text s =>
      cases b with
      | null => cases h
      | bool y =>
          -- a truth value is not read as a number beside a text
          rw [← swap_compare?] at h
          cases h
      | int n => exact .of_floats (hright nofun) (.inl rfl) (place?_text s) (place?_int n) h
      | float y => exact .of_floats (hright nofun) (.inl rfl) (place?_text s) (place?_float y) h
      | text t => exact .texts rfl rfl (Option.some.inj h).symm

/-! ## Going round -/

variable {p q r : Value}

theorem AtMost.exists_isLE (h : p.AtMost q) :
    ∃ order, p.compare? q = some order ∧ order.isLE = true := by
  rcases h with h | h
  · exact ⟨_, h, rfl⟩
  · exact ⟨_, h, rfl⟩

/-- A value that is no greater lies no further, unless the two are texts. -/
theorem AtMost.exists_places (h : p.AtMost q) (unlike : ¬(p.IsText ∧ q.IsText)) :
    ∃ x y, p.place? = some x ∧ q.place? = some y ∧ x ≤ y := by
  obtain ⟨order, horder, hle⟩ := h.exists_isLE
  cases compared horder with
  | texts left right => exact absurd ⟨⟨_, left⟩, ⟨_, right⟩⟩ unlike
  | wholes left right result =>
      rw [result, Std.isLE_compare] at hle
      exact ⟨_, _, place?_of_whole? left, place?_of_whole? right, Binary64.roundedPlace_mono hle⟩
  | places _ _ left right result =>
      rw [result, Std.isLE_compare] at hle
      exact ⟨_, _, left, right, hle⟩

/-- A value at most as large as a number lies at most as far. -/
theorem AtMost.exists_place_left (h : p.AtMost q) (unlike : ¬(p.IsText ∧ q.IsText)) {y : Int}
    (hy : q.place? = some y) : ∃ x, p.place? = some x ∧ x ≤ y := by
  obtain ⟨x, z, hx, hz, hle⟩ := h.exists_places unlike
  rw [hz, Option.some.injEq] at hy
  exact ⟨x, hx, hy ▸ hle⟩

theorem AtMost.exists_place_right (h : p.AtMost q) (unlike : ¬(p.IsText ∧ q.IsText)) {x : Int}
    (hx : p.place? = some x) : ∃ y, q.place? = some y ∧ x ≤ y := by
  obtain ⟨z, y, hz, hy, hle⟩ := h.exists_places unlike
  rw [hz, Option.some.injEq] at hx
  exact ⟨y, hy, hx ▸ hle⟩

/-- Of two integers that compare the smaller one is the smaller integer. -/
theorem AtMost.whole_le (h : p.AtMost q) {m n : Int} (hm : p.whole? = some m)
    (hn : q.whole? = some n) : m ≤ n := by
  obtain ⟨order, horder, hle⟩ := h.exists_isLE
  cases compared horder with
  | texts left right => exact absurd ⟨_, left⟩ (not_isText_of_whole? hm)
  | wholes left right result =>
      rw [result, Std.isLE_compare] at hle
      rw [left, Option.some.injEq] at hm
      rw [right, Option.some.injEq] at hn
      rwa [← hm, ← hn]
  | places _ uneven =>
      rw [hm, hn] at uneven
      rcases uneven with h | h <;> cases h

theorem AtMost.text_le {s t : String} (h : (text s).AtMost (text t)) : s ≤ t := by
  rcases h with h | h
  · exact Std.le_of_lt (compareOfLessAndEq_eq_lt.1 (Option.some.inj h))
  · exact Std.le_of_eq (Std.compare_eq_iff_eq.1 (Option.some.inj h))

/-- Values at one place are equal, unless they are two integers or two texts. -/
theorem AtMost.eq_of_place_eq (h : p.AtMost q) (unlike : ¬(p.IsText ∧ q.IsText))
    (uneven : p.whole? = none ∨ q.whole? = none) (hplace : p.place? = q.place?) :
    p.compare? q = some .eq := by
  obtain ⟨order, horder, -⟩ := h.exists_isLE
  cases compared horder with
  | texts left right => exact absurd ⟨⟨_, left⟩, ⟨_, right⟩⟩ unlike
  | wholes left right =>
      rw [left, right] at uneven
      rcases uneven with h | h <;> cases h
  | places _ _ left right result =>
      rw [left, right, Option.some.injEq] at hplace
      rw [horder, result, hplace, Std.compare_self]

theorem compare?_eq_comm (h : p.compare? q = some .eq) : q.compare? p = some .eq := by
  rw [← swap_compare?, h]
  rfl

/-- An integer other than zero and one is no truth value. -/
theorem exists_int_of_whole? {value : Value} {n : Int} (h : value.whole? = some n)
    (hbit : n ∉ [0, 1]) : ∃ m, value = int m ∧ m.toInt = n := by
  cases value with
  | null | float _ | text _ => cases h
  | bool b =>
      obtain rfl := Option.some.inj h
      exact absurd (by cases b <;> decide) hbit
  | int m => exact ⟨m, rfl, Option.some.inj h⟩

/-- No integer leads from the greater of two integers to the smaller one. -/
theorem whole?_eq_none_of_lt {m n : Int} (left : p.whole? = some m) (right : q.whole? = some n)
    (hlt : m < n) (hqr : q.AtMost r) (hrp : r.AtMost p) : r.whole? = none := by
  cases hr : r.whole? with
  | none => rfl
  | some k =>
      have hfirst := hqr.whole_le right hr
      have hlast := hrp.whole_le hr left
      omega

/-- What leads from the greater of two integers to the smaller one lies at the place that both are
rounded to. -/
theorem place?_eq_of_lt {m n : Int} (left : p.whole? = some m) (right : q.whole? = some n)
    (hlt : m < n) (hqr : q.AtMost r) (hrp : r.AtMost p) :
    r.place? = p.place? ∧ Binary64.roundedPlace m = Binary64.roundedPlace n := by
  have hp := place?_of_whole? left
  have hq := place?_of_whole? right
  obtain ⟨z, hz, hle⟩ := hrp.exists_place_left (fun h => not_isText_of_whole? left h.2) hp
  obtain ⟨z', hz', hge⟩ := hqr.exists_place_right (fun h => not_isText_of_whole? right h.1) hq
  have hmono := Binary64.roundedPlace_mono (Int.le_of_lt hlt)
  rw [hz, Option.some.injEq] at hz'
  rw [hz, hp, Option.some.injEq]
  omega

/-- Two integers that differ are parted by what leads from the greater one to the smaller one. -/
theorem parted_of_wholes {m n : Int} (left : p.whole? = some m) (right : q.whole? = some n)
    (hlt : m < n) (hqr : q.AtMost r) (hrp : r.AtMost p) : Parted p q r := by
  have hthird := whole?_eq_none_of_lt left right hlt hqr hrp
  obtain ⟨hplace, hsame⟩ := place?_eq_of_lt left right hlt hqr hrp
  have hplace' : q.place? = r.place? := by
    rw [hplace, place?_of_whole? left, place?_of_whole? right, hsame]
  have hfirst := hrp.eq_of_place_eq (fun h => not_isText_of_whole? left h.2) (.inl hthird) hplace
  have hlast := hqr.eq_of_place_eq (fun h => not_isText_of_whole? right h.1) (.inr hthird) hplace'
  -- the integer of a truth value would keep its place
  have hbits : ¬(m ∈ [0, 1] ∨ n ∈ [0, 1]) := fun h =>
    Int.ne_of_lt (Binary64.roundedPlace_lt hlt h) hsame
  rw [not_or] at hbits
  obtain ⟨i, rfl, rfl⟩ := exists_int_of_whole? left hbits.1
  obtain ⟨j, rfl, rfl⟩ := exists_int_of_whole? right hbits.2
  refine .integers (fun h => ?_) hfirst (compare?_eq_comm hlast)
  rw [h] at hlt
  exact Int.lt_irrefl _ hlt

/-- Of two texts at different places, the one that is no greater is smaller. -/
theorem AtMost.text_lt {s t : String} (h : (text s).AtMost (text t)) {x y : Int} (hne : x ≠ y)
    (hx : (text s).place? = some x) (hy : (text t).place? = some y) : s < t := by
  refine Std.lt_of_le_of_ne h.text_le fun heq => hne ?_
  rw [heq, hy, Option.some.injEq] at hx
  exact hx.symm

/-- What leads from a further place to one less far are two texts. -/
theorem someParted_of_places {x y : Int} (hp : p.place? = some x) (hq : q.place? = some y)
    (hlt : x < y) (unlike : ¬(p.IsText ∧ q.IsText)) (hpq : p.AtMost q) (hqr : q.AtMost r)
    (hrp : r.AtMost p) : SomeParted [p, q, r] := by
  by_cases hlast : r.IsText ∧ p.IsText
  · obtain ⟨⟨s, rfl⟩, ⟨t, rfl⟩⟩ := hlast
    have hnumber : ∀ u, q ≠ text u := fun u h => unlike ⟨⟨t, rfl⟩, ⟨u, h⟩⟩
    obtain ⟨z, hz, hle⟩ := hqr.exists_place_right (fun ⟨⟨u, h⟩, _⟩ => hnumber u h) hq
    have hst : s < t := hrp.text_lt (by omega) hz hp
    have hperm : [text s, text t, q].Perm [text t, q, text s] :=
      (List.perm_append_singleton (text s) [text t, q]).symm
    exact ⟨_, _, _, hperm, .texts hst hnumber hpq hqr⟩
  · obtain ⟨z, hz, hzx⟩ := hrp.exists_place_left hlast hp
    by_cases hfirst : q.IsText ∧ r.IsText
    · obtain ⟨⟨s, rfl⟩, ⟨t, rfl⟩⟩ := hfirst
      have hnumber : ∀ u, p ≠ text u := fun u h => unlike ⟨⟨u, h⟩, ⟨s, rfl⟩⟩
      have hst : s < t := hqr.text_lt (by omega) hq hz
      have hperm : [text s, text t, p].Perm [p, text s, text t] :=
        List.perm_append_singleton p [text s, text t]
      exact ⟨_, _, _, hperm, .texts hst hnumber hrp hpq⟩
    · obtain ⟨z', hz', hyz⟩ := hqr.exists_place_right hfirst hq
      rw [hz, Option.some.injEq] at hz'
      omega

/-- Where it goes up from the first of three values and back to it, and not all are equal, one of
them parts the others. -/
theorem someParted_of_lt (hpq : p.compare? q = some .lt) (hqr : q.AtMost r) (hrp : r.AtMost p) :
    SomeParted [p, q, r] := by
  cases compared hpq with
  | @texts s t left right result =>
      subst left right
      have hlt : s < t := compareOfLessAndEq_eq_lt.1 result.symm
      refine ⟨_, _, _, .refl _, .texts hlt ?_ hqr hrp⟩
      rintro u rfl
      exact Std.not_lt_of_ge (Std.le_trans hqr.text_le hrp.text_le) hlt
  | wholes left right result =>
      have hlt := Std.compare_eq_lt.1 result.symm
      exact ⟨_, _, _, .refl _, parted_of_wholes left right hlt hqr hrp⟩
  | places unlike _ hp hq result =>
      exact someParted_of_places hp hq (Std.compare_eq_lt.1 result.symm) unlike (.inl hpq) hqr hrp

/-! ## Three values -/

variable {a b c : Value}

theorem Comparable.symm (h : a.Comparable b) : b.Comparable a := by
  obtain ⟨order, h⟩ := h
  exact ⟨order.swap, by rw [← swap_compare?, h]; rfl⟩

/-- Of two values that compare, one is at most the other. -/
theorem Comparable.atMost (h : a.Comparable c) : a.AtMost c ∨ c.AtMost a := by
  obtain ⟨order, h⟩ := h
  cases order with
  | lt => exact .inl (.inl h)
  | eq => exact .inl (.inr h)
  | gt =>
      refine .inr (.inl ?_)
      rw [← swap_compare?, h]
      rfl

/-- The value that parts two others breaks the order where it stands between them. -/
theorem Parted.not_ascends (h : Parted p q r) :
    ∃ x y z, [x, y, z].Perm [p, q, r] ∧ ¬Ascends x y z := by
  cases h with
  | @integers m n r differ left right =>
      have hne : m.toInt ≠ n.toInt := fun h => differ (Int64.toInt_inj.1 h)
      rcases Int.lt_or_gt_of_ne hne with hlt | hgt
      · have hperm : [int n, r, int m].Perm [int m, int n, r] :=
          List.perm_append_singleton (int m) [int n, r]
        refine ⟨int n, r, int m, hperm, fun hup => ?_⟩
        have hle := (hup (.inr (compare?_eq_comm right)) (.inr left)).1.whole_le rfl rfl
        omega
      · refine ⟨int m, r, int n, .cons _ (.swap ..), fun hup => ?_⟩
        have hle := (hup (.inr (compare?_eq_comm left)) (.inr right)).1.whole_le rfl rfl
        omega
  | @texts s t r lt number above below =>
      have hperm : [text t, r, text s].Perm [text s, text t, r] :=
        List.perm_append_singleton (text s) [text t, r]
      refine ⟨text t, r, text s, hperm, fun hup => ?_⟩
      exact Std.not_lt_of_ge (hup above below).1.text_le lt

/-- Whether some value parts the others does not depend on their order. -/
theorem SomeParted.perm {values others : List Value} (h : SomeParted values)
    (hperm : values.Perm others) : SomeParted others := by
  obtain ⟨p, q, r, hvalues, hparted⟩ := h
  exact ⟨p, q, r, hvalues.trans hperm, hparted⟩

/-- Whoever comes back to the first value has stayed level, if none parts the others. -/
theorem compare?_eq_of_not_someParted (hnot : ¬SomeParted [a, b, c]) (hab : a.AtMost b)
    (hbc : b.AtMost c) (hca : c.AtMost a) : a.compare? b = some .eq := by
  rcases hab with hlt | heq
  · exact absurd (someParted_of_lt hlt hbc hca) hnot
  · exact heq

/-- Three values of which none parts the others ascend. -/
theorem ascends_of_not_someParted (h : [a, b, c].Pairwise Comparable)
    (hnot : ¬SomeParted [a, b, c]) : Ascends a b c := by
  intro hab hbc
  have hround : [b, c, a].Perm [a, b, c] := List.perm_append_singleton a [b, c]
  have hround' : [c, a, b].Perm [a, b, c] := (List.perm_append_singleton c [a, b]).symm
  have hac : a.Comparable c := List.rel_of_pairwise_cons h (.tail _ (.head _))
  by_cases hca : c.AtMost a
  · have hfirst := compare?_eq_of_not_someParted hnot hab hbc hca
    have hsecond := compare?_eq_of_not_someParted (fun h => hnot (h.perm hround)) hbc hca hab
    have hthird := compare?_eq_of_not_someParted (fun h => hnot (h.perm hround')) hca hab hbc
    exact ⟨.inr (compare?_eq_comm hthird), fun _ => ⟨hfirst, hsecond⟩⟩
  · exact ⟨hac.atMost.resolve_right hca, fun heq => absurd (.inr (compare?_eq_comm heq)) hca⟩

/-- Among values of which none parts two others, comparison is transitive. -/
theorem AtMost.trans {values : List Value}
    (hcomparable : ∀ x ∈ values, ∀ y ∈ values, x.Comparable y)
    (hparted : ∀ x ∈ values, ∀ y ∈ values, ∀ z ∈ values, ¬Parted x y z) (ha : a ∈ values)
    (hb : b ∈ values) (hc : c ∈ values) (hab : a.AtMost b) (hbc : b.AtMost c) : a.AtMost c := by
  have hpairs : [a, b, c].Pairwise Comparable := by
    simp [hcomparable a ha b hb, hcomparable a ha c hc, hcomparable b hb c hc]
  have hmem : ∀ v ∈ [a, b, c], v ∈ values := by
    simp [ha, hb, hc]
  refine (ascends_of_not_someParted hpairs ?_ hab hbc).1
  rintro ⟨p, q, r, hperm, hpqr⟩
  have hin : ∀ v ∈ [p, q, r], v ∈ values := fun v hv => hmem v (hperm.mem_iff.1 hv)
  exact hparted p (hin p (by simp)) q (hin q (by simp)) r (hin r (by simp)) hpqr

/-- Three values that compare with each other are in order, whichever of them comes first, if and
only if none of them parts the others. -/
theorem ascends_iff (h : [a, b, c].Pairwise Comparable) :
    (∀ x y z, [x, y, z].Perm [a, b, c] → Ascends x y z) ↔ ¬SomeParted [a, b, c] := by
  constructor
  · rintro hup ⟨p, q, r, hperm, hparted⟩
    obtain ⟨x, y, z, hperm', hnot⟩ := hparted.not_ascends
    exact hnot (hup x y z (hperm'.trans hperm))
  · intro hnot x y z hperm
    exact ascends_of_not_someParted ((hperm.pairwise_iff Comparable.symm).2 h)
      fun h => hnot (h.perm hperm)

theorem ascends_iff_mixed :
    [text "9", int 9, text "95"].Pairwise Comparable ∧
      ((∀ x y z, [x, y, z].Perm [text "9", int 9, text "95"] → Ascends x y z) ↔
        ¬SomeParted [text "9", int 9, text "95"]) :=
  have hcomparable : [text "9", int 9, text "95"].Pairwise Comparable := by decide +kernel
  ⟨hcomparable, ascends_iff hcomparable⟩

/-- Nine lies between two texts, of which the smaller one is read as the greater number, and a float
is what two integers are rounded to. -/
theorem not_ascends_textsAndIntegers :
    ([text "10", text "9", int 9].Pairwise Comparable ∧
        ¬Ascends (text "10") (text "9") (int 9)) ∧
      [int 9007199254740993, float (.ofInt 9007199254740992), int 9007199254740992].Pairwise
          Comparable ∧
        ¬Ascends (int 9007199254740993) (float (.ofInt 9007199254740992))
          (int 9007199254740992) := by
  decide +kernel

end Value

end ClosedSql
