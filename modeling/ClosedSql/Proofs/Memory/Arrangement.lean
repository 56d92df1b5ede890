import ClosedSql.Memory
import ClosedSql.Proofs.Value.Transitivity

/-!
# Rows in order

Where the comparison by a column is transitive on some rows, there is one way and no other to bring
these rows in order and to leave those that tie as they stood. Sorting finds it, in both directions.
-/

namespace ClosedSql.Table

/-- The comparison by a column is a total preorder on some rows. As it is total on all rows, nothing
is asked for but that it is transitive. -/
def Preordered (column : String) (rows : List Record) : Prop :=
  ∀ a ∈ rows, ∀ b ∈ rows, ∀ c ∈ rows, compareBy ⟨column, true⟩ a b ≠ .gt →
    compareBy ⟨column, true⟩ b c ≠ .gt → compareBy ⟨column, true⟩ a c ≠ .gt

instance (column : String) (rows : List Record) : Decidable (Preordered column rows) :=
  inferInstanceAs (Decidable (∀ a ∈ rows, ∀ b ∈ rows, ∀ c ∈ rows,
    compareBy ⟨column, true⟩ a b ≠ .gt → compareBy ⟨column, true⟩ b c ≠ .gt →
      compareBy ⟨column, true⟩ a c ≠ .gt))

/-- Whether two rows tie; the direction of an order has no say in that. -/
def ties (column : String) (a b : Record) : Bool :=
  compareBy ⟨column, true⟩ a b == .eq

/-- Some rows as an order arranges them. -/
structure Arranged (order : OrderBy) (rows arranged : List Record) : Prop where
  /-- They are the same rows, each as often as before. -/
  same : arranged.Perm rows
  /-- No row stands after a greater one or, in a descending order, after a smaller one. -/
  ordered : arranged.Pairwise fun a b =>
    compareBy ⟨order.column, true⟩ a b ≠ if order.ascending then .gt else .lt
  /-- Rows that tie stand among themselves as they stood. -/
  stable : ∀ row ∈ rows,
    arranged.filter (ties order.column row) = rows.filter (ties order.column row)

/-- Some rows as they are answered: in the order asked for, and as they stand if none is. -/
inductive InOrder (rows : List Record) : Option OrderBy → List Record → Prop
  | unsorted : InOrder rows none rows
  | sorted {order : OrderBy} {arranged : List Record} (arranges : Arranged order rows arranged) :
      InOrder rows (some order) arranged

/-! ## Comparing rows -/

/-- The comparison of two rows in the other order is the reverse. -/
theorem swap_compareBy (order : OrderBy) (a b : Record) :
    (compareBy order a b).swap = compareBy order b a := by
  have hascending : ∀ column,
      (compareBy ⟨column, true⟩ a b).swap = compareBy ⟨column, true⟩ b a := by
    intro column
    simp only [compareBy, if_true]
    cases a.get? column with
    | none => cases b.get? column <;> rfl
    | some x =>
        cases b.get? column with
        | none => rfl
        | some y =>
            simp only [← x.swap_compare? y]
            cases x.compare? y <;> rfl
  obtain ⟨column, ascending⟩ := order
  cases ascending with
  | true => exact hascending column
  | false => exact congrArg Ordering.swap (hascending column)

theorem compareBy_ne_gt_iff {order : OrderBy} {a b : Record} :
    compareBy order a b ≠ .gt ↔
      compareBy ⟨order.column, true⟩ a b ≠ if order.ascending then .gt else .lt := by
  obtain ⟨column, ascending⟩ := order
  cases ascending with
  | true => exact Iff.rfl
  | false =>
      change (compareBy ⟨column, true⟩ a b).swap ≠ .gt ↔ compareBy ⟨column, true⟩ a b ≠ .lt
      cases compareBy ⟨column, true⟩ a b <;> decide

/-- Two rows tie in either direction of an order. -/
theorem ties_iff {order : OrderBy} {a b : Record} :
    ties order.column a b = true ↔ compareBy order a b = .eq := by
  obtain ⟨column, ascending⟩ := order
  rw [ties, beq_iff_eq]
  cases ascending with
  | true => exact Iff.rfl
  | false =>
      change compareBy ⟨column, true⟩ a b = .eq ↔ (compareBy ⟨column, true⟩ a b).swap = .eq
      cases compareBy ⟨column, true⟩ a b <;> decide

/-- Rows of which neither comes after the other tie. -/
theorem ties_of_ne_gt {order : OrderBy} {a b : Record} (hab : compareBy order a b ≠ .gt)
    (hba : compareBy order b a ≠ .gt) : ties order.column a b = true := by
  rw [ties_iff]
  rw [← swap_compareBy] at hba
  cases h : compareBy order a b with
  | eq => rfl
  | gt => exact absurd h hab
  | lt =>
      rw [h] at hba
      exact absurd rfl hba

theorem ties_self (column : String) (row : Record) : ties column row row = true := by
  have hswap := swap_compareBy ⟨column, true⟩ row row
  rw [ties, beq_iff_eq]
  cases h : compareBy ⟨column, true⟩ row row with
  | eq => rfl
  | lt | gt =>
      rw [h] at hswap
      cases hswap

variable {order : OrderBy} {rows : List Record}

/-! ## The only arrangement -/

/-- Rows in order are told by how those that tie stand among themselves. -/
theorem eq_of_ties {left right : List Record} (hperm : left.Perm right)
    (hleft : left.Pairwise fun a b => compareBy order a b ≠ .gt)
    (hright : right.Pairwise fun a b => compareBy order a b ≠ .gt)
    (hties : ∀ row ∈ left,
      left.filter (ties order.column row) = right.filter (ties order.column row)) :
    left = right := by
  induction left generalizing right with
  | nil => exact hperm.nil_eq
  | cons a left ih =>
      cases right with
      | nil => exact absurd hperm.eq_nil (List.cons_ne_nil a left)
      | cons b right =>
          rw [List.pairwise_cons] at hleft hright
          -- neither of the two first rows comes after the other, so they tie, and each is the
          -- first of the rows that tie with it
          have hself := ties_self order.column a
          have htie : ties order.column a b = true := by
            rcases List.mem_cons.1 (hperm.mem_iff.1 List.mem_cons_self) with rfl | ha
            · exact hself
            · rcases List.mem_cons.1 (hperm.mem_iff.2 List.mem_cons_self) with rfl | hb
              · exact hself
              · exact ties_of_ne_gt (hleft.1 b hb) (hright.1 a ha)
          have hfirst := hties a List.mem_cons_self
          rw [List.filter_cons_of_pos hself, List.filter_cons_of_pos htie] at hfirst
          obtain rfl : a = b := (List.cons.inj hfirst).1
          refine congrArg (a :: ·) (ih hperm.cons_inv hleft.2 hright.2 ?_)
          intro row hrow
          have hrest := hties row (List.mem_cons_of_mem a hrow)
          rw [List.filter_cons, List.filter_cons] at hrest
          split at hrest
          · exact (List.cons.inj hrest).2
          · exact hrest

/-- There is at most one way to arrange rows stably. -/
theorem Arranged.eq {arranged other : List Record} (h : Arranged order rows arranged)
    (hother : Arranged order rows other) : other = arranged := by
  refine eq_of_ties (hother.same.trans h.same.symm)
    (hother.ordered.imp compareBy_ne_gt_iff.2) (h.ordered.imp compareBy_ne_gt_iff.2) ?_
  intro row hrow
  have hmem := hother.same.mem_iff.1 hrow
  rw [hother.stable row hmem, h.stable row hmem]

/-! ## Sorting -/

/-- In either direction the comparison is transitive. -/
theorem Preordered.trans (h : Preordered order.column rows) {a b c : Record} (ha : a ∈ rows)
    (hb : b ∈ rows) (hc : c ∈ rows) (hab : compareBy order a b ≠ .gt)
    (hbc : compareBy order b c ≠ .gt) : compareBy order a c ≠ .gt := by
  obtain ⟨column, ascending⟩ := order
  cases ascending with
  | true => exact h a ha b hb c hc hab hbc
  | false =>
      have hreverse : ∀ x y, compareBy ⟨column, false⟩ x y = compareBy ⟨column, true⟩ y x :=
        fun x y => swap_compareBy ⟨column, true⟩ x y
      rw [hreverse] at hab hbc ⊢
      exact h c hc b hb a ha hbc hab

/-- Sorting keeps the order of rows that are in order already. -/
structure Sorts (order : OrderBy) (rows sorted : List Record) : Prop where
  pairwise : sorted.Pairwise fun a b => compareBy order a b ≠ .gt
  sublist : ∀ {part : List Record}, part.Sublist rows →
    part.Pairwise (fun a b => compareBy order a b ≠ .gt) → part.Sublist sorted

/-- The comparison is a preorder of the members of a list only, so it is them that are sorted. -/
theorem Preordered.sorts (h : Preordered order.column rows) :
    Sorts order rows (sort rows (some order)) := by
  have htrans : ∀ a b c : { row // row ∈ rows }, (compareBy order a.1 b.1 != .gt) = true →
      (compareBy order b.1 c.1 != .gt) = true → (compareBy order a.1 c.1 != .gt) = true := by
    intro a b c
    rw [bne_iff_ne, bne_iff_ne, bne_iff_ne]
    exact h.trans a.2 b.2 c.2
  have htotal : ∀ a b : { row // row ∈ rows },
      ((compareBy order a.1 b.1 != .gt) || (compareBy order b.1 a.1 != .gt)) = true := by
    intro a b
    rw [← swap_compareBy order a.1 b.1]
    cases compareBy order a.1 b.1 <;> rfl
  have hmembers : sort rows (some order) =
      (rows.attach.mergeSort fun a b => compareBy order a.1 b.1 != .gt).map Subtype.val := by
    rw [List.map_mergeSort (s := fun a b => compareBy order a b != .gt) fun _ _ _ _ => rfl,
      List.attach_map_subtype_val, sort]
  rw [hmembers]
  constructor
  case pairwise =>
    rw [List.pairwise_map]
    refine (List.pairwise_mergeSort htrans htotal rows.attach).imp ?_
    intro a b hab
    exact bne_iff_ne.1 hab
  case sublist =>
    intro part hpart hordered
    rw [← List.attach_map_subtype_val rows] at hpart
    obtain ⟨members, hmembers, rfl⟩ := List.sublist_map_iff.1 hpart
    refine (List.sublist_mergeSort htrans htotal ?_ hmembers).map Subtype.val
    rw [List.pairwise_map] at hordered
    exact hordered.imp bne_iff_ne.2

/-- Sorting arranges rows whose comparison is a total preorder. -/
theorem Preordered.arranged_sort (h : Preordered order.column rows) :
    Arranged order rows (sort rows (some order)) := by
  have hsame : (sort rows (some order)).Perm rows := List.mergeSort_perm _ _
  refine ⟨hsame, h.sorts.pairwise.imp compareBy_ne_gt_iff.1, ?_⟩
  intro row hrow
  -- the rows that tie with one are in order as they stand, so sorting leaves them so
  have hordered : (rows.filter (ties order.column row)).Pairwise
      fun a b => compareBy order a b ≠ .gt := by
    rw [List.pairwise_iff_forall_sublist]
    intro a b hab
    obtain ⟨ha, hta⟩ := List.mem_filter.1 (hab.subset List.mem_cons_self)
    obtain ⟨hb, htb⟩ := List.mem_filter.1
      (hab.subset (List.mem_cons_of_mem a List.mem_cons_self))
    refine h.trans ha hrow hb ?_ ?_
    · rw [← swap_compareBy, ties_iff.1 hta]
      decide
    · rw [ties_iff.1 htb]
      decide
  have hsublist := (h.sorts.sublist List.filter_sublist hordered).filter (ties order.column row)
  rw [List.filter_filter] at hsublist
  simp only [Bool.and_self] at hsublist
  exact (hsublist.eq_of_length (hsame.filter _).length_eq.symm).symm

/-- Sorting gives the only arrangement. -/
theorem inOrder_iff {order? : Option OrderBy}
    (h : ∀ order ∈ order?, Preordered order.column rows) {other : List Record} :
    InOrder rows order? other ↔ other = sort rows order? := by
  cases order? with
  | none =>
      constructor
      · rintro ⟨⟩
        rfl
      · rintro rfl
        exact .unsorted
  | some order =>
      have hsort := (h order rfl).arranged_sort
      constructor
      · rintro (_ | harranged)
        exact hsort.eq harranged
      · rintro rfl
        exact .sorted hsort

/-! ## Columns of several kinds -/

def values (column : String) (rows : List Record) : List Value :=
  rows.filterMap fun row => row.get? column

theorem compareBy_ne_gt_iff_atMost {column : String} {a b : Record} {x y : Value}
    (hx : a.get? column = some x) (hy : b.get? column = some y) (h : x.Comparable y) :
    compareBy ⟨column, true⟩ a b ≠ .gt ↔ x.AtMost y := by
  obtain ⟨result, h⟩ := h
  simp only [compareBy, hx, hy, h, if_true, Option.getD_some, Value.AtMost, Option.some.injEq]
  cases result <;> decide

/-- Rows can be brought in order by a column whose values compare with each other, be they of one
kind or of several, if none of them parts two others. -/
theorem preordered_of_not_parted {column : String}
    (hcomparable : ∀ x ∈ values column rows, ∀ y ∈ values column rows, x.Comparable y)
    (hparted : ∀ x ∈ values column rows, ∀ y ∈ values column rows, ∀ z ∈ values column rows,
      ¬Value.Parted x y z) : Preordered column rows := by
  intro a ha b hb c hc hab hbc
  have hmem {row : Record} {value : Value} (hrow : row ∈ rows)
      (h : row.get? column = some value) : value ∈ values column rows :=
    List.mem_filterMap.2 ⟨row, hrow, h⟩
  cases hz : c.get? column with
  | none =>
      -- a row without the column comes after none
      rw [compareBy, hz]
      cases a.get? column <;> exact nofun
  | some z =>
      cases hy : b.get? column with
      | none => exact absurd (by rw [compareBy, hy, hz]; rfl) hbc
      | some y =>
          cases hx : a.get? column with
          | none => exact absurd (by rw [compareBy, hx, hy]; rfl) hab
          | some x =>
              have hxs := hmem ha hx
              have hys := hmem hb hy
              have hzs := hmem hc hz
              rw [compareBy_ne_gt_iff_atMost hx hy (hcomparable x hxs y hys)] at hab
              rw [compareBy_ne_gt_iff_atMost hy hz (hcomparable y hys z hzs)] at hbc
              rw [compareBy_ne_gt_iff_atMost hx hz (hcomparable x hxs z hzs)]
              exact .trans hcomparable hparted hxs hys hzs hab hbc

end ClosedSql.Table
