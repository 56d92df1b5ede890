import ClosedSql.Proofs.Database.Admission
import ClosedSql.Proofs.Sql.Atoms
import ClosedSql.Proofs.Sql.Outline

/-!
# SQL tells what is asked

Nothing that a request asks for is lost in its SQL. The text alone tells everything but the values,
whatever the names in it look like: what is read is compared from the left, and where one statement
goes on the other does. The parameters tell the values. So two requests are written alike exactly if
they ask for the same.
-/

namespace ClosedSql

open SqlPart

/-! ## Lists that are told from their text -/

namespace SqlPart

variable {α β : Type} {separator : String} {member : α → List SqlPart} {key : α → β}
  {x y : List SqlAtom}

/-- Where a member stands at the head of a text, it is plain what its key is and where it ends. -/
def Tells (member : α → List SqlPart) (key : α → β) : Prop :=
  ∀ a b x y, atoms (member a) ++ x = atoms (member b) ++ y → key a = key b ∧ x = y

/-- The text does not go on with the separator and a further member. -/
def Stops (separator : String) (member : α → List SqlPart) (x : List SqlAtom) : Prop :=
  ∀ a y, x ≠ atoms (fixed separator :: member a) ++ y

theorem stops_comma (member : α → List SqlPart) (h : x.head? ≠ some (.char ',')) :
    Stops ", " member x := by
  rintro a y rfl
  simp at h

theorem continued_cons (separator : String) (member : α → List SqlPart) (a : α) (list : List α) :
    continued separator ((a :: list).map member) =
      fixed separator :: member a ++ continued separator (list.map member) := rfl

/-- Where each member tells its key, the members that follow separators tell their keys one by one.
-/
theorem continued_told (htells : Tells member key) (hx : Stops separator member x)
    (hy : Stops separator member y) {list others : List α}
    (h : atoms (continued separator (list.map member)) ++ x =
      atoms (continued separator (others.map member)) ++ y) :
    list.map key = others.map key ∧ x = y := by
  induction list generalizing others with
  | nil =>
      cases others with
      | nil => exact ⟨rfl, h⟩
      | cons b others =>
          rw [continued_cons, atoms_append, List.append_assoc] at h
          exact absurd h (hx b _)
  | cons a list ih =>
      cases others with
      | nil =>
          rw [continued_cons, atoms_append, List.append_assoc] at h
          exact absurd h.symm (hy a _)
      | cons b others =>
          rw [continued_cons, continued_cons, atoms_append, atoms_append, List.append_assoc,
            List.append_assoc, atoms, atoms, List.append_assoc, List.append_assoc,
            List.append_cancel_left_eq] at h
          obtain ⟨hkey, hrest⟩ := htells a b _ _ h
          obtain ⟨hkeys, hxy⟩ := ih hrest
          exact ⟨by rw [List.map_cons, List.map_cons, hkey, hkeys], hxy⟩

/-- What is listed with a separator is told from the text, unless the text goes on with one more
member. -/
theorem separated_told (htells : Tells member key) (hx : Stops separator member x)
    (hy : Stops separator member y) {list others : List α} (hlist : list ≠ [])
    (hothers : others ≠ [])
    (h : atoms (separated separator (list.map member)) ++ x =
      atoms (separated separator (others.map member)) ++ y) :
    list.map key = others.map key ∧ x = y := by
  cases list with
  | nil => exact absurd rfl hlist
  | cons a list =>
      cases others with
      | nil => exact absurd rfl hothers
      | cons b others =>
          rw [List.map_cons, List.map_cons, separated_cons, separated_cons, atoms_append,
            atoms_append, List.append_assoc, List.append_assoc] at h
          obtain ⟨hkey, hrest⟩ := htells a b _ _ h
          obtain ⟨hkeys, hxy⟩ := continued_told htells hx hy hrest
          exact ⟨by rw [List.map_cons, List.map_cons, hkey, hkeys], hxy⟩

/-- A name tells the column it names. -/
theorem tells_name (column : α → String) : Tells (fun a => [name (column a)]) column := by
  intro a b x y h
  simpa using h

/-- A parameter tells its number. -/
theorem tells_param (number : α → Nat) : Tells (fun a => [param (number a)]) number := by
  intro a b x y h
  simpa using h

/-- An assignment tells its column. -/
theorem tells_assignment :
    Tells (fun column : String × Nat => [name column.1, fixed " = ", param column.2])
      Prod.fst := by
  intro a b x y h
  simp at h
  exact ⟨h.1, h.2.2⟩

/-- A comparison tells its filter up to the value. -/
theorem tells_comparison :
    Tells (fun entry : Filter × Nat => entry.1.parts entry.2) (fun entry => entry.1.outline) := by
  rintro ⟨⟨column, op, operand⟩, number⟩ ⟨⟨otherColumn, otherOp, other⟩, otherNumber⟩ x y h
  cases op <;> cases otherOp <;>
    simp_all [Filter.parts, CompareOp.symbol, Filter.outline]

end SqlPart

/-! ## Records without their values -/

namespace Record

variable {record other : Record} {value : Value}

theorem placed_ne_nil (record : Record) (h : record.isEmpty = false) : record.placed ≠ [] := by
  intro hnil
  have hnames := record.map_fst_placed
  rw [hnil, List.map_nil, NameMap.names, eq_comm, List.map_eq_nil_iff] at hnames
  rw [NameMap.isEmpty, hnames] at h
  cases h

/-- Records with the same columns are the same but for their values. -/
theorem mapValues_of_placed (h : record.placed.map Prod.fst = other.placed.map Prod.fst) :
    record.mapValues (fun _ => value) = other.mapValues fun _ => value := by
  rw [map_fst_placed, map_fst_placed] at h
  have hentries := congrArg (List.map fun column => (column, value)) h
  rw [NameMap.names, NameMap.names, List.map_map, List.map_map] at hentries
  exact NameMap.ext hentries

/-- Two records with the same names and the same values are equal. -/
theorem eq_of_mapValues
    (h : record.mapValues (fun _ => value) = other.mapValues fun _ => value)
    (hvalues : record.entries.map Prod.snd = other.entries.map Prod.snd) : record = other := by
  have hnames := congrArg NameMap.names h
  rw [NameMap.names_mapValues, NameMap.names_mapValues] at hnames
  apply NameMap.ext
  rw [List.zip_of_prod hnames hvalues]
  exact (List.zip_of_prod rfl rfl).symm

end Record

namespace Request

/-! ## What a statement says -/

/-- The columns asked for; no columns at all and a star among them both ask for every column. -/
def columnsWanted (columns : List String) : List String :=
  if columns.isEmpty || asksForAll columns then ["*"] else columns

variable (request : Request)

/-- The action as a statement says it. Where only a count is wanted no column is. -/
def saidAction : Action :=
  match request.action with
  | .select columns =>
      .select (if request.counted && request.head then [] else columnsWanted columns)
  | action => action

/-- The request as its statement says it. Rows have an order and a limit where rows are read, and
mutations alone answer with the rows they concern. -/
def said : Request where
  table := request.table
  action := request.saidAction
  filters := request.filters
  order := if request.isMutation || request.head then none else request.order
  limit := if request.isMutation || request.head then none else request.limit
  counted := !request.isMutation && request.counted
  head := !request.isMutation && request.counted && request.head
  returning := request.isMutation && request.returning

theorem projection_columnsWanted (columns : List String) :
    projection (columnsWanted columns) = projection columns := by
  rw [columnsWanted]
  split
  · next hall => rw [projection, projection, if_pos hall]; rfl
  · rfl

def countParts (counted : Bool) : List SqlPart :=
  if counted then [fixed ", count(*) OVER () AS ", name countColumn] else []

theorem target_eq (columns : List String) : request.target columns =
    if request.counted && request.head then [fixed "count(*)"]
    else projection columns ++ countParts request.counted := by
  rw [target, countParts]
  cases request.counted <;> cases request.head <;> simp

theorem isMutation_said : request.said.isMutation = request.isMutation := by
  rw [isMutation, isMutation, said, saidAction]
  cases request.action <;> rfl

theorem setsNothing_said : request.said.setsNothing = request.setsNothing := by
  rw [setsNothing, setsNothing, said, saidAction]
  cases request.action <;> rfl

theorem actionParams_said : request.said.actionParams = request.actionParams := by
  rw [actionParams, actionParams, said, saidAction]
  cases request.action <;> rfl

theorem saidAction_of_mutation (h : request.isMutation = true) :
    request.saidAction = request.action := by
  rw [isMutation] at h
  rw [saidAction]
  cases haction : request.action with
  | select columns => simp [haction] at h
  | insert | update | delete => rfl

theorem target_said (h : request.isMutation = false) (columns : List String) :
    request.said.target (if request.counted && request.head then [] else columnsWanted columns) =
      request.target columns := by
  have hcounted : request.said.counted = request.counted := by simp [said, h]
  have hhead : request.said.head = (request.counted && request.head) := by simp [said, h]
  rw [target_eq, target_eq, hcounted, hhead, ← Bool.and_assoc, Bool.and_self]
  split
  · rfl
  · rw [projection_columnsWanted]

theorem actionParts_said : request.said.actionParts = request.actionParts := by
  have haction : request.said.action = request.saidAction := rfl
  rw [actionParts, actionParts, haction]
  cases hkind : request.action with
  | select columns =>
      have hmutation : request.isMutation = false := by rw [isMutation, hkind]
      simp only [saidAction, hkind, target_said request hmutation columns]
      rfl
  | insert | update | delete =>
      rw [saidAction_of_mutation request (by rw [isMutation, hkind]), hkind]
      rfl

theorem params_said : request.said.params = request.params := by
  rw [params, params, actionParams_said]
  rfl

theorem conditionParts_said : request.said.conditionParts = request.conditionParts := by
  rw [conditionParts, conditionParts, actionParams_said]
  rfl

theorem tailParts_said : request.said.tailParts = request.tailParts := by
  rw [tailParts, tailParts, isMutation_said]
  cases hmutation : request.isMutation with
  | true => simp [said, hmutation]
  | false => cases hhead : request.head <;> simp [said, hmutation, hhead]

/-- A request is written as what it says. -/
theorem toQuery_said : request.said.toQuery = request.toQuery := by
  rw [toQuery, toQuery, setsNothing_said, parts, parts, actionParts_said, conditionParts_said,
    tailParts_said, params_said]
  rfl

/-! ## Columns -/

/-- How the columns asked for are written. -/
inductive Projected (columns : List String) : List SqlPart → Prop
  | all (wanted : columnsWanted columns = ["*"]) : Projected columns [fixed "*"]
  | some {first : String} {rest : List String} (wanted : columnsWanted columns = first :: rest) :
      Projected columns (SqlPart.separated ", " ((first :: rest).map fun column => [name column]))

theorem projected (columns : List String) : Projected columns (projection columns) := by
  rw [projection]
  split
  · next hall => exact .all (if_pos hall)
  · next hsome =>
      cases columns with
      | nil => simp at hsome
      | cons first rest => exact .some (if_neg hsome)

/-- The columns asked for are told by the projection. -/
theorem projection_told {columns others : List String} {x y : List SqlAtom}
    (hx : Stops ", " (fun column => [name column]) x)
    (hy : Stops ", " (fun column => [name column]) y)
    (h : atoms (projection columns) ++ x = atoms (projection others) ++ y) :
    columnsWanted columns = columnsWanted others ∧ x = y := by
  have hcolumns := projected columns
  have hothers := projected others
  generalize projection columns = parts at hcolumns h
  generalize projection others = otherParts at hothers h
  cases hcolumns with
  | all wanted =>
      cases hothers with
      | all otherWanted => exact ⟨wanted.trans otherWanted.symm, by simpa using h⟩
      | some otherWanted => simp [separated_cons] at h
  | some wanted =>
      cases hothers with
      | all otherWanted => simp [separated_cons] at h
      | some otherWanted =>
          obtain ⟨hkeys, hxy⟩ := separated_told (tells_name id) hx hy (by simp) (by simp) h
          rw [wanted, otherWanted]
          exact ⟨by simpa using hkeys, hxy⟩

/-- After the columns comes the count beside them or the table, and no further column. -/
theorem stops_countParts (counted : Bool) (x : List SqlAtom) :
    Stops ", " (fun column : String => [name column])
      (atoms (countParts counted) ++ (atoms [fixed " FROM "] ++ x)) := by
  intro column y h
  cases counted <;> simp [countParts] at h

theorem countParts_told {counted otherCounted : Bool} {x y : List SqlAtom}
    (h : atoms (countParts counted) ++ (atoms [fixed " FROM "] ++ x) =
      atoms (countParts otherCounted) ++ (atoms [fixed " FROM "] ++ y)) :
    counted = otherCounted ∧ x = y := by
  cases counted <;> cases otherCounted <;> simp [countParts] at h <;> simp [h]

/-- A projection is never mistaken for a count alone. -/
theorem projection_ne_count (columns : List String) (x y : List SqlAtom) :
    atoms (projection columns) ++ x ≠ atoms [fixed "count(*)"] ++ y := by
  have hprojected := projected columns
  generalize projection columns = parts at hprojected
  cases hprojected with
  | all wanted => simp
  | some wanted => simp [separated_cons]

variable {request} {other : Request}

/-- The target of a selection tells whether it is a count alone, and if not, what is read. -/
theorem target_told {columns others : List String} {x y : List SqlAtom}
    (h : atoms (request.target columns) ++ (atoms [fixed " FROM "] ++ x) =
      atoms (other.target others) ++ (atoms [fixed " FROM "] ++ y)) :
    request.counted = other.counted ∧
      (request.counted && request.head) = (other.counted && other.head) ∧
      (if request.counted && request.head then [] else columnsWanted columns) =
        (if other.counted && other.head then [] else columnsWanted others) ∧ x = y := by
  rw [target_eq, target_eq] at h
  split at h
  · next hcount =>
      split at h
      · next hotherCount =>
          have hcounted := (Bool.and_eq_true_iff.1 hcount).1
          have hotherCounted := (Bool.and_eq_true_iff.1 hotherCount).1
          rw [hcount, hotherCount, hcounted, hotherCounted]
          exact ⟨rfl, rfl, rfl, List.append_cancel_left (List.append_cancel_left h)⟩
      · rw [atoms_append, List.append_assoc] at h
        exact absurd h.symm (projection_ne_count _ _ _)
  · next hcount =>
      split at h
      · rw [atoms_append, List.append_assoc] at h
        exact absurd h (projection_ne_count _ _ _)
      · next hotherCount =>
          rw [atoms_append, atoms_append, List.append_assoc, List.append_assoc] at h
          obtain ⟨hcolumns, hrest⟩ :=
            projection_told (stops_countParts _ _) (stops_countParts _ _) h
          obtain ⟨hcounted, hxy⟩ := countParts_told hrest
          rw [if_neg hcount, if_neg hotherCount, Bool.eq_false_iff.2 hcount,
            Bool.eq_false_iff.2 hotherCount]
          exact ⟨hcounted, rfl, hcolumns, hxy⟩

/-! ## Beginnings -/

/-- An insertion tells its table and its columns. -/
theorem insertion_told {table otherTable : String} {placed others : List (String × Nat)}
    (hplaced : placed ≠ []) (hothers : others ≠ []) {x y : List SqlAtom}
    (h : atoms (insertion table placed) ++ x = atoms (insertion otherTable others) ++ y) :
    table = otherTable ∧ placed.map Prod.fst = others.map Prod.fst ∧ x = y := by
  simp only [insertion, List.cons_append, List.nil_append, List.append_assoc, atoms,
    List.append_cancel_left_eq, List.cons.injEq, SqlAtom.name.injEq, atoms_append] at h
  obtain ⟨htable, hcolumns⟩ := h
  obtain ⟨hnames, hrest⟩ := separated_told (tells_name Prod.fst) (stops_comma _ (by simp))
    (stops_comma _ (by simp)) hplaced hothers hcolumns
  rw [List.append_cancel_left_eq] at hrest
  obtain ⟨-, hclosed⟩ := separated_told (tells_param Prod.snd) (stops_comma _ (by simp))
    (stops_comma _ (by simp)) hplaced hothers hrest
  exact ⟨htable, hnames, List.append_cancel_left hclosed⟩

/-- So does a change, unless the text goes on with a comma and so perhaps with a further column. -/
theorem setting_told {table otherTable : String} {placed others : List (String × Nat)}
    (hplaced : placed ≠ []) (hothers : others ≠ []) {x y : List SqlAtom}
    (hx : x.head? ≠ some (.char ',')) (hy : y.head? ≠ some (.char ','))
    (h : atoms (setting table placed) ++ x = atoms (setting otherTable others) ++ y) :
    table = otherTable ∧ placed.map Prod.fst = others.map Prod.fst ∧ x = y := by
  simp only [setting, List.cons_append, List.nil_append, List.append_assoc, atoms,
    List.append_cancel_left_eq, List.cons.injEq, SqlAtom.name.injEq] at h
  obtain ⟨htable, hcolumns⟩ := h
  exact ⟨htable, separated_told tells_assignment (stops_comma _ hx) (stops_comma _ hy) hplaced
    hothers hcolumns⟩

/-- The two requests are said alike up to their conditions. -/
structure SameBeginning (request other : Request) : Prop where
  table : request.table = other.table
  action : request.saidAction.outline = other.saidAction.outline
  mutation : request.isMutation = other.isMutation
  counted : request.said.counted = other.said.counted
  head : request.said.head = other.said.head

theorem isMutation_of_outline (h : request.action.outline = other.action.outline) :
    request.isMutation = other.isMutation := by
  rw [isMutation, isMutation]
  cases haction : request.action <;> cases hother : other.action <;>
    simp [haction, hother, Action.outline] at h ⊢

theorem sameBeginning_of_outline (htable : request.table = other.table)
    (hmutation : request.isMutation = true)
    (haction : request.action.outline = other.action.outline) : request.SameBeginning other := by
  have hother : other.isMutation = true := (isMutation_of_outline haction).symm.trans hmutation
  exact {
    table := htable
    action := by rw [saidAction_of_mutation _ hmutation, saidAction_of_mutation _ hother, haction]
    mutation := hmutation.trans hother.symm
    counted := by simp [said, hmutation, hother]
    head := by simp [said, hmutation, hother] }

/-- A selection tells its table and what is read of it. -/
theorem selection_told {columns others : List String} (haction : request.action = .select columns)
    (hother : other.action = .select others) {x y : List SqlAtom}
    (h : atoms (request.target columns ++ [fixed " FROM ", name request.table]) ++ x =
      atoms (other.target others ++ [fixed " FROM ", name other.table]) ++ y) :
    request.SameBeginning other ∧ x = y := by
  have hrequest : request.isMutation = false := by rw [isMutation, haction]
  have hselection : other.isMutation = false := by rw [isMutation, hother]
  have htarget : atoms (request.target columns) ++
      (atoms [fixed " FROM "] ++ .name request.table :: x) =
        atoms (other.target others) ++ (atoms [fixed " FROM "] ++ .name other.table :: y) := by
    simpa using h
  obtain ⟨hcounted, hhead, hcolumns, hrest⟩ := target_told htarget
  obtain ⟨htable, rfl⟩ := List.cons.inj hrest
  have hsame : request.SameBeginning other := {
    table := SqlAtom.name.inj htable
    action := by simp only [saidAction, haction, hother, hcolumns]
    mutation := hrequest.trans hselection.symm
    counted := by simp [said, hrequest, hselection, hcounted]
    head := by simpa [said, hrequest, hselection] using hhead }
  exact ⟨hsame, rfl⟩

/-- What stands before the conditions is told from the text. -/
theorem begun_told {parts otherParts : List SqlPart} (hrequest : request.Begun parts)
    (hother : other.Begun otherParts) (hsets : request.setsNothing = false)
    (hotherSets : other.setsNothing = false) {x y : List SqlAtom}
    (hx : x.head? ≠ some (.char ',')) (hy : y.head? ≠ some (.char ','))
    (h : atoms parts ++ x = atoms otherParts ++ y) :
    request.SameBeginning other ∧ x = y := by
  -- two kinds of statement differ in their first letter, and the two kinds of insertion after the
  -- table
  cases hrequest with
  | select columns action =>
      cases hother with
      | select others otherAction =>
          rw [List.cons_append, List.cons_append, atoms, atoms, List.append_assoc,
            List.append_assoc, List.append_cancel_left_eq] at h
          exact selection_told action otherAction h
      | _ => simp [insertion, setting, deletion] at h
  | insertNothing action =>
      cases hother with
      | insertNothing otherAction =>
          have hrest : request.table = other.table ∧ x = y := by simpa using h
          refine ⟨sameBeginning_of_outline hrest.1 (by rw [isMutation, action]) ?_, hrest.2⟩
          rw [action, otherAction]
      | _ => simp [insertion, setting, deletion] at h
  | insert record action some =>
      cases hother with
      | insert otherRecord otherAction otherSome =>
          obtain ⟨htable, hcolumns, hxy⟩ :=
            insertion_told (record.placed_ne_nil some) (otherRecord.placed_ne_nil otherSome) h
          refine ⟨sameBeginning_of_outline htable (by rw [isMutation, action]) ?_, hxy⟩
          rw [action, otherAction, Action.outline, Action.outline,
            Record.mapValues_of_placed hcolumns]
      | _ => simp [insertion, setting, deletion] at h
  | update values action =>
      rw [setsNothing, action] at hsets
      cases hother with
      | update otherValues otherAction =>
          rw [setsNothing, otherAction] at hotherSets
          obtain ⟨htable, hcolumns, hxy⟩ := setting_told (values.placed_ne_nil hsets)
            (otherValues.placed_ne_nil hotherSets) hx hy h
          refine ⟨sameBeginning_of_outline htable (by rw [isMutation, action]) ?_, hxy⟩
          rw [action, otherAction, Action.outline, Action.outline,
            Record.mapValues_of_placed hcolumns]
      | _ => simp [insertion, setting, deletion] at h
  | delete action =>
      cases hother with
      | delete otherAction =>
          have hrest : request.table = other.table ∧ x = y := by simpa [deletion] using h
          refine ⟨sameBeginning_of_outline hrest.1 (by rw [isMutation, action]) ?_, hrest.2⟩
          rw [action, otherAction]
      | _ => simp [insertion, setting, deletion] at h

/-! ## Conditions and ends -/

/-- The end of a statement, where it has one, begins with a word of its own. -/
theorem atoms_tailParts (request : Request) : atoms request.tailParts = [] ∨
    ∃ c x, atoms request.tailParts = .char ' ' :: .char c :: x ∧ c ≠ 'W' ∧ c ≠ 'A' := by
  have hended := request.ended
  generalize request.tailParts = parts at hended
  cases hended with
  | changed mutation => split <;> simp [rowsWanted]
  | read mutation =>
      generalize (if request.head then none else request.order) = order
      generalize (if request.head then none else request.limit) = limit
      cases order <;> cases limit <;> simp [orderParts, limitParts]

/-- The end of a statement is not taken for a condition. -/
theorem tailParts_ne (request : Request) {word : String} (hword : word = " WHERE " ∨ word = " AND ")
    (x : List SqlAtom) : atoms request.tailParts ≠ atoms [fixed word] ++ x := by
  rcases request.atoms_tailParts with hnone | ⟨c, rest, htail, hwhere, hand⟩
  · rcases hword with rfl | rfl <;> simp [hnone]
  · rcases hword with rfl | rfl <;> simp [htail, hwhere, hand]

/-- The end of a statement does not go on with a condition. -/
theorem stops_tailParts (request : Request) :
    Stops " AND " (fun entry : Filter × Nat => entry.1.parts entry.2)
      (atoms request.tailParts) := by
  intro entry x h
  rw [atoms, List.append_assoc] at h
  exact tailParts_ne request (.inr rfl) _ h

/-- After the beginning of a statement comes no comma. -/
theorem head?_rest (request : Request) :
    (atoms request.conditionParts ++ atoms request.tailParts).head? ≠ some (.char ',') := by
  rw [conditionParts]
  split
  · rcases request.atoms_tailParts with hnone | ⟨c, rest, htail, -⟩
    · simp [hnone]
    · simp [htail]
  · simp

theorem map_outline_zipIdx (filters : List Filter) (start : Nat) :
    (filters.zipIdx start).map (fun entry => entry.1.outline) = filters.map Filter.outline := by
  have hfst := List.zipIdx_map_fst start filters
  rw [← hfst, List.map_map, hfst]
  rfl

/-- Conditions tell everything but the values that they compare with. -/
theorem conditionParts_told
    (h : atoms request.conditionParts ++ atoms request.tailParts =
      atoms other.conditionParts ++ atoms other.tailParts) :
    request.filters.map Filter.outline = other.filters.map Filter.outline ∧
      atoms request.tailParts = atoms other.tailParts := by
  rw [conditionParts, conditionParts] at h
  split at h
  · next hfilters =>
      split at h
      · next hothers =>
          rw [List.isEmpty_iff.1 hfilters, List.isEmpty_iff.1 hothers]
          exact ⟨rfl, h⟩
      · exact absurd (h.trans (List.append_assoc _ _ _)) (tailParts_ne request (.inl rfl) _)
  · next hfilters =>
      split at h
      · exact absurd (h.symm.trans (List.append_assoc _ _ _)) (tailParts_ne other (.inl rfl) _)
      · next hothers =>
          rw [atoms, atoms, List.append_assoc, List.append_assoc,
            List.append_cancel_left_eq] at h
          obtain ⟨hkeys, htails⟩ := separated_told tells_comparison request.stops_tailParts
            other.stops_tailParts (by simpa using hfilters) (by simpa using hothers) h
          rw [map_outline_zipIdx, map_outline_zipIdx] at hkeys
          exact ⟨hkeys, htails⟩

/-- The limit is told by the end of a statement. -/
theorem limitParts_told {limit otherLimit : Option UInt64}
    (h : atoms (limitParts limit) = atoms (limitParts otherLimit)) : limit = otherLimit := by
  cases limit with
  | none =>
      cases otherLimit with
      | none => rfl
      | some other => simp [limitParts] at h
  | some limit =>
      cases otherLimit with
      | none => simp [limitParts] at h
      | some other =>
          simp only [limitParts, atoms, String.toList_append, List.map_append,
            List.append_cancel_left_eq, List.append_nil] at h
          have htexts := (List.map_inj_right fun _ _ => SqlAtom.char.inj).1 h
          have hdigits := congrArg Number.digitsValue htexts
          rw [Nat.toString_eq_ofList_toDigits, Nat.toString_eq_ofList_toDigits,
            String.toList_ofList, String.toList_ofList, digitsValue_toDigits,
            digitsValue_toDigits] at hdigits
          rw [UInt64.toNat_inj.1 hdigits]

/-- Order and limit are told by the end of a statement. -/
theorem orderParts_told {order otherOrder : Option OrderBy} {limit otherLimit : Option UInt64}
    (h : atoms (orderParts order ++ limitParts limit) =
      atoms (orderParts otherOrder ++ limitParts otherLimit)) :
    order = otherOrder ∧ limit = otherLimit := by
  have hlimit : ∀ (limit : Option UInt64) x, atoms (limitParts limit) ≠
      atoms [fixed " ORDER BY "] ++ x := by
    intro limit x
    cases limit <;> simp [limitParts]
  cases order with
  | none =>
      cases otherOrder with
      | none => exact ⟨rfl, limitParts_told h⟩
      | some other => exact absurd h (hlimit limit _)
  | some order =>
      cases otherOrder with
      | none => exact absurd h.symm (hlimit otherLimit _)
      | some other =>
          obtain ⟨column, _ | _⟩ := order <;> obtain ⟨otherColumn, _ | _⟩ := other <;>
            simp [orderParts] at h
          all_goals exact ⟨by rw [h.1], limitParts_told h.2⟩

/-- Requests with the same end ask for rows in the same way. -/
theorem tailParts_told (hmutation : request.isMutation = other.isMutation)
    (h : atoms request.tailParts = atoms other.tailParts) :
    request.said.order = other.said.order ∧ request.said.limit = other.said.limit ∧
      request.said.returning = other.said.returning := by
  have hended := request.ended
  have hotherEnded := other.ended
  generalize request.tailParts = parts at hended h
  generalize other.tailParts = otherParts at hotherEnded h
  cases hended with
  | changed mutation =>
      cases hotherEnded with
      | changed otherMutation =>
          have hreturning : request.returning = other.returning := by
            cases hrequest : request.returning <;> cases hother : other.returning <;>
              simp_all [rowsWanted]
          simp [said, mutation, otherMutation, hreturning]
      | read otherMutation => simp [mutation, otherMutation] at hmutation
  | read mutation =>
      cases hotherEnded with
      | changed otherMutation => simp [mutation, otherMutation] at hmutation
      | read otherMutation =>
          have hread := orderParts_told h
          simpa [said, mutation, otherMutation] using hread

/-! ## Values -/

/-- An action is known from its outline and its values. -/
theorem action_eq_of_outline (houtline : request.action.outline = other.action.outline)
    (hvalues : request.actionParams = other.actionParams) : request.action = other.action := by
  rw [actionParams, actionParams] at hvalues
  cases haction : request.action <;> cases hother : other.action <;>
    simp only [haction, hother, Action.outline, reduceCtorEq, Action.select.injEq,
      Action.insert.injEq, Action.update.injEq] at houtline hvalues
  · rw [houtline]
  · rw [Record.eq_of_mapValues houtline hvalues]
  · rw [Record.eq_of_mapValues houtline hvalues]
  · rfl

/-- Filters are known from their outlines and their values. -/
theorem filters_eq_of_outline {filters others : List Filter}
    (houtline : filters.map Filter.outline = others.map Filter.outline)
    (hvalues : filters.map Condition.operand = others.map Condition.operand) :
    filters = others := by
  have hpairs : filters.map (fun filter => (filter.outline, filter.operand)) =
      others.map fun filter => (filter.outline, filter.operand) := by
    rw [← List.zip_map', ← List.zip_map', houtline, hvalues]
  refine (List.map_inj_right ?_).1 hpairs
  rintro ⟨column, op, operand⟩ ⟨otherColumn, otherOp, otherOperand⟩ h
  simpa [Filter.outline, and_assoc] using h

/-- Requests with the same outline and the same parameters are the same. -/
theorem eq_of_outline (houtline : request.outline = other.outline)
    (hparams : request.params = other.params) : request = other := by
  -- the outline says how many of the parameters belong to the action
  have hlength := congrArg (fun request => request.actionParams.length) houtline
  simp only [length_actionParams_outline] at hlength
  obtain ⟨hvalues, hoperands⟩ := List.append_inj hparams hlength
  have haction := action_eq_of_outline (congrArg Request.action houtline) hvalues
  have hfilters := filters_eq_of_outline (congrArg Request.filters houtline) hoperands
  obtain ⟨table, action, filters, order, limit, counted, head, returning⟩ := request
  obtain ⟨otherTable, otherAction, otherFilters, otherOrder, otherLimit, otherCounted, otherHead,
    otherReturning⟩ := other
  simp_all [outline]

/-- A request has a statement unless it sets nothing, and then just one. -/
theorem toQuery_eq_ok_iff {query : Query} : request.toQuery = .ok query ↔
    request.setsNothing = false ∧ query = ⟨join request.parts, request.params⟩ := by
  rw [toQuery]
  split
  · next hsets => simp [hsets]
  · next hsets => simp [hsets, eq_comm]

/-- The text of a request tells everything but the values. -/
theorem outline_said_of_join (hsets : request.setsNothing = false)
    (hotherSets : other.setsNothing = false) (h : join request.parts = join other.parts) :
    request.said.outline = other.said.outline := by
  have hatoms : atoms request.parts = atoms other.parts := by
    rw [← scan_join request.legible_parts, ← scan_join other.legible_parts, h]
  rw [parts, parts, atoms_append, atoms_append, atoms_append, atoms_append, List.append_assoc,
    List.append_assoc] at hatoms
  obtain ⟨hbeginning, hrest⟩ := begun_told request.begun other.begun hsets hotherSets
    request.head?_rest other.head?_rest hatoms
  obtain ⟨hfilters, htails⟩ := conditionParts_told hrest
  obtain ⟨horder, hlimit, hreturning⟩ := tailParts_told hbeginning.mutation htails
  rw [outline, outline, Request.mk.injEq]
  exact ⟨hbeginning.table, hbeginning.action, hfilters, horder, hlimit, hbeginning.counted,
    hbeginning.head, hreturning⟩

/-- Nothing is lost in writing. SQL cannot be written for changes that set no column, and for these
alone. Read with its names as atoms the SQL of any other request has each parameter once, in order;
and what is written the same says the same: the table, the action with its columns and their values,
the filters in order, and order, limit and returned rows as far as they matter. -/
theorem toQuery_lossless (request : Request) :
    ((∃ failure, request.toQuery = .error failure) ↔ request.action = .update .empty) ∧
      ∀ query, request.toQuery = .ok query →
        (SqlAtom.scan query.text.toList).filterMap SqlAtom.number? =
            List.range' 1 query.params.length ∧
          ∀ other : Request, other.toQuery = .ok query ↔ other.said = request.said := by
  refine ⟨exists_error_toQuery_iff, fun query hquery => ⟨request.numbers_scan hquery, ?_⟩⟩
  intro other
  constructor
  · intro hother
    obtain ⟨hsets, rfl⟩ := toQuery_eq_ok_iff.1 hquery
    obtain ⟨hotherSets, heq⟩ := toQuery_eq_ok_iff.1 hother
    obtain ⟨htext, hparams⟩ := Query.mk.inj heq
    have houtline := outline_said_of_join hotherSets hsets htext.symm
    exact eq_of_outline houtline (by rw [params_said, params_said, hparams])
  · intro hsaid
    rw [← toQuery_said, hsaid, toQuery_said, hquery]

def quotedChange : Request :=
  ((Request.update "a\"b" (.ofList [("$1", .text "x"), ("c\" = $2", .null)])).matching
    (.ofList [("d AND e", .int 7), ("\"", .text "y")])).returningRows

theorem toQuery_lossless_quotedChange :
    ((∃ failure, quotedChange.toQuery = .error failure) ↔
        quotedChange.action = .update .empty) ∧
      ∃ query, quotedChange.toQuery = .ok query ∧
        query.text = "UPDATE \"a\"\"b\" SET \"$1\" = $1, \"c\"\" = $2\" = $2" ++
          " WHERE \"\"\"\" = $3 AND \"d AND e\" = $4 RETURNING *" ∧
        (SqlAtom.scan query.text.toList).filterMap SqlAtom.number? =
            List.range' 1 query.params.length ∧
          ∀ other : Request, other.toQuery = .ok query ↔ other.said = quotedChange.said := by
  have hlossless := toQuery_lossless quotedChange
  exact ⟨hlossless.1, _, rfl, by decide +kernel, hlossless.2 _ rfl⟩

end Request

end ClosedSql
