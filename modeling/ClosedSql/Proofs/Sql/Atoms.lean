import ClosedSql.Proofs.Sql.Pairing
import ClosedSql.Proofs.Statement.Canonical

/-!
# Reading SQL

Whoever reads SQL takes a name in quotes as one thing, whatever it says, and likewise a parameter
with its number. A request is written in such a way that it is read back part by part: no name and
no number runs on into what comes after it. So the parameters are met in the order of their numbers.
-/

namespace ClosedSql

open Text Number

/-! ## Atoms -/

/-- What is read of SQL at a time. -/
inductive SqlAtom
  | char (c : Char)
  /-- A name in quotes, where a doubled quote stands for one. -/
  | name (text : String)
  | param (number : Nat)
deriving DecidableEq

namespace SqlAtom

/-- The atom at the head of a text, and the text after it. A quote that is never closed and a dollar
sign without a number stand for themselves. -/
def read (c : Char) (rest : List Char) : SqlAtom × List Char :=
  if c = '"' then
    match unquote? '"' rest with
    | some found => (name (.ofList found.1), found.2)
    | none => (char c, rest)
  else if c = '$' && isDigits (rest.takeWhile Char.isDigit) then
    (param (digitsValue (rest.takeWhile Char.isDigit)), rest.dropWhile Char.isDigit)
  else (char c, rest)

theorem length_read_le (c : Char) (rest : List Char) : (read c rest).2.length ≤ rest.length := by
  rw [read]
  split
  · split
    · next found hfound => exact Nat.le_of_lt (length_unquote? hfound)
    · exact Nat.le_refl _
  · split
    · exact (List.dropWhile_sublist _).length_le
    · exact Nat.le_refl _

def scan : List Char → List SqlAtom
  | [] => []
  | c :: rest => (read c rest).1 :: scan (read c rest).2
termination_by text => text.length
decreasing_by exact Nat.lt_succ_of_le (length_read_le c rest)

def number? : SqlAtom → Option Nat
  | param number => some number
  | char _ | name _ => none

def isPlain (c : Char) : Bool :=
  c != '"' && c != '$'

/-- Characters that begin neither a name nor a parameter are read one by one. -/
theorem scan_chars {text : List Char} (h : text.all isPlain = true) (rest : List Char) :
    scan (text ++ rest) = text.map char ++ scan rest := by
  induction text with
  | nil => rfl
  | cons c text ih =>
      rw [List.all_cons, Bool.and_eq_true, isPlain, Bool.and_eq_true, bne_iff_ne, bne_iff_ne] at h
      obtain ⟨⟨hquote, hdollar⟩, htext⟩ := h
      simp [scan, read, hquote, hdollar, ih htext]

/-- A quoted name is read back unless a quote follows. -/
theorem scan_name (text : String) {rest : List Char} (h : rest.head? ≠ some '"') :
    scan (enquote '"' text.toList ++ rest) = name text :: scan rest := by
  have hread := unquote?_double text.toList h
  rw [enquote, List.append_assoc, List.cons_append, List.singleton_append, scan]
  simp [read, hread]

/-- A parameter is read back unless a digit follows. -/
theorem scan_param (number : Nat) {rest : List Char} (h : ∀ c ∈ rest.head?, c.isDigit = false) :
    scan ('$' :: Nat.toDigits 10 number ++ rest) = param number :: scan rest := by
  have hdigits := isDigits_toDigits number
  have hall := hdigits
  rw [isDigits, Bool.and_eq_true, List.all_eq_true] at hall
  obtain ⟨htake, hdrop⟩ := Token.span_append hall.2 h
  rw [List.cons_append, scan]
  simp [read, htake, hdrop, hdigits, digitsValue_toDigits]

end SqlAtom

/-! ## Parts that are read back -/

namespace SqlPart

open SqlAtom

@[simp]
def atoms : List SqlPart → List SqlAtom
  | [] => []
  | fixed text :: rest => text.toList.map char ++ atoms rest
  | name text :: rest => .name text :: atoms rest
  | param number :: rest => .param number :: atoms rest

def number? : SqlPart → Option Nat
  | param number => some number
  | fixed _ | name _ => none

/-- Whether nothing here goes on with a name or a number right before. -/
def opens : List SqlPart → Bool
  | [] => true
  | fixed text :: _ => text.toList.head?.any fun c => c != '"' && !c.isDigit
  | name _ :: _ | param _ :: _ => false

/-- Whether each part is read back as it is. -/
def legible : List SqlPart → Bool
  | [] => true
  | fixed text :: rest => text.toList.all isPlain && legible rest
  | name _ :: rest | param _ :: rest => opens rest && legible rest

/-- The members of a list with a separator before each of them. -/
def continued (separator : String) (members : List (List SqlPart)) : List SqlPart :=
  members.flatMap fun member => fixed separator :: member

theorem separated_cons (separator : String) (first : List SqlPart) (rest : List (List SqlPart)) :
    separated separator (first :: rest) = first ++ continued separator rest := by
  induction rest generalizing first with
  | nil => simp [separated, continued]
  | cons second rest ih =>
      have hstep : separated separator (first :: second :: rest) =
          first ++ fixed separator :: separated separator (second :: rest) := rfl
      rw [hstep, ih]
      rfl

@[simp]
theorem atoms_append (front rest : List SqlPart) :
    atoms (front ++ rest) = atoms front ++ atoms rest := by
  induction front with
  | nil => rfl
  | cons part front ih => cases part <;> simp [ih]

theorem head?_of_opens {parts : List SqlPart} (h : opens parts = true) :
    ∀ c ∈ (parts.flatMap text).head?, c ≠ '"' ∧ c.isDigit = false := by
  cases parts with
  | nil => simp
  | cons part rest =>
      cases part with
      | fixed content =>
          simp only [opens, Option.any_eq_true, Bool.and_eq_true, bne_iff_ne,
            Bool.not_eq_true'] at h
          obtain ⟨c, hhead, hc⟩ := h
          intro d hd
          rw [List.flatMap_cons, text, List.head?_append, hhead, Option.some_or] at hd
          cases hd
          exact hc
      | name | param => cases h

/-- Legible parts are read back one by one. -/
theorem scan_join {parts : List SqlPart} (h : legible parts = true) :
    scan (join parts).toList = atoms parts := by
  rw [join, String.toList_ofList]
  induction parts with
  | nil => simp [scan]
  | cons part rest ih =>
      rw [List.flatMap_cons]
      cases part with
      | fixed content =>
          rw [legible, Bool.and_eq_true] at h
          rw [text, atoms, scan_chars h.1, ih h.2]
      | name content =>
          rw [legible, Bool.and_eq_true] at h
          have hquote : (rest.flatMap text).head? ≠ some '"' :=
            fun hhead => (head?_of_opens h.1 _ hhead).1 rfl
          rw [text, atoms, scan_name content hquote, ih h.2]
      | param number =>
          rw [legible, Bool.and_eq_true] at h
          have hdigit := fun c hc => (head?_of_opens h.1 c hc).2
          rw [text, atoms, scan_param number hdigit, ih h.2]

/-- The parameters of a text are those of its parts. -/
theorem filterMap_atoms (parts : List SqlPart) :
    (atoms parts).filterMap SqlAtom.number? = parts.filterMap number? := by
  induction parts with
  | nil => rfl
  | cons part rest ih =>
      cases part with
      | fixed content =>
          have hnone : (content.toList.map char).filterMap SqlAtom.number? = [] := by
            rw [List.filterMap_map, List.filterMap_eq_nil_iff]
            intro c _
            rfl
          rw [atoms, List.filterMap_append, hnone, ih]
          rfl
      | name content => exact ih
      | param number => exact congrArg (number :: ·) ih

theorem legible_fixed {content : String} (h : content.toList.all isPlain = true)
    (rest : List SqlPart) : legible (fixed content :: rest) = legible rest := by
  rw [legible, h, Bool.true_and]

theorem opens_append {front rest : List SqlPart} (hfront : opens front = true)
    (hrest : opens rest = true) : opens (front ++ rest) = true := by
  cases front with
  | nil => exact hrest
  | cons part front => cases part <;> exact hfront

/-- Legible parts are legible behind one another if nothing runs together. -/
theorem legible_append {front rest : List SqlPart} (hfront : legible front = true)
    (hopens : opens rest = true) (hrest : legible rest = true) :
    legible (front ++ rest) = true := by
  induction front with
  | nil => exact hrest
  | cons part front ih =>
      cases part with
      | fixed content =>
          rw [legible, Bool.and_eq_true] at hfront
          simp [legible, hfront.1, ih hfront.2]
      | name | param =>
          rw [legible, Bool.and_eq_true] at hfront
          simp [legible, opens_append hfront.1 hopens, ih hfront.2]

section Separated

variable {α : Type} {separator : String} {member : α → List SqlPart}

theorem opens_continued (h : opens [fixed separator] = true) (members : List (List SqlPart)) :
    opens (continued separator members) = true := by
  cases members with
  | nil => rfl
  | cons first rest => exact h

/-- A list is legible if its members and its separator are. -/
theorem legible_separated (hopens : opens [fixed separator] = true)
    (hplain : separator.toList.all isPlain = true) (hmember : ∀ a, legible (member a) = true)
    (list : List α) : legible (separated separator (list.map member)) = true := by
  cases list with
  | nil => rfl
  | cons first rest =>
      rw [List.map_cons, separated_cons]
      refine legible_append (hmember first) (opens_continued hopens _) ?_
      induction rest with
      | nil => rfl
      | cons second rest ih =>
          have hmore := legible_append (hmember second) (opens_continued hopens _) ih
          rw [continued] at hmore
          simp [continued, legible, hplain, hmore]

theorem filterMap_separated (separator : String) (member : α → List SqlPart) (list : List α) :
    (separated separator (list.map member)).filterMap number? =
      list.flatMap fun a => (member a).filterMap number? := by
  cases list with
  | nil => rfl
  | cons first rest =>
      rw [List.map_cons, separated_cons, List.filterMap_append, continued, List.filterMap_flatMap,
        List.flatMap_map]
      rfl

end Separated

end SqlPart

/-! ## The parts of a request -/

namespace Request

open SqlPart

/-- How the beginning of a statement is written. -/
inductive Begun (request : Request) : List SqlPart → Prop
  | select (columns : List String) (action : request.action = .select columns) :
      Begun request (fixed "SELECT " :: request.target columns ++
        [fixed " FROM ", name request.table])
  | insertNothing (action : request.action = .insert .empty) :
      Begun request [fixed "INSERT INTO ", name request.table, fixed " DEFAULT VALUES"]
  | insert (record : Record) (action : request.action = .insert record)
      (some : record.isEmpty = false) : Begun request (insertion request.table record.placed)
  | update (values : Record) (action : request.action = .update values) :
      Begun request (setting request.table values.placed)
  | delete (action : request.action = .delete) : Begun request (deletion request.table)

variable (request : Request)

/-- The beginning of a statement is written in one of the ways. -/
theorem begun : request.Begun request.actionParts := by
  cases haction : request.action with
  | select columns =>
      rw [actionParts, haction]
      exact .select columns haction
  | insert record =>
      have hparts : request.actionParts = (Request.insert request.table record).actionParts := by
        rw [actionParts, haction]
        rfl
      cases hempty : record.isEmpty with
      | true =>
          rw [NameMap.isEmpty_iff] at hempty
          subst hempty
          rw [hparts]
          exact .insertNothing haction
      | false =>
          rw [hparts, actionParts_insert hempty]
          exact .insert record haction hempty
  | update values =>
      have hparts : request.actionParts = (Request.update request.table values).actionParts := by
        rw [actionParts, haction]
        rfl
      rw [hparts, actionParts_update]
      exact .update values haction
  | delete =>
      rw [actionParts, haction]
      exact .delete haction

theorem legible_projection (columns : List String) : legible (projection columns) = true := by
  rw [projection]
  split
  · rfl
  · exact legible_separated rfl rfl (fun _ => rfl) columns

theorem legible_target (columns : List String) : legible (request.target columns) = true := by
  rw [target]
  split
  · rfl
  · exact legible_append (legible_projection columns) rfl rfl
  · exact legible_projection columns

theorem legible_insertion (table : String) (placed : List (String × Nat)) :
    legible (insertion table placed) = true := by
  have hcolumns : legible (SqlPart.separated ", "
      (placed.map fun column => [name column.1])) = true :=
    legible_separated rfl rfl (fun _ => rfl) placed
  have hnumbers : legible (SqlPart.separated ", "
      (placed.map fun column => [param column.2])) = true :=
    legible_separated rfl rfl (fun _ => rfl) placed
  have hvalues : legible (SqlPart.separated ", " (placed.map fun column => [param column.2]) ++
      [fixed ")"]) = true := legible_append hnumbers rfl rfl
  have hrest : legible (fixed ") VALUES (" :: (SqlPart.separated ", "
      (placed.map fun column => [param column.2]) ++ [fixed ")"])) = true :=
    (legible_fixed rfl _).trans hvalues
  simpa [insertion, legible, opens, SqlAtom.isPlain] using legible_append hcolumns rfl hrest

/-- The beginning of a statement is read back. -/
theorem legible_actionParts : legible request.actionParts = true := by
  have hbegun := request.begun
  generalize request.actionParts = parts at hbegun ⊢
  cases hbegun with
  | select columns action => exact legible_append (request.legible_target _) rfl rfl
  | insertNothing action => rfl
  | insert record action some => exact legible_insertion _ _
  | update values action => exact legible_separated rfl rfl (fun _ => rfl) _
  | delete action => rfl

theorem legible_comparison (filter : Filter) (number : Nat) :
    legible (filter.parts number) = true := by
  have hsymbol : filter.op.symbol.toList.all SqlAtom.isPlain = true := by
    cases filter.op <;> decide
  simp [Filter.parts, legible, opens, hsymbol, SqlAtom.isPlain]

/-- The conditions of a statement are read back. -/
theorem legible_conditionParts : legible request.conditionParts = true := by
  rw [conditionParts]
  split
  · rfl
  · rw [legible_fixed rfl]
    have hmember : ∀ entry : Filter × Nat, legible (entry.1.parts entry.2) = true :=
      fun entry => legible_comparison entry.1 entry.2
    exact legible_separated rfl rfl hmember _

theorem opens_conditionParts : opens request.conditionParts = true := by
  rw [conditionParts]
  split <;> rfl

def orderParts (order : Option OrderBy) : List SqlPart :=
  match order with
  | some order =>
      [fixed " ORDER BY ", name order.column,
        fixed (if order.ascending then " ASC" else " DESC")]
  | none => []

def limitParts (limit : Option UInt64) : List SqlPart :=
  match limit with
  | some limit => [fixed (" LIMIT " ++ toString limit.toNat)]
  | none => []

/-- How the end of a statement is written. -/
inductive Ended (request : Request) : List SqlPart → Prop
  | changed (mutation : request.isMutation = true) :
      Ended request (if request.returning then rowsWanted else [])
  | read (mutation : request.isMutation = false) :
      Ended request (orderParts (if request.head then none else request.order) ++
        limitParts (if request.head then none else request.limit))

theorem ended : request.Ended request.tailParts := by
  rw [tailParts]
  split
  · next hmutation => exact .changed hmutation
  · next hmutation =>
      have hread : request.Ended _ := .read (Bool.eq_false_iff.2 hmutation)
      split
      · next hhead =>
          rw [if_pos hhead, if_pos hhead] at hread
          exact hread
      · next hhead =>
          rw [if_neg hhead, if_neg hhead] at hread
          exact hread

theorem legible_limitParts (limit : Option UInt64) : legible (limitParts limit) = true := by
  cases limit with
  | none => rfl
  | some limit =>
      have hdigits : (Nat.toDigits 10 limit.toNat).all SqlAtom.isPlain = true := by
        rw [List.all_eq_true]
        intro c hc
        have hdigit : c.isDigit = true := Nat.isDigit_of_mem_toDigits (by decide) (by decide) hc
        simp [SqlAtom.isPlain, ne_of_true_of_false hdigit]
      have hkeyword : " LIMIT ".toList.all SqlAtom.isPlain = true := rfl
      rw [limitParts, legible, String.toList_append, List.all_append, hkeyword,
        Nat.toString_eq_ofList_toDigits, String.toList_ofList, hdigits]
      rfl

theorem opens_limitParts (limit : Option UInt64) : opens (limitParts limit) = true := by
  cases limit <;> simp [limitParts, opens]

theorem legible_orderParts (order : Option OrderBy) : legible (orderParts order) = true := by
  rcases order with _ | ⟨column, _ | _⟩ <;> simp [orderParts, legible, opens, SqlAtom.isPlain]

theorem opens_orderParts (order : Option OrderBy) : opens (orderParts order) = true := by
  cases order <;> rfl

/-- The end of a statement is read back. -/
theorem legible_tailParts : legible request.tailParts = true := by
  have hended := request.ended
  generalize request.tailParts = parts at hended ⊢
  cases hended with
  | changed mutation => split <;> rfl
  | read mutation =>
      exact legible_append (legible_orderParts _) (opens_limitParts _) (legible_limitParts _)

theorem opens_tailParts : opens request.tailParts = true := by
  have hended := request.ended
  generalize request.tailParts = parts at hended ⊢
  cases hended with
  | changed mutation => split <;> rfl
  | read mutation => exact opens_append (opens_orderParts _) (opens_limitParts _)

/-- The statement of a request is read back part by part. -/
theorem legible_parts : legible request.parts = true := by
  rw [parts, List.append_assoc]
  have hrest := legible_append request.legible_conditionParts request.opens_tailParts
    request.legible_tailParts
  exact legible_append request.legible_actionParts
    (opens_append request.opens_conditionParts request.opens_tailParts) hrest

/-! ## Parameters in order -/

theorem filterMap_projection (columns : List String) :
    (projection columns).filterMap number? = [] := by
  rw [projection]
  split
  · rfl
  · simp [filterMap_separated, number?]

theorem filterMap_target (columns : List String) :
    (request.target columns).filterMap number? = [] := by
  rw [target]
  split
  · rfl
  · rw [List.filterMap_append, filterMap_projection]
    rfl
  · exact filterMap_projection columns

/-- An insertion has the numbers of its columns as parameters, in their order. -/
theorem filterMap_insertion (table : String) (placed : List (String × Nat)) :
    (insertion table placed).filterMap number? = placed.map Prod.snd := by
  simp [insertion, number?, List.filterMap_cons, filterMap_separated, ← List.map_eq_flatMap]

theorem filterMap_setting (table : String) (placed : List (String × Nat)) :
    (setting table placed).filterMap number? = placed.map Prod.snd := by
  simp [setting, number?, List.filterMap_cons, filterMap_separated, ← List.map_eq_flatMap]

theorem map_snd_placed (record : Record) :
    record.placed.map Prod.snd = List.range' 1 (record.entries.map Prod.snd).length := by
  rw [Record.placed, List.zipIdx_map_snd, NameMap.names, List.length_map, List.length_map]

/-- The beginning of a statement has the first parameters, in their order. -/
theorem filterMap_actionParts :
    request.actionParts.filterMap number? = List.range' 1 request.actionParams.length := by
  have hbegun := request.begun
  generalize request.actionParts = parts at hbegun ⊢
  rw [actionParams]
  cases hbegun with
  | select columns action =>
      rw [action, List.filterMap_append, List.filterMap_cons, filterMap_target]
      rfl
  | insertNothing action => rw [action]; rfl
  | insert record action some => rw [action, filterMap_insertion, map_snd_placed]
  | update values action => rw [action, filterMap_setting, map_snd_placed]
  | delete action => rw [action]; rfl

/-- The conditions of a statement have the parameters behind those of its beginning. -/
theorem filterMap_conditionParts : request.conditionParts.filterMap number? =
    List.range' (request.actionParams.length + 1) request.filters.length := by
  rw [conditionParts]
  split
  · next hfilters => rw [List.isEmpty_iff.1 hfilters]; rfl
  · have hnumber : ∀ (filter : Filter) (number : Nat),
        (filter.parts number).filterMap number? = [number] := fun _ _ => rfl
    simp [filterMap_separated, number?, List.filterMap_cons, hnumber, ← List.map_eq_flatMap]

theorem filterMap_tailParts : request.tailParts.filterMap number? = [] := by
  have hended := request.ended
  generalize request.tailParts = parts at hended ⊢
  cases hended with
  | changed mutation => split <;> rfl
  | read mutation =>
      rw [List.filterMap_append]
      generalize (if request.head then none else request.order) = order
      generalize (if request.head then none else request.limit) = limit
      cases order <;> cases limit <;> rfl

/-- The parameters of a statement are met in the order of their numbers. -/
theorem filterMap_parts :
    request.parts.filterMap number? = List.range' 1 request.params.length := by
  rw [parts, List.filterMap_append, List.filterMap_append, filterMap_actionParts,
    filterMap_conditionParts, filterMap_tailParts, params, List.length_append, List.length_map,
    List.append_nil, Nat.add_comm _ 1, List.range'_append_1]

/-- Read with its names as atoms, the text of a request has each of its parameters once, in
order. -/
theorem numbers_scan {query : Query} (h : request.toQuery = .ok query) :
    (SqlAtom.scan query.text.toList).filterMap SqlAtom.number? =
      List.range' 1 query.params.length := by
  rw [toQuery] at h
  split at h
  · cases h
  · cases h
    rw [scan_join request.legible_parts, filterMap_atoms, filterMap_parts]

end Request

end ClosedSql
