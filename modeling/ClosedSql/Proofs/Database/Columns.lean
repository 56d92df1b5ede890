import ClosedSql.Proofs.Memory.Selection
import ClosedSql.Proofs.Sql.Lossless

/-!
# The columns of a selection

The list of a selection can be read back from its SQL: a star asks for every column, a name for one,
and anything else for something computed. Tables in memory take those columns of a row that the list
asks for. The one exception is a selection of no columns, which is written with a star.
-/

namespace ClosedSql

/-! ## Reading the list -/

/-- What a member of the list of a selection asks for. -/
inductive Wanted
  | everything
  | column (name : String)
  | computed
deriving DecidableEq

/-- A star and a name stand alone, but for blanks before them. -/
def Wanted.ofMember (member : List SqlAtom) : Wanted :=
  match member.dropWhile fun atom => atom = .char ' ' with
  | [.char '*'] => everything
  | [.name name] => column name
  | _ => computed

namespace SqlAtom

/-- The atoms before the first occurrence of a word, all of them if there is none. -/
def before (word : List SqlAtom) : List SqlAtom → List SqlAtom
  | [] => []
  | atom :: rest => if word.isPrefixOf (atom :: rest) then [] else atom :: before word rest

/-- A word is not found before an atom that is its second one, and not its first. -/
theorem before_append {first second : SqlAtom} (hne : second ≠ first) (tail : List SqlAtom)
    {front : List SqlAtom} (h : second ∉ front) (rest : List SqlAtom) :
    before (first :: second :: tail) (front ++ (first :: second :: tail ++ rest)) = front := by
  induction front with
  | nil =>
      have hprefix : (first :: second :: tail).isPrefixOf (first :: second :: tail ++ rest) =
          true := List.isPrefixOf_iff_prefix.2 (List.prefix_append _ _)
      exact if_pos hprefix
  | cons atom front ih =>
      rw [List.mem_cons, not_or] at h
      obtain ⟨-, hfront⟩ := h
      -- the second atom of the word would stand next, be it in front or where the word begins
      have hnot : (first :: second :: tail).isPrefixOf
          (atom :: (front ++ (first :: second :: tail ++ rest))) = false := by
        cases front with
        | nil => simp [List.isPrefixOf, hne]
        | cons next front =>
            rw [List.mem_cons, not_or] at hfront
            simp [List.isPrefixOf, hfront.1]
      rw [List.cons_append, before, hnot, if_neg Bool.false_ne_true, ih hfront]

end SqlAtom

namespace Query

/-- What the list of a text that begins with `SELECT` asks for. -/
def wanted (query : Query) : List Wanted :=
  let list := SqlAtom.before (" FROM ".toList.map .char)
    ((SqlAtom.scan query.text.toList).drop "SELECT ".length)
  (list.splitOn (.char ',')).map .ofMember

def AsksFor (query : Query) (column : String) : Prop :=
  .everything ∈ query.wanted ∨ .column column ∈ query.wanted

end Query

/-! ## The list that is written -/

namespace Request

open SqlPart SqlAtom

/-- The members of a list of names are divided by its commas. -/
theorem splitOn_continued {front : List SqlAtom} (h : SqlAtom.char ',' ∉ front)
    (columns : List String) :
    (front ++ atoms (continued ", " (columns.map fun column => [name column]))).splitOn
        (SqlAtom.char ',') =
      front :: columns.map fun column => [SqlAtom.char ' ', SqlAtom.name column] := by
  induction columns generalizing front with
  | nil =>
      rw [List.map_nil, continued, List.flatMap_nil, atoms, List.append_nil]
      exact List.splitOn_eq_singleton h
  | cons column columns ih =>
      have hatoms : atoms (continued ", " ((column :: columns).map fun column => [name column])) =
          SqlAtom.char ',' :: ([SqlAtom.char ' ', SqlAtom.name column] ++
            atoms (continued ", " (columns.map fun column => [name column]))) := rfl
      rw [hatoms, List.splitOn_append_cons_self, List.splitOn_eq_singleton h, ih (by simp)]
      rfl

/-- The list of columns, cut at its commas, gives every column back. -/
theorem splitOn_projection (columns : List String) :
    ((atoms (projection columns)).splitOn (SqlAtom.char ',')).map Wanted.ofMember =
      if columns.isEmpty || asksForAll columns then [.everything]
      else columns.map Wanted.column := by
  rw [projection]
  split
  · rfl
  · cases columns with
    | nil => simp at *
    | cons first rest =>
        rw [List.map_cons, separated_cons, atoms_append,
          splitOn_continued (by simp [atoms]), List.map_cons, List.map_map]
        rfl

theorem splitOn_target (request : Request) (columns : List String) (head : request.head = false) :
    ((atoms (request.target columns)).splitOn (SqlAtom.char ',')).map Wanted.ofMember =
      (if columns.isEmpty || asksForAll columns then [.everything]
        else columns.map Wanted.column) ++ if request.counted then [.computed] else [] := by
  rw [target_eq, head, Bool.and_false, if_neg Bool.false_ne_true, ← splitOn_projection,
    atoms_append]
  cases request.counted with
  | false => simp [countParts]
  | true =>
      have hcount : atoms (countParts true) = SqlAtom.char ',' ::
          (" count(*) OVER () AS ".toList.map SqlAtom.char ++ [.name countColumn]) := rfl
      rw [hcount, List.splitOn_append_cons_self, List.map_append]
      rfl

/-- No keyword begins with an `F` before the table is named. -/
theorem not_mem_target (request : Request) (columns : List String) :
    SqlAtom.char 'F' ∉ atoms (request.target columns) := by
  have hlist : ∀ list : List String,
      SqlAtom.char 'F' ∉ atoms (continued ", " (list.map fun column => [name column])) := by
    intro list
    induction list with
    | nil => simp [continued]
    | cons column list ih => simpa [continued] using ih
  have hprojection : SqlAtom.char 'F' ∉ atoms (projection columns) := by
    rw [projection]
    split
    · simp
    · cases columns with
      | nil => simp [SqlPart.separated]
      | cons first rest => simpa [separated_cons] using hlist rest
  rw [target_eq]
  split
  · simp
  · cases request.counted <;> simp [countParts, hprojection]

/-- The list of a selection of rows is read back as the columns asked for, and the number of rows
beside them where it is wanted. -/
theorem wanted_toQuery {request : Request} {columns : List String}
    (action : request.action = .select columns) (head : request.head = false) :
    ∃ query, request.toQuery = .ok query ∧
      query.wanted = (if columns.isEmpty || asksForAll columns then [.everything]
        else columns.map Wanted.column) ++ if request.counted then [.computed] else [] := by
  have hsets : ¬request.setsNothing = true := by
    rw [setsNothing, action]
    exact Bool.false_ne_true
  have hparts : request.parts = fixed "SELECT " :: (request.target columns ++
      (fixed " FROM " :: name request.table :: (request.conditionParts ++ request.tailParts))) := by
    simp [parts, actionParts, action]
  have hscan := scan_join request.legible_parts
  rw [hparts, atoms, atoms_append, atoms] at hscan
  refine ⟨⟨join request.parts, request.params⟩, if_neg hsets, ?_⟩
  have hlength : "SELECT ".length = ("SELECT ".toList.map SqlAtom.char).length := rfl
  rw [Query.wanted, hparts, hscan, hlength, List.drop_left]
  have hne : SqlAtom.char 'F' ≠ .char ' ' := by decide
  have hlist := before_append hne ("ROM ".toList.map .char) (request.not_mem_target columns)
    (atoms (name request.table :: (request.conditionParts ++ request.tailParts)))
  rw [← request.splitOn_target columns head]
  exact congrArg (fun list => (List.splitOn (SqlAtom.char ',') list).map Wanted.ofMember) hlist

/-- A text asks for the columns of its request, and for every column if a star is among them. -/
theorem asksFor_iff {request : Request} {columns : List String} {query : Query}
    (h : query.wanted = (if columns.isEmpty || asksForAll columns then [.everything]
      else columns.map Wanted.column) ++ if request.counted then [.computed] else [])
    (column : String) : query.AsksFor column ↔ columns = [] ∨ "*" ∈ columns ∨ column ∈ columns := by
  have hall : (columns.isEmpty || asksForAll columns) = true ↔ columns = [] ∨ "*" ∈ columns := by
    rw [Bool.or_eq_true, List.isEmpty_iff, asksForAll, List.contains_iff_mem]
  rw [Query.AsksFor, h, ← or_assoc, ← hall]
  split
  · next hstar => simp [hstar]
  · next hstar => cases request.counted <;> simp [hstar]

end Request

/-! ## Both stores -/

namespace Table

/-- What is taken of a row are its columns that are listed, or all of them with a star. -/
theorem get?_project {columns : List String} {row : Record} {column : String} {value : Value} :
    (project columns row).get? column = some value ↔
      ("*" ∈ columns ∨ column ∈ columns) ∧ row.get? column = some value := by
  have hprojects := projects_project columns row
  rw [Projects] at hprojects
  by_cases hstar : "*" ∈ columns
  · rw [if_pos hstar] at hprojects
    simp [hprojects, hstar]
  · rw [if_neg hstar] at hprojects
    rw [hprojects]
    by_cases hmem : column ∈ columns <;> simp [hstar, hmem]

end Table

namespace Memory

variable {memory : Memory} {request : Request} {table : Table} {columns : List String}

/-- Of every row that is answered, tables in memory take the columns that the list of the SQL asks
for, unless no column is listed at all; then the SQL asks for all of them, and tables in memory take
none. -/
theorem projected_as_written (free : memory.failures = [])
    (found : memory.tables.get? request.table = some table)
    (action : request.action = .select columns) (head : request.head = false)
    (now : Calendar.Instant) :
    ∃ query answer, request.toQuery = .ok query ∧
      memory.execute now request = (.ok answer, memory.recording request) ∧
      (∀ column, query.AsksFor column ↔ columns = [] ∨ "*" ∈ columns ∨ column ∈ columns) ∧
      List.Forall₂ (fun row taken => ∀ column value, taken.get? column = some value ↔
          columns ≠ [] ∧ query.AsksFor column ∧ row.get? column = some value)
        (Table.cut (Table.sort (table.matching now request) request.order) request.limit)
        answer.rows := by
  obtain ⟨query, hquery, hwanted⟩ := Request.wanted_toQuery action head
  have hasks := Request.asksFor_iff hwanted
  refine ⟨query, _, hquery, execute_select free found action now, hasks, ?_⟩
  rw [Table.answer, head, if_neg Bool.false_ne_true]
  refine List.forall₂_map_right_iff.2 (List.forall₂_same.2 ?_)
  intro row _ column value
  rw [Table.get?_project, hasks]
  cases columns with
  | nil => simp
  | cons first rest => simp

def titledNotes : Memory :=
  empty.withRows "notes"
    [.ofList [("title", .text "a"), ("rank", .int 2)], .ofList [("title", .text "b")]]

/-- Title and rank, the one asked for twice, of all notes and with their number. -/
def titlesAndRanks : Request :=
  (Request.select "notes" ["title", "rank", "title"]).counting

theorem projected_as_written_titlesAndRanks :
    ∃ table, titledNotes.failures = [] ∧ titledNotes.tables.get? titlesAndRanks.table = some table ∧
      titlesAndRanks.action = .select ["title", "rank", "title"] ∧ titlesAndRanks.head = false ∧
      ∃ query answer, titlesAndRanks.toQuery = .ok query ∧
        titledNotes.execute ⟨0, 0⟩ titlesAndRanks =
            (.ok answer, titledNotes.recording titlesAndRanks) ∧
        (∀ column, query.AsksFor column ↔ ["title", "rank", "title"] = [] ∨
          "*" ∈ ["title", "rank", "title"] ∨ column ∈ ["title", "rank", "title"]) ∧
        List.Forall₂ (fun row taken => ∀ column value, taken.get? column = some value ↔
            ["title", "rank", "title"] ≠ [] ∧ query.AsksFor column ∧ row.get? column = some value)
          (Table.cut (Table.sort (table.matching ⟨0, 0⟩ titlesAndRanks) titlesAndRanks.order)
            titlesAndRanks.limit)
          answer.rows :=
  ⟨_, rfl, rfl, rfl, rfl, projected_as_written rfl rfl rfl rfl ⟨0, 0⟩⟩

/-- A selection of no columns takes none of them in memory, but asks for all of them in SQL. -/
theorem projected_otherwise :
    titledNotes.rows "notes" =
        [.ofList [("id", .int 1), ("title", .text "a"), ("rank", .int 2)],
          .ofList [("id", .int 2), ("title", .text "b")]] ∧
      (titledNotes.execute ⟨0, 0⟩ (Request.select "notes" [])).1 = .ok (.ofRows [.empty, .empty]) ∧
      ∃ query, (Request.select "notes" []).toQuery = .ok query ∧
        query.text = "SELECT * FROM \"notes\"" ∧ query.wanted = [.everything] := by
  refine ⟨rfl, rfl, ?_⟩
  have haction : (Request.select "notes" []).action = .select [] := rfl
  obtain ⟨query, hquery, hwanted⟩ := Request.wanted_toQuery haction rfl
  refine ⟨query, hquery, ?_, hwanted⟩
  obtain rfl := Except.ok.inj hquery
  rfl

end Memory

end ClosedSql
