import ClosedSql.Proofs.Statement.Terms

/-!
# Reading lists

A list is read for as long as commas go on with it, so its reader also says that no comma
follows. Lists of columns and of assignments repeat no name.
-/

namespace ClosedSql.Statement

open Grammar

/-- A list ends where no comma goes on with it. -/
def ListEnds (rest : List Token) : Prop :=
  rest.head? ≠ some .comma

theorem listEnds_of_ne {rest : List Token} (h : ∀ tail, rest ≠ .comma :: tail) : ListEnds rest := by
  cases rest with
  | nil => simp [ListEnds]
  | cons token tail => simpa [ListEnds] using h tail

/-- Names that repeat neither one another nor one of the names before them. -/
def Fresh (names others : List String) : Prop :=
  others.Nodup ∧ ∀ other ∈ others, other ∉ names

section Fresh

variable {names others : List String} {name : String}

theorem fresh_nil (names : List String) : Fresh names [] :=
  ⟨List.nodup_nil, by simp⟩

/-- A name is fresh if it is new and those after it are fresh beside it. -/
theorem fresh_cons_iff :
    Fresh names (name :: others) ↔ name ∉ names ∧ Fresh (name :: names) others := by
  unfold Fresh
  rw [List.nodup_cons, List.forall_mem_cons]
  constructor
  · rintro ⟨⟨hnew, hnodup⟩, hname, hothers⟩
    refine ⟨hname, hnodup, ?_⟩
    intro other hother hmem
    rcases List.mem_cons.1 hmem with rfl | hmem
    · exact hnew hother
    · exact hothers other hother hmem
  · rintro ⟨hname, hnodup, hothers⟩
    refine ⟨⟨?_, hnodup⟩, hname, ?_⟩
    · intro hmem
      exact hothers name hmem List.mem_cons_self
    · intro other hother hmem
      exact hothers other hother (List.mem_cons_of_mem _ hmem)

/-- It makes no difference at which end of the names before it a name is put. -/
theorem fresh_append_iff :
    Fresh names (name :: others) ↔ name ∉ names ∧ Fresh (names ++ [name]) others := by
  rw [fresh_cons_iff]
  simp [Fresh, and_comm]

theorem fresh_singleton_iff : Fresh [name] others ↔ (name :: others).Nodup := by
  have hcons : Fresh [] (name :: others) ↔ name ∉ [] ∧ Fresh [name] others := fresh_cons_iff
  simpa [Fresh] using hcons.symm

end Fresh

/-- Names after commas are read as far as they go, and none of them may repeat. -/
theorem moreNames_eq_ok_iff {names all : List String} {tokens rest : List Token} :
    moreNames names tokens = .ok (all, rest) ↔
      ∃ front others, tokens = front ++ rest ∧ all = names ++ others ∧
        Further Column front others ∧ Fresh names others ∧ ListEnds rest := by
  constructor
  · intro h
    fun_induction moreNames names tokens with
    | case1 => cases h
    | case2 names token tail name hname hnew ih =>
        obtain ⟨front, others, rfl, rfl, hfurther, hfresh, hends⟩ := ih h
        refine ⟨.comma :: ([token] ++ front), name :: others, rfl, by simp,
          .cons (.name (name?_eq_some_iff.1 hname)) hfurther, ?_, hends⟩
        exact fresh_append_iff.2 ⟨by simpa using hnew, hfresh⟩
    | case3 => cases h
    | case4 => cases h
    | case5 names tokens hcomma hlast =>
        cases h
        refine ⟨[], [], rfl, by simp, .nil, fresh_nil all, listEnds_of_ne ?_⟩
        intro tail
        cases tail with
        | nil => exact hlast
        | cons second tail => exact hcomma second tail
  · rintro ⟨front, others, rfl, rfl, hfurther, hfresh, hends⟩
    induction hfurther generalizing names with
    | nil =>
        rw [moreNames.eq_def, List.append_nil, List.nil_append]
        split <;> simp_all [ListEnds]
    | @cons tokens tail column others head _ ih =>
        cases head with
        | @name token column hname =>
            obtain ⟨hnew, hrest⟩ := fresh_append_iff.1 hfresh
            have hmore := ih hrest
            simpa [moreNames, name?_eq_some_iff.2 hname, hnew] using hmore

/-- Operands after commas are read as far as they go. -/
theorem moreOperands_eq_ok_iff {tokens rest : List Token} {slots : List Slot} :
    moreOperands tokens = .ok (slots, rest) ↔
      ∃ front, tokens = front ++ rest ∧ Further Term front slots ∧ ListEnds rest := by
  constructor
  · intro h
    fun_induction moreOperands tokens generalizing slots with
    | case1 tokens slot tail hoperand others left hothers ih =>
        cases h
        obtain ⟨front, rfl, hfurther, hends⟩ := ih hothers
        obtain ⟨value, rfl, hvalue⟩ := operand_eq_ok_iff.1 hoperand
        exact ⟨.comma :: (value ++ front), by simp, .cons hvalue hfurther, hends⟩
    | case2 => cases h
    | case3 => cases h
    | case4 tokens hcomma =>
        cases h
        exact ⟨[], rfl, .nil, listEnds_of_ne hcomma⟩
  · rintro ⟨front, rfl, hfurther, hends⟩
    induction hfurther with
    | nil =>
        rw [moreOperands.eq_def, List.nil_append]
        split
        · simp [ListEnds] at hends
        · rfl
    | @cons value tail slot slots head _ ih =>
        have hoperand := operand_of_term head (tail ++ rest)
        rw [List.cons_append, List.append_assoc, moreOperands]
        split
        · next found left hfound =>
            rw [hoperand] at hfound
            cases hfound
            rw [ih]
        · next hfound =>
            rw [hoperand] at hfound
            cases hfound

/-- An assignment is read just as the grammar has it. -/
theorem assignment_eq_ok_iff {tokens rest : List Token} {found : String × Slot} :
    assignment tokens = .ok (found, rest) ↔
      ∃ front, tokens = front ++ rest ∧ Assignment front found := by
  constructor
  · intro h
    rw [assignment.eq_def] at h
    split at h
    · split at h
      · next hname hoperand =>
          cases h
          obtain ⟨value, rfl, hvalue⟩ := operand_eq_ok_iff.1 hoperand
          exact ⟨_, rfl, .set (name?_eq_some_iff.1 hname) hvalue⟩
      · cases h
    · cases h
  · rintro ⟨front, rfl, h⟩
    cases h with
    | set hname hvalue =>
        simp [assignment, name?_eq_some_iff.2 hname, operand_of_term hvalue]

/-- Assignments after commas are read as far as they go, and no column may repeat. -/
theorem moreAssignments_eq_ok_iff {columns : List String} {tokens rest : List Token}
    {others : List (String × Slot)} :
    moreAssignments columns tokens = .ok (others, rest) ↔
      ∃ front, tokens = front ++ rest ∧ Further Assignment front others ∧
        Fresh columns (others.map Prod.fst) ∧ ListEnds rest := by
  constructor
  · intro h
    fun_induction moreAssignments columns tokens generalizing others with
    | case1 => cases h
    | case2 columns tokens found tail hfound hnew others left hothers ih =>
        cases h
        obtain ⟨front, rfl, hfurther, hfresh, hends⟩ := ih hothers
        obtain ⟨set, rfl, hset⟩ := assignment_eq_ok_iff.1 hfound
        refine ⟨.comma :: (set ++ front), by simp, .cons hset hfurther, ?_, hends⟩
        exact fresh_cons_iff.2 ⟨by simpa using hnew, hfresh⟩
    | case3 => cases h
    | case4 => cases h
    | case5 columns tokens hcomma =>
        cases h
        exact ⟨[], rfl, .nil, fresh_nil columns, listEnds_of_ne hcomma⟩
  · rintro ⟨front, rfl, hfurther, hfresh, hends⟩
    induction hfurther generalizing columns with
    | nil =>
        rw [moreAssignments.eq_def, List.nil_append]
        split
        · simp [ListEnds] at hends
        · rfl
    | @cons set tail found others head _ ih =>
        obtain ⟨hnew, hrest⟩ := fresh_cons_iff.1 hfresh
        have hassignment : assignment (set ++ (tail ++ rest)) = .ok (found, tail ++ rest) :=
          assignment_eq_ok_iff.2 ⟨set, rfl, head⟩
        rw [List.cons_append, List.append_assoc, moreAssignments]
        split
        · next hfound =>
            rw [hassignment] at hfound
            cases hfound
            rw [if_neg (by simpa using hnew), ih hrest]
        · next hfound =>
            rw [hassignment] at hfound
            cases hfound

end ClosedSql.Statement
