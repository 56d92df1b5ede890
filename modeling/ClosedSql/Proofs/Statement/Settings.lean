import ClosedSql.Proofs.Statement.Clauses
import ClosedSql.Proofs.Statement.Parting
import ClosedSql.Proofs.Statement.Print

/-!
# Settings

What a change sets, one column after the other, each to an operand of one token. Every setting is
read by itself, so a change is accepted if each of its settings can be read and no column is set
twice.
-/

namespace ClosedSql

namespace Statement

/-- The slot that is written as a token. -/
def slot? : Token → Option Slot
  | .placeholder => some .placeholder
  | .quotedText text => some (.literal (.text text))
  | .number text => (numberLiteral? text).map .literal
  | .word text => (wordLiteral? text).map .literal
  | _ => none

/-- An operand that no parenthesis follows is a single token. -/
theorem operand_cons_eq_ok_iff {token : Token} {rest tail : List Token} {slot : Slot}
    (h : rest.head? ≠ some .leftParen) :
    operand (token :: rest) = .ok (slot, tail) ↔ slot? token = some slot ∧ tail = rest := by
  have hok : ∀ found : Slot, Except.ok (found, rest) = (.ok (slot, tail) : Except Reason _) ↔
      some found = some slot ∧ tail = rest := by
    intro found
    rw [Except.ok.injEq, Prod.mk.injEq, Option.some.injEq, eq_comm (a := rest)]
  cases token with
  | placeholder => exact hok _
  | quotedText text => exact hok _
  | number text =>
      rw [operand, slot?]
      cases numberLiteral? text with
      | none => simp
      | some value => exact hok _
  | word text =>
      rw [operand.eq_def, slot?]
      cases hvalue : wordLiteral? text with
      | some value =>
          simp only [hvalue]
          exact hok _
      | none =>
          simp only [hvalue]
          split
          · next heq => cases heq
          · next heq => exact absurd rfl h
          · simp
  | _ => simp [operand, slot?]

end Statement

/-- A column that a change sets, the operand that it is set to, and the parameter for that operand,
should it be a placeholder. -/
structure Setting where
  column : Token
  operand : Token
  param : Value

namespace Setting

def tokens (setting : Setting) : List Token :=
  [setting.column, .operator .equals, setting.operand]

def params (settings : List Setting) : List Value :=
  (settings.filter fun setting => setting.operand = .placeholder).map Setting.param

/-- The column and the slot that a setting is read as. -/
def pair? (setting : Setting) : Option (String × Slot) :=
  (Statement.name? setting.column).bind fun column =>
    (Statement.slot? setting.operand).map fun slot => (column, slot)

theorem pair?_eq_some_iff {setting : Setting} {column : String} {slot : Slot} :
    setting.pair? = some (column, slot) ↔
      Statement.name? setting.column = some column ∧
        Statement.slot? setting.operand = some slot := by
  rw [pair?, Option.bind_eq_some_iff]
  simp only [Option.map_eq_some_iff, Prod.mk.injEq]
  constructor
  · rintro ⟨_, hcolumn, _, hslot, rfl, rfl⟩
    exact ⟨hcolumn, hslot⟩
  · rintro ⟨hcolumn, hslot⟩
    exact ⟨column, hcolumn, slot, hslot, rfl, rfl⟩

end Setting

/-- What stands around the settings of a change: keywords in any case, and the table. -/
structure Opening where
  update : String
  table : Token
  set : String
  closing : String
  isUpdate : Token.isKeyword "update" (.word update) = true
  isSet : Token.isKeyword "set" (.word set) = true
  isWhere : Token.isKeyword "where" (.word closing) = true

def Opening.tokens (opening : Opening) (settings : List Setting) : List Token :=
  .word opening.update :: opening.table :: .word opening.set ::
    (separated Setting.tokens settings ++ [.word opening.closing])

namespace Statement

/-- A setting is read as an assignment of its column and slot. -/
theorem assignment_tokens_eq_ok_iff {setting : Setting} {rest tail : List Token}
    {found : String × Slot} (h : rest.head? ≠ some .leftParen) :
    assignment (setting.tokens ++ rest) = .ok (found, tail) ↔
      setting.pair? = some found ∧ tail = rest := by
  obtain ⟨column, slot⟩ := found
  have hread : operand (setting.operand :: rest) = .ok (slot, tail) ↔
      slot? setting.operand = some slot ∧ tail = rest := operand_cons_eq_ok_iff h
  rw [Setting.pair?_eq_some_iff, and_assoc, ← hread]
  change assignment (setting.column :: .operator .equals :: setting.operand :: rest) = _ ↔ _
  rw [assignment]
  cases name? setting.column with
  | none => simp
  | some name =>
      cases operand (setting.operand :: rest) with
      | error reason => simp
      | ok read =>
          obtain ⟨other, left⟩ := read
          simp [and_assoc]

/-- Further settings are read one after the other. -/
theorem moreAssignments_tokens_eq_ok_iff {settings : List Setting} {rest tail : List Token}
    {columns : List String} {found : List (String × Slot)} (hparen : rest.head? ≠ some .leftParen)
    (hends : ListEnds rest) :
    moreAssignments columns (settings.flatMap (fun setting => .comma :: setting.tokens) ++ rest) =
        .ok (found, tail) ↔
      settings.map Setting.pair? = found.map some ∧ Fresh columns (found.map Prod.fst) ∧
        tail = rest := by
  have hparens : ∀ others : List Setting,
      (others.flatMap (fun setting => .comma :: setting.tokens) ++ rest).head? ≠
        some .leftParen := by
    intro others
    cases others with
    | nil => exact hparen
    | cons other others => exact nofun
  induction settings generalizing columns found tail with
  | nil =>
      have hcomma : ∀ others, rest ≠ .comma :: others := by
        rintro others rfl
        exact hends rfl
      rw [List.flatMap_nil, List.nil_append, moreAssignments_of_ne columns hcomma, Except.ok.injEq,
        Prod.mk.injEq, List.map_nil]
      constructor
      · rintro ⟨rfl, rfl⟩
        exact ⟨rfl, fresh_nil columns, rfl⟩
      · rintro ⟨hfound, -, rfl⟩
        exact ⟨(List.map_eq_nil_iff.1 hfound.symm).symm, rfl⟩
  | cons setting settings ih =>
      rw [List.flatMap_cons, List.cons_append, List.cons_append, List.append_assoc,
        moreAssignments_comma, bind_eq_ok_iff]
      constructor
      · rintro ⟨⟨⟨column, slot⟩, left⟩, hfirst, hmore⟩
        obtain ⟨hentry, rfl⟩ := (assignment_tokens_eq_ok_iff (hparens settings)).1 hfirst
        split at hmore
        · cases hmore
        · next hnew =>
            obtain ⟨⟨others, left⟩, hothers, heq⟩ := bind_eq_ok_iff.1 hmore
            cases heq
            obtain ⟨hentries, hfresh, rfl⟩ := ih.1 hothers
            refine ⟨?_, fresh_cons_iff.2 ⟨by simpa using hnew, hfresh⟩, rfl⟩
            rw [List.map_cons, List.map_cons, hentry, hentries]
      · rintro ⟨hentries, hfresh, rfl⟩
        cases found with
        | nil => cases hentries
        | cons entry others =>
            rw [List.map_cons, List.map_cons, List.cons.injEq] at hentries
            obtain ⟨hnew, hrest⟩ := fresh_cons_iff.1 hfresh
            refine ⟨_, (assignment_tokens_eq_ok_iff (hparens settings)).2 ⟨hentries.1, rfl⟩, ?_⟩
            rw [if_neg (by simpa using hnew)]
            exact bind_eq_ok_iff.2 ⟨_, ih.2 ⟨hentries.2, hrest, rfl⟩, rfl⟩

/-- A change is read by the form of updates. -/
theorem ofTokens_opening (opening : Opening) (first : Setting) (others : List Setting)
    (rest : List Token) :
    ofTokens (opening.tokens (first :: others) ++ rest) =
      updateForm (opening.table :: .word opening.set ::
        (first.tokens ++ (others.flatMap (fun setting => .comma :: setting.tokens) ++
          .word opening.closing :: rest))) := by
  obtain ⟨update, table, set, closing, hupdate, hset, hclosing⟩ := opening
  have hselect : Token.isKeyword "select" (.word update) = false :=
    not_isKeyword hupdate (by decide)
  have hinsert : Token.isKeyword "insert" (.word update) = false :=
    not_isKeyword hupdate (by decide)
  have hform : ∀ tokens, ofTokens (.word update :: tokens) = updateForm tokens := by
    intro tokens
    rw [ofTokens.eq_def]
    simp only [hselect, hinsert, hupdate, if_neg Bool.false_ne_true, if_pos]
  rw [← hform]
  simp [Opening.tokens, separated]

/-- When a change is read, and as what. -/
theorem ofTokens_opening_eq_ok_iff {opening : Opening} {settings : List Setting}
    {rest : List Token} {statement : Statement} (hne : settings ≠ []) :
    ofTokens (opening.tokens settings ++ rest) = .ok statement ↔
      ∃ name found condition tail, name? opening.table = some name ∧
        settings.map Setting.pair? = found.map some ∧ (found.map Prod.fst).Nodup ∧
        Statement.condition rest = .ok (condition, tail) ∧
        finish (.update name found condition) tail = .ok statement := by
  obtain ⟨first, others, rfl⟩ := List.exists_cons_of_ne_nil hne
  rw [ofTokens_opening]
  obtain ⟨update, table, set, closing, -, hset, hclosing⟩ := opening
  have hparen : (.word closing :: rest : List Token).head? ≠ some .leftParen := nofun
  have hends : ListEnds (.word closing :: rest) := nofun
  have hparens : (others.flatMap (fun setting => .comma :: setting.tokens) ++
      .word closing :: rest).head? ≠ some .leftParen := by
    cases others with
    | nil => exact hparen
    | cons other others => exact nofun
  have hkeyword : ∀ (text : String) {token : Token} (tail : List Token),
      token.isKeyword text = true → keyword text (token :: tail) = .ok tail := by
    intro text token tail h
    rw [keyword, if_pos h]
  rw [updateForm, name]
  cases name? table with
  | none =>
      constructor
      · intro h
        cases h
      · rintro ⟨_, _, _, _, hname, -⟩
        cases hname
  | some table =>
      simp only [ok_bind, hkeyword "set" _ hset]
      constructor
      · intro h
        obtain ⟨⟨entry, left⟩, hfirst, h⟩ := bind_eq_ok_iff.1 h
        obtain ⟨hentry, rfl⟩ := (assignment_tokens_eq_ok_iff hparens).1 hfirst
        obtain ⟨⟨more, left⟩, hmore, h⟩ := bind_eq_ok_iff.1 h
        obtain ⟨hentries, hfresh, rfl⟩ := (moreAssignments_tokens_eq_ok_iff hparen hends).1 hmore
        simp only [hkeyword "where" _ hclosing, ok_bind] at h
        obtain ⟨⟨condition, tail⟩, hcondition, hfinish⟩ := bind_eq_ok_iff.1 h
        refine ⟨table, entry :: more, condition, tail, rfl, ?_, fresh_singleton_iff.1 hfresh,
          hcondition, hfinish⟩
        rw [List.map_cons, List.map_cons, hentry, hentries]
      · rintro ⟨name, found, condition, tail, hname, hentries, hdistinct, hcondition, hfinish⟩
        cases hname
        cases found with
        | nil => cases hentries
        | cons entry more =>
            rw [List.map_cons, List.map_cons, List.cons.injEq] at hentries
            rw [(assignment_tokens_eq_ok_iff hparens).2 ⟨hentries.1, rfl⟩, ok_bind]
            dsimp only
            rw [(moreAssignments_tokens_eq_ok_iff hparen hends).2
              ⟨hentries.2, fresh_singleton_iff.2 hdistinct, rfl⟩, ok_bind]
            dsimp only
            rw [hkeyword "where" _ hclosing, ok_bind, hcondition, ok_bind]
            exact hfinish

end Statement

end ClosedSql
