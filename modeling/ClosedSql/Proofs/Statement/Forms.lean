import ClosedSql.Proofs.Statement.Parting

/-!
# Statements that part are read alike

Every form is a sequence of readers. Where two statements part after a value, the rest of the form
fails on both sides, or the end of a count is judged by tokens that are the same on both sides.
-/

namespace ClosedSql.Statement

/-! ## The end of a count -/

theorem dropSemicolon_cons (token : Token) {rest : List Token} (h : rest ≠ []) :
    dropSemicolon (token :: rest) = token :: dropSemicolon rest := by
  obtain ⟨other, others, rfl⟩ := List.exists_cons_of_ne_nil h
  rw [dropSemicolon, dropSemicolon, List.getLast?_cons_cons]
  split
  · rfl
  · rfl

theorem gist_cons (token : Token) {rest : List Token} (h : rest ≠ []) :
    gist (token :: rest) = if weighs token then token :: gist rest else gist rest := by
  rw [gist, dropSemicolon_cons token h, List.filter_cons, gist]

/-- A token that does not weigh changes nothing. -/
theorem gist_cons_of_not_weighs {token : Token} (h : weighs token = false) (rest : List Token) :
    gist (token :: rest) = gist rest := by
  cases rest with
  | nil =>
      have hsemicolon : [token].getLast? ≠ some .semicolon := by
        rintro ⟨⟩
        cases h
      rw [gist, dropSemicolon, if_neg hsemicolon, List.filter_cons, if_neg (by simp [h])]
      rfl
  | cons other others =>
      rw [gist_cons token (List.cons_ne_nil _ _), if_neg (by simp [h])]

/-- Tokens that do not weigh do not matter to the condition of a count. -/
theorem gist_append_of_not_weighs {front : List Token} (h : ∀ token ∈ front, weighs token = false)
    (rest : List Token) : gist (front ++ rest) = gist rest := by
  induction front with
  | nil => rfl
  | cons token front ih =>
      rw [List.forall_mem_cons] at h
      rw [List.cons_append, gist_cons_of_not_weighs h.1, ih h.2]

theorem gist_cons_congr (token : Token) {left right : List Token} (hnil : left = [] ↔ right = [])
    (h : gist left = gist right) : gist (token :: left) = gist (token :: right) := by
  by_cases hleft : left = []
  · rw [hleft, hnil.1 hleft]
  · rw [gist_cons token hleft, gist_cons token (hleft ∘ hnil.2), h]

theorem Blocked.ne_nil {tokens : List Token} (h : Blocked tokens) : tokens ≠ [] := by
  cases h with
  | head rest _ => exact List.cons_ne_nil _ rest

/-- The end of a count is judged alike. -/
theorem Parted.gist {left right : List Token} (h : Parted left right) :
    gist left = gist right ∧ (dropSemicolon left).isEmpty = (dropSemicolon right).isEmpty := by
  induction h with
  | nil => exact ⟨rfl, rfl⟩
  | @cons token left right tail ih =>
      cases tail with
      | nil => exact ⟨rfl, rfl⟩
      | cons other tail =>
          rw [gist_cons _ (List.cons_ne_nil _ _), gist_cons _ (List.cons_ne_nil _ _), ih.1,
            dropSemicolon_cons _ (List.cons_ne_nil _ _), dropSemicolon_cons _ (List.cons_ne_nil _ _)]
          exact ⟨rfl, rfl⟩
      | value values stuck =>
          rw [gist_cons _ (List.cons_ne_nil _ _), gist_cons _ (List.cons_ne_nil _ _), ih.1,
            dropSemicolon_cons _ (List.cons_ne_nil _ _), dropSemicolon_cons _ (List.cons_ne_nil _ _)]
          exact ⟨rfl, rfl⟩
  | value values stuck =>
      rw [gist_cons _ stuck.first.ne_nil, gist_cons _ stuck.second.ne_nil,
        values.isValue.1.weighs, values.isValue.2.weighs, stuck.gist,
        dropSemicolon_cons _ stuck.first.ne_nil, dropSemicolon_cons _ stuck.second.ne_nil]
      exact ⟨rfl, rfl⟩

theorem any_filter_weighs {p : Token → Bool} (h : ∀ token, p token = true → weighs token = true)
    (tokens : List Token) : (tokens.filter weighs).any p = tokens.any p := by
  rw [List.any_filter]
  congr 1
  funext token
  cases hp : p token with
  | false => rw [Bool.and_false]
  | true => rw [h token hp, Bool.true_and]

/-- The end of a count is judged by whether there is one and by its gist. -/
theorem beyondCondition_eq (tokens : List Token) :
    beyondCondition tokens =
      if (dropSemicolon tokens).isEmpty || (gist tokens).any isBlocking then .error .notRecognized
      else .ok (.beyond
        (if (gist tokens).any fun token => token.isKeyword "and" || token.isKeyword "or" then
          .ambiguous else .notRecognized)
        ((gist tokens).count .placeholder)) := by
  have hblocking : ∀ token, isBlocking token = true → weighs token = true := by
    intro token h
    simp [weighs, h]
  have hjoins : ∀ token : Token, (token.isKeyword "and" || token.isKeyword "or") = true →
      weighs token = true := by
    intro token h
    rw [weighs, Bool.or_assoc, h, Bool.or_true]
  rw [beyondCondition, gist, any_filter_weighs hblocking, any_filter_weighs hjoins,
    List.count_filter (by rfl)]

/-- Tokens that part are judged alike as a condition beyond one comparison. -/
theorem beyondCondition_alike {left right : List Token} (h : Parted left right) :
    beyondCondition left = beyondCondition right := by
  rw [beyondCondition_eq, beyondCondition_eq, h.gist.1, h.gist.2]

/-! ## Forms -/

theorem limit_absent {tokens : List Token} (h : startsWith "limit" tokens = false)
    (statement : Option UInt64 → Statement) :
    (limitClause tokens >>= fun found => finish (statement found.1) found.2) =
      finish (statement none) tokens := by
  rw [limitClause, h]
  rfl

/-- Where a statement is stuck behind its limit, it does not matter what the limit is. -/
theorem limit_stuck {keyword value : Token} {rest : List Token}
    (hkeyword : keyword.isKeyword "limit" = true) (h : Blocked rest)
    (statement : Option UInt64 → Statement) :
    (limitClause (keyword :: value :: rest) >>= fun found => finish (statement found.1) found.2) =
      .error .notRecognized := by
  rw [limitClause, startsWith, if_pos hkeyword, List.drop_one, List.tail_cons]
  split
  · next heq =>
      cases heq
      split
      · exact h.finish _
      · rfl
  · rfl

section Forms

variable {left right : List Token} (h : Parted left right)

include h

/-- A limit is the end of its statement. -/
theorem limit_alike (statement : Option UInt64 → Statement) :
    Alike Eq (limitClause left >>= fun found => finish (statement found.1) found.2)
      (limitClause right >>= fun found => finish (statement found.1) found.2) := by
  cases hstart : startsWith "limit" left with
  | false =>
      rw [limit_absent hstart,
        limit_absent ((startsWith_alike h (by decide)).symm.trans hstart)]
      exact finish_alike h _
  | true =>
      cases h with
      | nil => cases hstart
      | value values stuck =>
          rw [startsWith, values.isValue.1.isKeyword (by decide)] at hstart
          cases hstart
      | @cons keyword left right tail =>
          have hkeyword : keyword.isKeyword "limit" = true := hstart
          cases tail with
          | nil =>
              rw [limitClause, startsWith, if_pos hkeyword]
              exact .failed _
          | value values stuck =>
              rw [limit_stuck hkeyword stuck.first, limit_stuck hkeyword stuck.second]
              exact .failed _
          | @cons token left right tail =>
              rw [limitClause, limitClause, startsWith, startsWith, if_pos hkeyword, if_pos hkeyword,
                List.drop_one, List.tail_cons, List.drop_one, List.tail_cons]
              cases token with
              | number text =>
                  dsimp only
                  split
                  · exact finish_alike tail _
                  · exact .failed _
              | _ => exact .failed _

theorem insertForm_alike : Alike Eq (insertForm left) (insertForm right) := by
  rw [insertForm, insertForm]
  refine (keyword_alike h (by decide)).bind fun left right _ h => ?_
  refine (name_alike h).bind ?_
  rintro ⟨table, left⟩ ⟨_, right⟩ - ⟨rfl, h⟩
  refine (mark_alike h (by simp)).bind fun left right _ h => ?_
  refine (name_alike h).bind ?_
  rintro ⟨column, left⟩ ⟨_, right⟩ - ⟨rfl, h⟩
  refine (moreNames_alike [column] h).bind ?_
  rintro ⟨columns, left⟩ ⟨_, right⟩ - ⟨rfl, h⟩
  refine (mark_alike h (by simp)).bind fun left right _ h => ?_
  refine (keyword_alike h (by decide)).bind fun left right _ h => ?_
  refine (mark_alike h (by simp)).bind fun left right _ h => ?_
  refine (operand_alike h).bind ?_
  rintro ⟨value, left⟩ ⟨other, right⟩ - (⟨hvalue, h⟩ | ⟨-, stuck⟩)
  · obtain rfl : value = other := hvalue
    refine (moreOperands_alike h).bind ?_
    rintro ⟨values, left⟩ ⟨others, right⟩ - (⟨hvalues, h⟩ | ⟨-, stuck⟩)
    · obtain rfl : values = others := hvalues
      refine (mark_alike h (by simp)).bind fun left right _ h => ?_
      exact finish_alike h _
    · dsimp only at stuck ⊢
      rw [stuck.first.rightParen, stuck.second.rightParen]
      exact .failed _
  · dsimp only at stuck ⊢
    rw [stuck.first.moreOperands, stuck.second.moreOperands, ok_bind, ok_bind]
    dsimp only
    rw [stuck.first.rightParen, stuck.second.rightParen]
    exact .failed _

theorem updateForm_alike : Alike Eq (updateForm left) (updateForm right) := by
  rw [updateForm, updateForm]
  refine (name_alike h).bind ?_
  rintro ⟨table, left⟩ ⟨_, right⟩ - ⟨rfl, h⟩
  refine (keyword_alike h (by decide)).bind fun left right _ h => ?_
  refine (assignment_alike h).bind ?_
  rintro ⟨first, left⟩ ⟨other, right⟩ - (⟨hfirst, h⟩ | ⟨-, stuck⟩)
  · obtain rfl : first = other := hfirst
    refine (moreAssignments_alike [first.1] h).bind ?_
    rintro ⟨more, left⟩ ⟨others, right⟩ - (⟨hmore, h⟩ | ⟨-, stuck⟩)
    · obtain rfl : more = others := hmore
      refine (keyword_alike h (by decide)).bind fun left right _ h => ?_
      refine (condition_alike h).bind ?_
      rintro ⟨found, left⟩ ⟨other, right⟩ - (⟨hfound, h⟩ | ⟨-, stuck⟩)
      · obtain rfl : found = other := hfound
        exact finish_alike h _
      · dsimp only at stuck ⊢
        rw [stuck.first.finish, stuck.second.finish]
        exact .failed _
    · dsimp only at stuck ⊢
      rw [(stuck.first.keyword (by decide)).1, (stuck.second.keyword (by decide)).1]
      exact .failed _
  · dsimp only at stuck ⊢
    rw [stuck.first.moreAssignments, stuck.second.moreAssignments, ok_bind, ok_bind]
    dsimp only
    rw [(stuck.first.keyword (by decide)).1, (stuck.second.keyword (by decide)).1]
    exact .failed _

theorem deleteForm_alike : Alike Eq (deleteForm left) (deleteForm right) := by
  rw [deleteForm, deleteForm]
  refine (keyword_alike h (by decide)).bind fun left right _ h => ?_
  refine (name_alike h).bind ?_
  rintro ⟨table, left⟩ ⟨_, right⟩ - ⟨rfl, h⟩
  refine (keyword_alike h (by decide)).bind fun left right _ h => ?_
  refine (condition_alike h).bind ?_
  rintro ⟨found, left⟩ ⟨other, right⟩ - (⟨hfound, h⟩ | ⟨-, stuck⟩)
  · obtain rfl : found = other := hfound
    exact finish_alike h _
  · dsimp only at stuck ⊢
    rw [stuck.first.finish, stuck.second.finish]
    exact .failed _

theorem selectForm_alike : Alike Eq (selectForm left) (selectForm right) := by
  rw [selectForm, selectForm]
  refine (mark_alike h (by simp)).bind fun left right _ h => ?_
  refine (keyword_alike h (by decide)).bind fun left right _ h => ?_
  refine (name_alike h).bind ?_
  rintro ⟨table, left⟩ ⟨_, right⟩ - ⟨rfl, h⟩
  refine (whereClause_alike h).bind ?_
  rintro ⟨found, left⟩ ⟨other, right⟩ - (⟨hfound, h⟩ | ⟨-, stuck⟩)
  · obtain rfl : found = other := hfound
    refine (orderClause_alike h).bind ?_
    rintro ⟨order, left⟩ ⟨_, right⟩ - ⟨rfl, h⟩
    exact limit_alike h _
  · -- Neither an order nor a limit comes next, and the statement does not end.
    have hend : ∀ {tokens : List Token}, Blocked tokens → orderClause tokens = .ok (none, tokens) ∧
        limitClause tokens = .ok (none, tokens) := by
      intro tokens hblocked
      rw [orderClause, limitClause, (hblocked.keyword (by decide)).2,
        (hblocked.keyword (by decide : "limit" ∈ _)).2]
      exact ⟨rfl, rfl⟩
    dsimp only at stuck ⊢
    rw [(hend stuck.first).1, (hend stuck.second).1, ok_bind, ok_bind]
    dsimp only
    rw [(hend stuck.first).2, (hend stuck.second).2, ok_bind, ok_bind]
    dsimp only
    rw [stuck.first.finish, stuck.second.finish]
    exact .failed _

theorem countFilter_alike (table : String) (label : Option String) :
    Alike Eq (countFilter table label left) (countFilter table label right) := by
  have hbeyond : ∀ {outcome : Except Reason CountFilter},
      Alike Eq (outcome.map (Statement.count table label))
        (outcome.map (Statement.count table label)) := by
    intro outcome
    cases outcome with
    | error reason => exact .failed _
    | ok filter => exact .read rfl
  have hcondition := condition_alike h
  rw [countFilter, countFilter, beyondCondition_alike h]
  generalize condition left = first at hcondition ⊢
  generalize condition right = second at hcondition ⊢
  cases hcondition with
  | failed reason => exact hbeyond
  | @read first second results =>
      obtain ⟨found, left⟩ := first
      obtain ⟨other, right⟩ := second
      obtain ⟨hfound, h⟩ | ⟨-, stuck⟩ := results
      · obtain rfl : found = other := hfound
        dsimp only at h ⊢
        rw [atEnd_alike h]
        split
        · exact finish_alike h _
        · exact hbeyond
      · dsimp only at stuck ⊢
        rw [stuck.first.atEnd, stuck.second.atEnd]
        exact hbeyond

theorem countLabel_alike : Alike Ahead (countLabel left) (countLabel right) := by
  rw [countLabel, countLabel, ← startsWith_alike h (by decide),
    ← startsWith_alike h (by decide : "from" ∈ keywords)]
  split
  · next hstart =>
      refine (name_alike (drop_alike h (by decide) hstart)).bind ?_
      rintro ⟨label, left⟩ ⟨_, right⟩ - ⟨rfl, h⟩
      exact .read ⟨rfl, h⟩
  split
  · exact .read ⟨rfl, h⟩
  · refine (name_alike h).bind ?_
    rintro ⟨label, left⟩ ⟨_, right⟩ - ⟨rfl, h⟩
    exact .read ⟨rfl, h⟩

theorem countForm_alike : Alike Eq (countForm left) (countForm right) := by
  rw [countForm, countForm]
  refine (mark_alike h (by simp)).bind fun left right _ h => ?_
  refine (mark_alike h (by simp)).bind fun left right _ h => ?_
  refine (countLabel_alike h).bind ?_
  rintro ⟨label, left⟩ ⟨_, right⟩ - ⟨rfl, h⟩
  refine (keyword_alike h (by decide)).bind fun left right _ h => ?_
  refine (name_alike h).bind ?_
  rintro ⟨table, left⟩ ⟨_, right⟩ - ⟨rfl, h⟩
  dsimp only at h ⊢
  rw [← startsWith_alike h (by decide)]
  split
  · next hstart => exact countFilter_alike (drop_alike h (by decide) hstart) _ _
  · exact finish_alike h _

end Forms

theorem ofTokens_select {token : Token} (h : token.isKeyword "select" = true) {rest : List Token}
    (hcount : ∀ second tail, rest = second :: .leftParen :: tail →
      second.isKeyword "count" = false) :
    ofTokens (token :: rest) = selectForm rest := by
  rw [ofTokens.eq_def]
  dsimp only
  rw [if_pos h]
  split
  · next second tail => rw [hcount second tail rfl]; rfl
  · rfl

theorem ofTokens_count {token second : Token} (h : token.isKeyword "select" = true)
    (hcount : second.isKeyword "count" = true) (tail : List Token) :
    ofTokens (token :: second :: .leftParen :: tail) = countForm tail := by
  rw [ofTokens, if_pos h, if_pos hcount]

theorem ofTokens_of_isValue {token : Token} (h : IsValue token) (rest : List Token) :
    ofTokens (token :: rest) = .error .notRecognized := by
  rw [ofTokens.eq_def]
  dsimp only
  rw [h.isKeyword (by decide), h.isKeyword (by decide : "insert" ∈ _),
    h.isKeyword (by decide : "update" ∈ _), h.isKeyword (by decide : "delete" ∈ _)]
  rfl

theorem selection_alike {left right : List Token} (h : Parted left right) {token : Token}
    (hselect : token.isKeyword "select" = true) :
    ofTokens (token :: left) = ofTokens (token :: right) := by
  have hmark : ∀ text, Token.leftParen ≠ .word text ∧ Token.leftParen ≠ .number text := by simp
  cases h with
  | nil => rfl
  | @value first second left right values stuck =>
      have hcount : ∀ {value : Token}, IsValue value → ∀ rest other tail,
          value :: rest = other :: .leftParen :: tail → other.isKeyword "count" = false := by
        rintro value hvalue rest other tail ⟨⟩
        exact hvalue.isKeyword (by decide)
      rw [ofTokens_select hselect (hcount values.isValue.1 left),
        ofTokens_select hselect (hcount values.isValue.2 right)]
      exact (selectForm_alike (.value values stuck)).eq
  | @cons second left right tail =>
      obtain ⟨rest, others, rfl, rfl, hrest⟩ | ⟨hleft, hright⟩ := tail.mark_cases hmark
      · cases hcount : second.isKeyword "count" with
        | true =>
            rw [ofTokens_count hselect hcount, ofTokens_count hselect hcount]
            exact (countForm_alike hrest).eq
        | false =>
            have hsecond : ∀ {rest : List Token} other tail,
                second :: .leftParen :: rest = other :: .leftParen :: tail →
                  other.isKeyword "count" = false := by
              rintro rest other tail ⟨⟩
              exact hcount
            rw [ofTokens_select hselect hsecond, ofTokens_select hselect hsecond]
            exact (selectForm_alike (.cons second tail)).eq
      · have hother : ∀ {rest : List Token}, (∀ tail, rest ≠ .leftParen :: tail) →
            ∀ other tail, second :: rest = other :: .leftParen :: tail →
              other.isKeyword "count" = false := by
          rintro rest hrest other tail ⟨⟩
          exact absurd rfl (hrest tail)
        rw [ofTokens_select hselect (hother hleft), ofTokens_select hselect (hother hright)]
        exact (selectForm_alike (.cons second tail)).eq

/-- Statements that are the same, or the same up to a value behind which both are stuck, are read
alike. -/
theorem ofTokens_congr {left right : List Token} (h : Parted left right) :
    ofTokens left = ofTokens right := by
  cases h with
  | nil => rfl
  | value values stuck =>
      rw [ofTokens_of_isValue values.isValue.1, ofTokens_of_isValue values.isValue.2]
  | @cons token left right tail =>
      by_cases hselect : token.isKeyword "select" = true
      · exact selection_alike tail hselect
      rw [ofTokens.eq_def, ofTokens.eq_def (token :: right)]
      dsimp only
      rw [if_neg hselect, if_neg hselect]
      split
      · exact (insertForm_alike tail).eq
      split
      · exact (updateForm_alike tail).eq
      split
      · exact (deleteForm_alike tail).eq
      · rfl

end ClosedSql.Statement
