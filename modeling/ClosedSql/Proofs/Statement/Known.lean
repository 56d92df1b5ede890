import ClosedSql.Proofs.Statement.Recognition

/-!
# Known tokens

A character that begins no token is a token of its own when a text is cut. No statement contains
one: its keywords, names and values are none, and not even a condition beyond one comparison takes
any.
-/

namespace ClosedSql.Grammar

def Known (token : Token) : Prop :=
  ∀ c, token ≠ .unknown c

theorem Keyword.known {text : String} {token : Token} (h : Keyword text token) : Known token := by
  rintro c rfl
  cases h

theorem Name.known {text : String} {token : Token} (h : Name token text) : Known token := by
  rintro c rfl
  cases h

section Parts

variable {tokens : List Token}

/-- A term is made of known tokens. -/
theorem Term.known {slot : Slot} (h : Term tokens slot) : ∀ token ∈ tokens, Known token := by
  cases h with
  | placeholder | text | integer | float => simp [Known]
  | true keyword | false keyword | null keyword => simpa using keyword.known
  | now keyword => simpa [Known] using keyword.known

theorem Column.known {column : String} (h : Column tokens column) :
    ∀ token ∈ tokens, Known token := by
  cases h with
  | name name => exact List.forall_mem_singleton.2 name.known

theorem Assignment.known {assigned : String × Slot} (h : Assignment tokens assigned) :
    ∀ token ∈ tokens, Known token := by
  cases h with
  | set name operand =>
      rw [List.forall_mem_cons, List.forall_mem_cons]
      exact ⟨name.known, by simp [Known], operand.known⟩

/-- A condition is made of known tokens. -/
theorem Predicate.known {condition : Condition Slot} (h : Predicate tokens condition) :
    ∀ token ∈ tokens, Known token := by
  cases h with
  | compare name operand =>
      rw [List.forall_mem_cons, List.forall_mem_cons]
      exact ⟨name.known, by simp [Known], operand.known⟩

theorem Several.known {α : Type} {item : List Token → α → Prop} {values : List α}
    (h : Several item tokens values)
    (hitem : ∀ {tokens value}, item tokens value → ∀ token ∈ tokens, Known token) :
    ∀ token ∈ tokens, Known token := by
  have further : ∀ {tokens values}, Further item tokens values →
      ∀ token ∈ tokens, Known token := by
    intro tokens values h
    induction h with
    | nil => exact List.forall_mem_nil _
    | cons head _ ih =>
        rw [List.forall_mem_cons, List.forall_mem_append]
        exact ⟨by simp [Known], hitem head, ih⟩
  cases h with
  | intro head tail => exact List.forall_mem_append.2 ⟨hitem head, further tail⟩

theorem WhereClause.known {found : Option (Condition Slot)} (h : WhereClause tokens found) :
    ∀ token ∈ tokens, Known token := by
  cases h with
  | absent => exact List.forall_mem_nil _
  | present keyword predicate => exact List.forall_mem_cons.2 ⟨keyword.known, predicate.known⟩

theorem OrderClause.known {order : Option OrderBy} (h : OrderClause tokens order) :
    ∀ token ∈ tokens, Known token := by
  cases h with
  | absent => exact List.forall_mem_nil _
  | present orderWord byWord name direction =>
      rw [List.forall_mem_cons, List.forall_mem_cons, List.forall_mem_cons]
      refine ⟨orderWord.known, byWord.known, name.known, ?_⟩
      cases direction with
      | unsaid => exact List.forall_mem_nil _
      | ascending keyword | descending keyword => exact List.forall_mem_singleton.2 keyword.known

theorem LimitClause.known {limit : Option UInt64} (h : LimitClause tokens limit) :
    ∀ token ∈ tokens, Known token := by
  cases h with
  | absent => exact List.forall_mem_nil _
  | present keyword => simpa [Known] using keyword.known

theorem Label.known {label : Option String} (h : Label tokens label) :
    ∀ token ∈ tokens, Known token := by
  cases h with
  | absent => exact List.forall_mem_nil _
  | bare name => exact List.forall_mem_singleton.2 name.known
  | named keyword name =>
      exact List.forall_mem_cons.2 ⟨keyword.known, List.forall_mem_singleton.2 name.known⟩

theorem CountClause.known {filter : CountFilter} (h : CountClause tokens filter) :
    ∀ token ∈ tokens, Known token := by
  cases h with
  | absent => exact List.forall_mem_nil _
  | present keyword condition =>
      refine List.forall_mem_cons.2 ⟨keyword.known, ?_⟩
      cases condition with
      | single predicate => exact predicate.known
      | combined beyond | other beyond =>
          rintro token hmem c rfl
          exact beyond.no_unknown c hmem

theorem Form.known {statement : Statement} (h : Form tokens statement) :
    ∀ token ∈ tokens, Known token := by
  have hstar : Known .star := by simp [Known]
  have hopens : Known .leftParen := by simp [Known]
  have hcloses : Known .rightParen := by simp [Known]
  cases h with
  | insert insertWord intoWord tableName columnList _ valuesWord valueList =>
      simp only [List.forall_mem_append, List.forall_mem_cons]
      exact ⟨insertWord.known, intoWord.known, tableName.known, hopens,
        columnList.known Column.known, hcloses, valuesWord.known, hopens,
        valueList.known Term.known, hcloses, List.forall_mem_nil _⟩
  | update updateWord tableName setWord setList _ whereWord predicate =>
      simp only [List.forall_mem_append, List.forall_mem_cons]
      exact ⟨updateWord.known, tableName.known, setWord.known, setList.known Assignment.known,
        whereWord.known, predicate.known⟩
  | delete deleteWord fromWord tableName whereWord predicate =>
      simp only [List.forall_mem_cons]
      exact ⟨deleteWord.known, fromWord.known, tableName.known, whereWord.known, predicate.known⟩
  | select selectWord fromWord tableName whereClause orderClause limitClause =>
      simp only [List.forall_mem_append, List.forall_mem_cons]
      exact ⟨selectWord.known, hstar, fromWord.known, tableName.known, whereClause.known,
        orderClause.known, limitClause.known⟩
  | count selectWord countWord labelled fromWord tableName countClause =>
      simp only [List.forall_mem_append, List.forall_mem_cons]
      exact ⟨selectWord.known, countWord.known, hopens, hstar, hcloses, labelled.known,
        fromWord.known, tableName.known, countClause.known⟩

/-- A statement is made of known tokens. -/
theorem Sentence.known {statement : Statement} (h : Sentence tokens statement) :
    ∀ token ∈ tokens, Known token := by
  obtain ⟨front, last, rfl, form, ending⟩ := Statement.sentence_iff.1 h
  have hlast : ∀ token ∈ last, Known token := by
    rcases ending with rfl | rfl <;> simp [Known]
  exact List.forall_mem_append.2 ⟨form.known, hlast⟩

end Parts

end ClosedSql.Grammar
