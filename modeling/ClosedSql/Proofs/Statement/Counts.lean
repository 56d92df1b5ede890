import ClosedSql.Proofs.Sql.Pairing
import ClosedSql.Proofs.Statement.Known
import ClosedSql.Proofs.Statement.Parameters
import ClosedSql.Proofs.Token.Reading

/-!
# Counts and their conditions

The tokens of a count are parted by the word `where`, which cannot occur before its condition. What
stands before it is a count in itself, and can be cut out of the text. What stands after it is the
condition, whatever it is made of.
-/

namespace ClosedSql

open Grammar

namespace Token

/-- The tokens before a condition or the end of a statement. -/
def beforeWhere (tokens : List Token) : List Token :=
  tokens.takeWhile fun token => !(token.isKeyword "where" || token == .semicolon)

def afterWhere (tokens : List Token) : List Token :=
  (tokens.dropWhile fun token => !token.isKeyword "where").drop 1

def HasWhere (tokens : List Token) : Prop :=
  ∃ token ∈ tokens, Keyword "where" token

end Token

namespace Grammar

/-- What a count without a condition is made of: names, some marks and words other than `where`. -/
inductive Plain : Token → Prop
  | word {text : String} {token : Token} (keyword : Keyword text token)
      (other : Text.lower text.toList ≠ Text.lower "where".toList) : Plain token
  | name {text : String} {token : Token} (name : Name token text) : Plain token
  | mark {token : Token} (mark : token ∈ [Token.leftParen, .star, .rightParen]) : Plain token

theorem Plain.passes {token : Token} (h : Plain token) :
    token.isKeyword "where" = false ∧ token ≠ .semicolon := by
  cases h with
  | word keyword other =>
      refine ⟨Statement.not_isKeyword keyword other, ?_⟩
      rintro rfl
      cases keyword
  | name name =>
      refine ⟨Statement.not_keyword_of_name name (by decide), ?_⟩
      rintro rfl
      cases name
  | mark mark =>
      revert token
      decide

/-- The parts of a count: what stands before its condition, the condition if there is one, and the
end. -/
inductive CountParts (front : List Token) : List Token → CountFilter → Prop
  | unfiltered {last : List Token} (ending : Statement.Ending last) :
      CountParts front (front ++ last) .none
  | filtered {word : Token} {tail last : List Token} {filter : CountFilter}
      (keyword : Keyword "where" word) (condition : CountCondition tail filter)
      (ending : Statement.Ending last) : CountParts front (front ++ word :: (tail ++ last)) filter

theorem Label.plain {tokens : List Token} {label : Option String} (h : Label tokens label) :
    ∀ token ∈ tokens, Plain token := by
  cases h with
  | absent => exact List.forall_mem_nil _
  | bare name => exact List.forall_mem_singleton.2 (.name name)
  | named keyword name =>
      rw [List.forall_mem_cons]
      exact ⟨.word keyword (by decide), List.forall_mem_singleton.2 (.name name)⟩

/-- What stands before the condition of a count is a count itself. -/
theorem exists_countParts {tokens : List Token} {table : String} {label : Option String}
    {filter : CountFilter} (h : Sentence tokens (.count table label filter)) :
    ∃ front, Form front (.count table label .none) ∧ (∀ token ∈ front, Plain token) ∧
      CountParts front tokens filter := by
  obtain ⟨inner, last, rfl, hform, hlast⟩ := Statement.sentence_iff.1 h
  cases hform with
  | @count select count from_ name _ labelTokens found _ _ selectWord countWord labelled fromWord
      tableName countClause =>
      refine ⟨_, .count selectWord countWord labelled fromWord tableName .absent, ?_, ?_⟩
      · simp only [List.forall_mem_cons, List.forall_mem_append]
        exact ⟨.word selectWord (by decide), .word countWord (by decide), .mark (by decide),
          .mark (by decide), .mark (by decide), labelled.plain, .word fromWord (by decide),
          .name tableName, List.forall_mem_nil _⟩
      · cases countClause with
        | absent => exact .unfiltered hlast
        | @present word tail _ keyword condition =>
            have happend : select :: count :: .leftParen :: .star :: .rightParen ::
                (labelTokens ++ from_ :: name :: word :: tail) ++ last =
                (select :: count :: .leftParen :: .star :: .rightParen ::
                  (labelTokens ++ [from_, name])) ++ word :: (tail ++ last) := by
              simp
            rw [happend]
            exact .filtered keyword condition hlast

end Grammar

open Token

namespace Grammar.CountParts

variable {front tokens : List Token} {filter : CountFilter}
  (hplain : ∀ token ∈ front, Plain token) (h : CountParts front tokens filter)

include hplain h in
theorem beforeWhere_eq : beforeWhere tokens = front := by
  have happend : ∀ rest, beforeWhere (front ++ rest) = front ++ beforeWhere rest := by
    intro rest
    refine List.takeWhile_append_of_pos fun token htoken => ?_
    obtain ⟨hwhere, hsemicolon⟩ := (hplain token htoken).passes
    simp [hwhere, hsemicolon]
  cases h with
  | unfiltered ending =>
      have hending : ∀ last, Statement.Ending last → beforeWhere last = [] := by
        rintro last (rfl | rfl) <;> rfl
      rw [happend, hending _ ending, List.append_nil]
  | @filtered word tail last _ keyword condition ending =>
      have hword : word.isKeyword "where" = true := keyword
      rw [happend, beforeWhere, List.takeWhile_cons_of_neg (by simp [hword]), List.append_nil]

include hplain h in
/-- A condition is announced if and only if there is one. -/
theorem hasWhere_iff : HasWhere tokens ↔ filter ≠ .none := by
  cases h with
  | unfiltered ending =>
      refine iff_of_false ?_ (fun h => h rfl)
      rintro ⟨token, htoken, hwhere⟩
      rcases List.mem_append.1 htoken with hfront | hlast
      · rw [Keyword, (hplain token hfront).passes.1] at hwhere
        cases hwhere
      · rcases ending with rfl | rfl
        · cases hlast
        · rw [List.mem_singleton.1 hlast] at hwhere
          cases hwhere
  | filtered keyword condition ending =>
      refine iff_of_true ⟨_, by simp, keyword⟩ ?_
      rintro rfl
      cases condition

include hplain h in
/-- After `where` stands the condition. -/
theorem afterWhere_eq (hfilter : filter ≠ .none) : ∃ tail last,
    afterWhere tokens = tail ++ last ∧ CountCondition tail filter ∧ Statement.Ending last := by
  cases h with
  | unfiltered ending => exact absurd rfl hfilter
  | @filtered word tail last _ keyword condition ending =>
      refine ⟨tail, last, ?_, condition, ending⟩
      have hword : word.isKeyword "where" = true := keyword
      rw [afterWhere, List.dropWhile_append_of_pos, List.dropWhile_cons_of_neg (by simp [hword])]
      · rfl
      · intro token htoken
        simp [(hplain token htoken).passes.1]

end Grammar.CountParts

namespace Statement

variable {text table : String} {label : Option String} {filter : CountFilter}

/-- A count is made of what stands before its condition, the condition and the end. -/
theorem exists_countParts_of_ofText (hread : ofText text = .ok (.count table label filter)) :
    ∃ front, Form front (.count table label .none) ∧ (∀ token ∈ front, Plain token) ∧
      CountParts front (Token.ofText text) filter :=
  exists_countParts (ofTokens_eq_ok_iff.1 hread)

/-- A count that is read announces a condition just if it has one. -/
theorem hasWhere_iff_of_ofText (hread : ofText text = .ok (.count table label filter)) :
    HasWhere (Token.ofText text) ↔ filter ≠ .none := by
  obtain ⟨front, -, hplain, hparts⟩ := exists_countParts_of_ofText hread
  exact hparts.hasWhere_iff hplain

/-- A text of what stands before the condition of a count is read as the count without it. -/
theorem ofText_of_beforeWhere (hread : ofText text = .ok (.count table label filter))
    {bare : String} {last : List Token} (hlast : Ending last)
    (hbare : Token.ofText bare = beforeWhere (Token.ofText text) ++ last) :
    ofText bare = .ok (.count table label .none) := by
  obtain ⟨front, hform, hplain, hparts⟩ := exists_countParts_of_ofText hread
  rw [hparts.beforeWhere_eq hplain] at hbare
  exact ofTokens_eq_ok_iff.2 (hbare ▸ sentence_iff.2 ⟨front, last, rfl, hform, hlast⟩)

/-- A count can be cut off before its condition. -/
theorem exists_beforeWhere (hread : ofText text = .ok (.count table label filter)) :
    ∃ bare : String, bare.toList <+: text.toList ∧
      Token.ofText bare = beforeWhere (Token.ofText text) := by
  refine Layout.exists_prefix ?_ (List.takeWhile_append_dropWhile).symm
  intro c hc
  exact (ofTokens_eq_ok_iff.1 hread).known _ hc c rfl

/-- Only a count has a condition that cannot be kept, and only where conditions are applied. -/
theorem keptCondition_eq_error_iff {policy : CountPolicy} {statement : Statement}
    {reason : Reason} : statement.keptCondition policy = .error reason ↔
      policy = .apply ∧
        ∃ table label count, statement = .count table label (.beyond reason count) := by
  constructor
  · intro h
    cases statement with
    | insert | update | delete | select => cases h
    | count table label filter =>
        cases filter with
        | none => cases h
        | single condition => cases policy <;> cases h
        | beyond other count =>
            cases policy with
            | ignore => cases h
            | apply =>
                cases h
                exact ⟨rfl, table, label, count, rfl⟩
  · rintro ⟨rfl, table, label, count, rfl⟩
    rfl

/-- The question marks of a count are those of its condition. -/
theorem count_placeholder_of_beyond {reason : Reason} {count : Nat}
    (hread : ofText text = .ok (.count table label (.beyond reason count))) :
    (Token.ofText text).count .placeholder = count := by
  obtain ⟨front, hform, -, hparts⟩ := exists_countParts_of_ofText hread
  have hfront : front.count .placeholder = 0 :=
    (spells_form hform rfl).count_placeholder
  generalize Token.ofText text = tokens at hparts ⊢
  cases hparts with
  | @filtered word tail last _ keyword condition ending =>
      have hlast : last.count .placeholder = 0 := by
        rcases ending with rfl | rfl <;> rfl
      have htail : tail.count .placeholder = count := by
        cases condition <;> rfl
      rw [List.count_append, List.count_cons_of_ne keyword.ne_placeholder, List.count_append,
        hfront, hlast, htail, Nat.zero_add, Nat.add_zero]

/-- The placeholders of a statement are the question marks among its tokens. -/
theorem count_placeholder_of_ofText {statement : Statement} (hread : ofText text = .ok statement) :
    (Token.ofText text).count .placeholder = statement.placeholders := by
  cases hkept : statement.keptCondition .apply with
  | ok kept =>
      rcases keptCondition_cases hkept with ⟨-, hslots⟩ | ⟨hpolicy, -⟩
      · rw [hslots]
        exact (spells_of_ofText hread hslots).count_placeholder
      · cases hpolicy
  | error reason =>
      obtain ⟨-, table, label, count, rfl⟩ := keptCondition_eq_error_iff.1 hkept
      rw [count_placeholder_of_beyond hread]
      exact (Nat.zero_add count).symm

end Statement

end ClosedSql
