import ClosedSql.Proofs.Statement.Lists

/-!
# Reading clauses

The optional parts of a statement. Each begins with a word of its own, so a reader that finds
another word there leaves the tokens as they are. The condition of a count is one comparison if
that is all that is left, and otherwise whatever is left before the semicolon.
-/

namespace ClosedSql.Statement

open Grammar

/-! ## What comes next -/

/-- The words a token spells are the same up to case. -/
theorem lower_eq_of_keyword {first second : String} {token : Token} (hfirst : Keyword first token)
    (hsecond : Keyword second token) :
    Text.lower first.toList = Text.lower second.toList := by
  cases token with
  | word word => exact (keyword_word_iff.1 hfirst).symm.trans (keyword_word_iff.1 hsecond)
  | _ => cases hfirst

theorem not_isKeyword {first second : String} {token : Token} (hfirst : Keyword first token)
    (hne : Text.lower first.toList ≠ Text.lower second.toList) :
    token.isKeyword second = false := by
  rw [Bool.eq_false_iff]
  intro hsecond
  exact hne (lower_eq_of_keyword hfirst hsecond)

def Ending (rest : List Token) : Prop :=
  rest = [] ∨ rest = [.semicolon]

theorem startsWith_ending {rest : List Token} (h : Ending rest) (text : String) :
    startsWith text rest = false := by
  rcases h with rfl | rfl <;> rfl

theorem listEnds_keyword {text : String} {token : Token} (h : Keyword text token)
    (rest : List Token) : ListEnds (token :: rest) := by
  cases token with
  | word word => simp [ListEnds]
  | _ => cases h

/-- Only `limit` begins a limit. -/
theorem startsWith_limit {front rest : List Token} {limit : Option UInt64}
    (h : LimitClause front limit) {text : String} (hrest : startsWith text rest = false)
    (hne : Text.lower "limit".toList ≠ Text.lower text.toList) :
    startsWith text (front ++ rest) = false := by
  cases h with
  | absent => exact hrest
  | present keyword natural => exact not_isKeyword keyword hne

/-- Only `order` begins an order. -/
theorem startsWith_order {front rest : List Token} {order : Option OrderBy}
    (h : OrderClause front order) {text : String} (hrest : startsWith text rest = false)
    (hne : Text.lower "order".toList ≠ Text.lower text.toList) :
    startsWith text (front ++ rest) = false := by
  cases h with
  | absent => exact hrest
  | present orderWord byWord name direction => exact not_isKeyword orderWord hne

/-! ## Clauses -/

/-- What is read as a condition is one. -/
theorem whereClause_sound {tokens rest : List Token} {found : Option (Condition Slot)}
    (h : whereClause tokens = .ok (found, rest)) :
    ∃ front, tokens = front ++ rest ∧ WhereClause front found := by
  rw [whereClause] at h
  split at h
  · next hwhere =>
      obtain ⟨word, tail, rfl, hword⟩ := startsWith_iff.1 hwhere
      obtain ⟨⟨condition, left⟩, hcondition, hend⟩ := bind_eq_ok_iff.1 h
      cases hend
      obtain ⟨front, htail, hpredicate, -⟩ := condition_eq_ok_iff.1 hcondition
      refine ⟨word :: front, ?_, .present hword hpredicate⟩
      rw [List.cons_append, ← htail]
      rfl
  · cases h
    exact ⟨[], rfl, .absent⟩

/-- A condition that ends where it ends is read. -/
theorem whereClause_complete {front rest : List Token} {found : Option (Condition Slot)}
    (h : WhereClause front found) (hwhere : startsWith "where" rest = false)
    (hcomplete : Complete rest) : whereClause (front ++ rest) = .ok (found, rest) := by
  cases h with
  | absent =>
      rw [List.nil_append, whereClause, hwhere]
      rfl
  | present keyword predicate =>
      rw [List.cons_append, whereClause, if_pos (startsWith_iff.2 ⟨_, _, rfl, keyword⟩)]
      exact bind_eq_ok_iff.2
        ⟨(_, rest), condition_eq_ok_iff.2 ⟨_, rfl, predicate, hcomplete⟩, rfl⟩

theorem orderClause_sound {tokens rest : List Token} {order : Option OrderBy}
    (h : orderClause tokens = .ok (order, rest)) :
    ∃ front, tokens = front ++ rest ∧ OrderClause front order := by
  rw [orderClause] at h
  split at h
  · next horder =>
      obtain ⟨word, tail, rfl, hword⟩ := startsWith_iff.1 horder
      obtain ⟨afterBy, hby, hname⟩ := bind_eq_ok_iff.1 h
      obtain ⟨byToken, htail, hbyWord⟩ := keyword_eq_ok_iff.1 hby
      obtain ⟨⟨column, left⟩, hname, hdirection⟩ := bind_eq_ok_iff.1 hname
      obtain ⟨token, rfl, hcolumn⟩ := name_eq_ok_iff.1 hname
      rw [List.drop_one, List.tail_cons] at htail
      subst htail
      have hclause : ∀ {tokens : List Token} {ascending : Bool}, Direction tokens ascending →
          OrderClause (word :: byToken :: token :: tokens) (some ⟨column, ascending⟩) :=
        fun direction => .present hword hbyWord hcolumn direction
      dsimp only at hdirection
      split at hdirection
      · next hdesc =>
          obtain ⟨last, left, rfl, hlast⟩ := startsWith_iff.1 hdesc
          cases hdirection
          exact ⟨_, rfl, hclause (.descending hlast)⟩
      · split at hdirection
        · next hasc =>
            obtain ⟨last, left, rfl, hlast⟩ := startsWith_iff.1 hasc
            cases hdirection
            exact ⟨_, rfl, hclause (.ascending hlast)⟩
        · cases hdirection
          exact ⟨_, rfl, hclause .unsaid⟩
  · cases h
    exact ⟨[], rfl, .absent⟩

theorem orderClause_complete {front rest : List Token} {order : Option OrderBy}
    (h : OrderClause front order) (horder : startsWith "order" rest = false)
    (hasc : startsWith "asc" rest = false) (hdesc : startsWith "desc" rest = false) :
    orderClause (front ++ rest) = .ok (order, rest) := by
  cases h with
  | absent =>
      rw [List.nil_append, orderClause, horder]
      rfl
  | @present order by_ token column tokens ascending orderWord byWord name direction =>
      rw [List.cons_append, orderClause, if_pos (startsWith_iff.2 ⟨_, _, rfl, orderWord⟩)]
      refine bind_eq_ok_iff.2 ⟨_, keyword_eq_ok_iff.2 ⟨by_, rfl, byWord⟩, ?_⟩
      refine bind_eq_ok_iff.2 ⟨(column, tokens ++ rest), name_eq_ok_iff.2 ⟨token, rfl, name⟩, ?_⟩
      dsimp only
      cases direction with
      | unsaid =>
          rw [List.nil_append, hdesc, hasc]
          rfl
      | ascending keyword =>
          rw [List.singleton_append, show startsWith "desc" (_ :: rest) = false from
            not_isKeyword keyword (by decide), startsWith_iff.2 ⟨_, _, rfl, keyword⟩]
          rfl
      | descending keyword =>
          rw [List.singleton_append, startsWith_iff.2 ⟨_, _, rfl, keyword⟩]
          rfl

theorem limitClause_sound {tokens rest : List Token} {limit : Option UInt64}
    (h : limitClause tokens = .ok (limit, rest)) :
    ∃ front, tokens = front ++ rest ∧ LimitClause front limit := by
  rw [limitClause] at h
  split at h
  · next hlimit =>
      obtain ⟨word, tail, rfl, hword⟩ := startsWith_iff.1 hlimit
      split at h
      · next written left htail =>
          rw [List.drop_one, List.tail_cons] at htail
          split at h
          · next hread =>
              cases h
              subst htail
              exact ⟨[word, .number written], rfl,
                .present hword (readUInt64?_eq_some_iff.1 hread)⟩
          · cases h
      · cases h
  · cases h
    exact ⟨[], rfl, .absent⟩

theorem limitClause_complete {front rest : List Token} {limit : Option UInt64}
    (h : LimitClause front limit) (hlimit : startsWith "limit" rest = false) :
    limitClause (front ++ rest) = .ok (limit, rest) := by
  cases h with
  | absent =>
      rw [List.nil_append, limitClause, hlimit]
      rfl
  | present keyword natural =>
      rw [List.cons_append, limitClause, if_pos (startsWith_iff.2 ⟨_, _, rfl, keyword⟩)]
      simp [readUInt64?_eq_some_iff.2 natural]

theorem countLabel_sound {tokens rest : List Token} {label : Option String}
    (h : countLabel tokens = .ok (label, rest)) :
    ∃ front, tokens = front ++ rest ∧ Label front label := by
  rw [countLabel] at h
  split at h
  · next has =>
      obtain ⟨word, tail, rfl, hword⟩ := startsWith_iff.1 has
      obtain ⟨⟨found, left⟩, hname, hend⟩ := bind_eq_ok_iff.1 h
      cases hend
      obtain ⟨token, htail, hfound⟩ := name_eq_ok_iff.1 hname
      rw [List.drop_one, List.tail_cons] at htail
      subst htail
      exact ⟨[word, token], rfl, .named hword hfound⟩
  · split at h
    · cases h
      exact ⟨[], rfl, .absent⟩
    · obtain ⟨⟨found, left⟩, hname, hend⟩ := bind_eq_ok_iff.1 h
      cases hend
      obtain ⟨token, rfl, hfound⟩ := name_eq_ok_iff.1 hname
      exact ⟨[token], rfl, .bare hfound⟩

/-- A reserved word is no name. -/
theorem not_keyword_of_name {token : Token} {name text : String} (h : Name token name)
    (hreserved : isReserved text = true) : token.isKeyword text = false := by
  rw [Bool.eq_false_iff]
  intro hkeyword
  cases h with
  | word free =>
      rw [isReserved, keyword_word_iff.1 hkeyword] at free
      rw [isReserved, free] at hreserved
      cases hreserved
  | quoted identifier => cases hkeyword

theorem countLabel_complete {front rest : List Token} {label : Option String}
    (h : Label front label) (hfrom : startsWith "from" rest = true) :
    countLabel (front ++ rest) = .ok (label, rest) := by
  obtain ⟨token, tail, rfl, hkeyword⟩ := startsWith_iff.1 hfrom
  cases h with
  | absent =>
      have has : startsWith "as" (token :: tail) = false := not_isKeyword hkeyword (by decide)
      rw [List.nil_append, countLabel, has, hfrom]
      rfl
  | bare name =>
      have has : startsWith "as" (_ :: token :: tail) = false :=
        not_keyword_of_name name (by decide)
      have hnot : startsWith "from" (_ :: token :: tail) = false :=
        not_keyword_of_name name (by decide)
      rw [List.singleton_append, countLabel, has, hnot]
      exact bind_eq_ok_iff.2 ⟨(_, _), name_eq_ok_iff.2 ⟨_, rfl, name⟩, rfl⟩
  | named keyword name =>
      rw [List.cons_append, countLabel, if_pos (startsWith_iff.2 ⟨_, _, rfl, keyword⟩)]
      exact bind_eq_ok_iff.2 ⟨(_, _), name_eq_ok_iff.2 ⟨_, rfl, name⟩, rfl⟩

/-! ## The condition of a count -/

theorem semicolon_not_mem_of_term {tokens : List Token} {slot : Slot} (h : Term tokens slot) :
    Token.semicolon ∉ tokens := by
  have hword : ∀ {text : String} {word : Token}, Keyword text word → Token.semicolon ≠ word := by
    rintro text word hkeyword rfl
    cases hkeyword
  cases h with
  | placeholder => simp
  | text content => simp
  | integer integral => simp
  | float point reads => simp
  | true keyword => simpa using hword keyword
  | false keyword => simpa using hword keyword
  | null keyword => simpa using hword keyword
  | now keyword => simpa using hword keyword

theorem semicolon_not_mem_of_predicate {tokens : List Token} {condition : Condition Slot}
    (h : Predicate tokens condition) : Token.semicolon ∉ tokens := by
  cases h with
  | compare name operand =>
      have hvalue := semicolon_not_mem_of_term operand
      cases name <;> simpa using hvalue

/-- Tokens without a semicolon are found again before the end of the statement. -/
theorem takeWhile_append_of_atEnd {front rest : List Token} (hfront : Token.semicolon ∉ front)
    (hrest : atEnd rest = true) : (front ++ rest).takeWhile (· != .semicolon) = front := by
  have hall : ∀ token ∈ front, (token != Token.semicolon) = true := by
    intro token htoken
    rw [bne_iff_ne]
    rintro rfl
    exact hfront htoken
  rw [List.takeWhile_append_of_pos hall]
  rw [atEnd.eq_def] at hrest
  split at hrest
  · simp
  · simp
  · cases hrest

theorem atEnd_ending {rest : List Token} (h : Ending rest) : atEnd rest = true := by
  rcases h with rfl | rfl <;> rfl

/-- All tokens but the ending are left when the semicolon is dropped. -/
theorem exists_dropSemicolon (tokens : List Token) :
    ∃ last, tokens = dropSemicolon tokens ++ last ∧ Ending last := by
  rw [dropSemicolon]
  split
  · next hlast =>
      obtain ⟨front, rfl⟩ := List.getLast?_eq_some_iff.1 hlast
      exact ⟨[.semicolon], by simp, .inr rfl⟩
  · exact ⟨[], by simp, .inl rfl⟩

theorem dropSemicolon_append {front last : List Token} (hfront : Token.semicolon ∉ front)
    (hlast : Ending last) : dropSemicolon (front ++ last) = front := by
  rcases hlast with rfl | rfl
  · rw [List.append_nil, dropSemicolon, if_neg]
    intro hget
    exact hfront (List.mem_of_getLast? hget)
  · simp [dropSemicolon]

theorem complete_ending {rest : List Token} (h : Ending rest) : Complete rest :=
  ⟨startsWith_ending h _, startsWith_ending h _⟩

/-- A token may be part of a condition unless it is a semicolon, unknown or a blocking word. -/
theorem isBlocking_eq_false_iff {token : Token} :
    isBlocking token = false ↔ token ≠ .semicolon ∧ (∀ c, token ≠ .unknown c) ∧
      ∀ word ∈ blockingWords, ¬Keyword word token := by
  cases token <;> simp [isBlocking, Keyword]

theorem combined_iff {tokens : List Token} :
    (tokens.any fun token => token.isKeyword "and" || token.isKeyword "or") = true ↔
      Combined tokens := by
  simp [Combined, Keyword]

/-- A condition beyond one comparison as a count keeps it. -/
def beyondFilter (tokens : List Token) : CountFilter :=
  .beyond
    (if tokens.any fun token => token.isKeyword "and" || token.isKeyword "or" then .ambiguous
      else .notRecognized)
    (tokens.count .placeholder)

theorem countCondition_beyondFilter {tokens : List Token} (h : Beyond tokens) :
    CountCondition tokens (beyondFilter tokens) := by
  rw [beyondFilter]
  split
  · next hcombined => exact .combined h (combined_iff.1 hcombined)
  · next hcombined => exact .other h fun h' => hcombined (combined_iff.2 h')

/-- What lies beyond one comparison is kept just if nothing in it blocks. -/
theorem beyondCondition_eq_ok_iff {tokens : List Token} {filter : CountFilter} :
    beyondCondition tokens = .ok filter ↔
      dropSemicolon tokens ≠ [] ∧ (∀ token ∈ dropSemicolon tokens, isBlocking token = false) ∧
        filter = beyondFilter (dropSemicolon tokens) := by
  rw [beyondCondition]
  by_cases h : (dropSemicolon tokens).isEmpty || (dropSemicolon tokens).any isBlocking
  · rw [if_pos h]
    simp only [Bool.or_eq_true, List.isEmpty_iff, List.any_eq_true] at h
    constructor
    · intro hok
      cases hok
    · rintro ⟨hne, hfree, -⟩
      rcases h with h | ⟨token, htoken, hblocking⟩
      · exact absurd h hne
      · rw [hfree token htoken] at hblocking
        cases hblocking
  · rw [if_neg h]
    simp only [Bool.or_eq_true, List.isEmpty_iff, List.any_eq_true, not_or, not_exists,
      not_and, Bool.not_eq_true] at h
    constructor
    · intro hok
      cases hok
      exact ⟨h.1, h.2, rfl⟩
    · rintro ⟨-, -, rfl⟩
      rfl

theorem beyond_of_not_single {tokens : List Token} (hne : dropSemicolon tokens ≠ [])
    (hfree : ∀ token ∈ dropSemicolon tokens, isBlocking token = false)
    (hsingle : ∀ found rest, condition tokens = .ok (found, rest) → atEnd rest = false) :
    Beyond (dropSemicolon tokens) where
  nonempty := hne
  no_semicolon hmem := (isBlocking_eq_false_iff.1 (hfree _ hmem)).1 rfl
  no_unknown c hmem := (isBlocking_eq_false_iff.1 (hfree _ hmem)).2.1 c rfl
  no_blocker token hmem := (isBlocking_eq_false_iff.1 (hfree token hmem)).2.2
  not_single found hpredicate := by
    obtain ⟨last, htokens, hlast⟩ := exists_dropSemicolon tokens
    have hread := condition_eq_ok_iff.2 ⟨_, htokens, hpredicate, complete_ending hlast⟩
    have hend := hsingle _ _ hread
    rw [atEnd_ending hlast] at hend
    cases hend

/-- What is read as the condition of a count is one. -/
theorem countFilter_sound {table : String} {label : Option String} {tokens : List Token}
    {statement : Statement} (h : countFilter table label tokens = .ok statement) :
    ∃ front last filter, tokens = front ++ last ∧ Ending last ∧ CountCondition front filter ∧
      statement = .count table label filter := by
  -- Both ways in which the reading of a single comparison can fall short lead here.
  have hbeyond : (∀ found rest, condition tokens = .ok (found, rest) → atEnd rest = false) →
      (beyondCondition tokens).map (Statement.count table label) = .ok statement →
      ∃ front last filter, tokens = front ++ last ∧ Ending last ∧
        CountCondition front filter ∧ statement = .count table label filter := by
    intro hsingle hmap
    cases hfilter : beyondCondition tokens with
    | error reason =>
        rw [hfilter] at hmap
        cases hmap
    | ok filter =>
        rw [hfilter] at hmap
        cases hmap
        obtain ⟨hne, hfree, rfl⟩ := beyondCondition_eq_ok_iff.1 hfilter
        obtain ⟨last, htokens, hlast⟩ := exists_dropSemicolon tokens
        exact ⟨dropSemicolon tokens, last, _, htokens, hlast,
          countCondition_beyondFilter (beyond_of_not_single hne hfree hsingle), rfl⟩
  rw [countFilter] at h
  split at h
  · next found rest hcondition =>
      split at h
      · next hend =>
          obtain ⟨rfl, hlast⟩ := finish_eq_ok_iff.1 h
          obtain ⟨front, rfl, hpredicate, -⟩ := condition_eq_ok_iff.1 hcondition
          exact ⟨front, rest, _, rfl, hlast, .single hpredicate, rfl⟩
      · next hend =>
          refine hbeyond ?_ h
          intro found' rest' hcondition'
          rw [hcondition] at hcondition'
          cases hcondition'
          simpa using hend
  · next reason hcondition =>
      refine hbeyond ?_ h
      intro found' rest' hcondition'
      rw [hcondition] at hcondition'
      cases hcondition'

/-- A condition that is more than one comparison is not read as one. -/
theorem atEnd_eq_false_of_beyond {front last rest : List Token} {found : Condition Slot}
    (h : Beyond front) (hlast : Ending last)
    (hcondition : condition (front ++ last) = .ok (found, rest)) : atEnd rest = false := by
  rw [Bool.eq_false_iff]
  intro hend
  obtain ⟨single, heq, hpredicate, -⟩ := condition_eq_ok_iff.1 hcondition
  -- Both the comparison and the whole condition reach to the first semicolon.
  have hfront := takeWhile_append_of_atEnd h.no_semicolon (atEnd_ending hlast)
  rw [heq, takeWhile_append_of_atEnd (semicolon_not_mem_of_predicate hpredicate) hend] at hfront
  exact h.not_single found (hfront ▸ hpredicate)

/-- The condition of a count is read up to the ending. -/
theorem countFilter_complete {table : String} {label : Option String} {front last : List Token}
    {filter : CountFilter} (h : CountCondition front filter) (hlast : Ending last) :
    countFilter table label (front ++ last) = .ok (.count table label filter) := by
  have hbeyond : Beyond front → countFilter table label (front ++ last) =
      .ok (.count table label (beyondFilter front)) := by
    intro hbeyond
    have hread : beyondCondition (front ++ last) = .ok (beyondFilter front) := by
      rw [beyondCondition_eq_ok_iff, dropSemicolon_append hbeyond.no_semicolon hlast]
      refine ⟨hbeyond.nonempty, ?_, rfl⟩
      intro token htoken
      refine isBlocking_eq_false_iff.2 ⟨?_, ?_, hbeyond.no_blocker token htoken⟩
      · rintro rfl
        exact hbeyond.no_semicolon htoken
      · rintro c rfl
        exact hbeyond.no_unknown c htoken
    rw [countFilter]
    split
    · next found rest hcondition =>
        rw [atEnd_eq_false_of_beyond hbeyond hlast hcondition, hread]
        rfl
    · rw [hread]
      rfl
  cases h with
  | single predicate =>
      have hcondition := condition_eq_ok_iff.2 ⟨front, rfl, predicate, complete_ending hlast⟩
      rw [countFilter, hcondition]
      simp only [atEnd_ending hlast, if_true]
      exact finish_eq_ok_iff.2 ⟨rfl, hlast⟩
  | combined beyond combined =>
      rw [hbeyond beyond, beyondFilter, if_pos (combined_iff.2 combined)]
  | other beyond plain =>
      rw [hbeyond beyond, beyondFilter, if_neg (fun h => plain (combined_iff.1 h))]

end ClosedSql.Statement
