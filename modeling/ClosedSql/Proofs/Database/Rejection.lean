import ClosedSql.Proofs.Database.Counts

/-!
# Why statements are rejected

A statement that is read is bound unless one of four things stands against it, of which the first
counts: the condition of a count cannot be applied, columns and values or question marks and
parameters are not as many as each other, or a condition compares with a literal where that is not
wanted. What is told of the condition of a count is told by its words alone, and what is told of the
parameters by their number.
-/

namespace ClosedSql

open Grammar

namespace Statement

/-- The condition that binding keeps; that of a count only where conditions are applied. -/
inductive Keeps (policy : CountPolicy) : Statement → Condition Slot → Prop
  | update {table : String} {assignments : List (String × Slot)} {condition : Condition Slot} :
      Keeps policy (.update table assignments condition) condition
  | delete {table : String} {condition : Condition Slot} :
      Keeps policy (.delete table condition) condition
  | select {table : String} {condition : Condition Slot} {order : Option OrderBy}
      {limit : Option UInt64} : Keeps policy (.select table (some condition) order limit) condition
  | count {table : String} {label : Option String} {condition : Condition Slot}
      (applied : policy = .apply) : Keeps policy (.count table label (.single condition)) condition

/-- Two numbers that do not match, given the numbers of question marks and of parameters. An
insertion is measured by its columns first. A reading may have parameters left over, and a count
whose condition is not kept takes any. -/
inductive Mismatches (policy : CountPolicy) (marks params : Nat) : Statement → Nat → Nat → Prop
  | values {table : String} {columns : List String} {values : List Slot}
      (differ : columns.length ≠ values.length) :
      Mismatches policy marks params (.insert table columns values) columns.length values.length
  | insert {table : String} {columns : List String} {values : List Slot}
      (same : columns.length = values.length) (differ : params ≠ marks) :
      Mismatches policy marks params (.insert table columns values) marks params
  | update {table : String} {assignments : List (String × Slot)} {condition : Condition Slot}
      (differ : params ≠ marks) :
      Mismatches policy marks params (.update table assignments condition) marks params
  | delete {table : String} {condition : Condition Slot} (differ : params ≠ marks) :
      Mismatches policy marks params (.delete table condition) marks params
  | select {table : String} {condition : Option (Condition Slot)} {order : Option OrderBy}
      {limit : Option UInt64} (few : params < marks) :
      Mismatches policy marks params (.select table condition order limit) marks params
  | count {table : String} {label : Option String} {condition : Condition Slot}
      (applied : policy = .apply) (few : params < marks) :
      Mismatches policy marks params (.count table label (.single condition)) marks params

/-- Why a statement is not bound, given its tokens and the number of parameters. -/
inductive Rejects (config : Config) (tokens : List Token) (params : Nat) (statement : Statement) :
    Reason → Prop
  | combined {table : String} {label : Option String} {reason : Reason} {count : Nat}
      (form : statement = .count table label (.beyond reason count))
      (applied : config.countPolicy = .apply) (combined : Combined (Token.afterWhere tokens)) :
      Rejects config tokens params statement .ambiguous
  | other {table : String} {label : Option String} {reason : Reason} {count : Nat}
      (form : statement = .count table label (.beyond reason count))
      (applied : config.countPolicy = .apply) (plain : ¬Combined (Token.afterWhere tokens)) :
      Rejects config tokens params statement .notRecognized
  | mismatch {expected actual : Nat}
      (mismatch : statement.Mismatches config.countPolicy (tokens.count .placeholder) params
        expected actual) : Rejects config tokens params statement (.mismatch expected actual)
  | literal {condition : Condition Slot} {value : Value}
      (matched : ∀ expected actual, ¬statement.Mismatches config.countPolicy
        (tokens.count .placeholder) params expected actual)
      (refused : config.literalPredicates = false)
      (keeps : statement.Keeps config.countPolicy condition)
      (literal : condition.operand = .literal value) :
      Rejects config tokens params statement .literal

/-- How binding decides on a statement that is read from a text. -/
structure Decided (config : Config) (text : String) (params : List Value) (statement : Statement) :
    Prop where
  rejected : ∀ reason, statement.bind config params = .error reason ↔
    statement.Rejects config (Token.ofText text) params.length reason
  /-- Nothing else stands against it. -/
  bound : (∀ reason, ¬statement.Rejects config (Token.ofText text) params.length reason) →
    ∃ bound, statement.bind config params = .ok bound
  /-- The parameters of a reading beyond its question marks have no influence on its request. -/
  surplus : statement.shape.changesRows = false → ∀ others : List Value,
    others.take ((Token.ofText text).count .placeholder) =
        params.take ((Token.ofText text).count .placeholder) →
      statement.request? config others = statement.request? config params
  /-- Raw calls bind the statement and send its request. -/
  raw : ∀ raw, config.normalize raw = text →
    config.bind raw params = statement.bind config params ∧
      ∀ (σ : Type) (store : Store σ) (state : σ),
        Database.sent config store raw params state = (statement.request? config params).toList

variable {config : Config} {statement : Statement} {policy : CountPolicy}
  {kept : Option (Condition Slot)} {params : List Value}

/-! ## The steps of binding -/

theorem keeps_iff {condition : Condition Slot} :
    statement.Keeps policy condition ↔ statement.keptCondition policy = .ok (some condition) := by
  constructor
  · intro h
    cases h with
    | update | delete | select => rfl
    | count applied =>
        subst applied
        rfl
  · intro h
    cases statement with
    | insert => cases h
    | update | delete | select =>
        cases h
        constructor
    | count table label filter =>
        cases filter with
        | none => cases h
        | single => 
            cases policy with
            | ignore => cases h
            | apply =>
                cases h
                exact .count rfl
        | beyond => cases policy <;> cases h

theorem Mismatches.exists_kept {marks count expected actual : Nat}
    (h : statement.Mismatches policy marks count expected actual) :
    ∃ kept, statement.keptCondition policy = .ok kept := by
  cases h with
  | values | insert | update | delete | select => exact ⟨_, rfl⟩
  | count applied =>
      subst applied
      exact ⟨_, rfl⟩

/-- The numbers that are found not to match are those that the rules name. -/
theorem mismatch?_eq_some_iff (hkept : statement.keptCondition policy = .ok kept) {count : Nat}
    {expected actual : Nat} :
    statement.mismatch? kept.isSome count = some (expected, actual) ↔
      statement.Mismatches policy statement.placeholders count expected actual := by
  constructor
  · intro h
    cases statement with
    | insert table columns values =>
        simp only [mismatch?] at h
        split at h
        · next hdiffer =>
            cases h
            exact .values hdiffer
        · next hsame =>
            split at h
            · next hdiffer =>
                cases h
                exact .insert (Decidable.not_not.1 hsame) hdiffer
            · cases h
    | update | delete =>
        simp only [mismatch?] at h
        split at h
        · next hdiffer =>
            cases h
            constructor
            exact hdiffer
        · cases h
    | select =>
        simp only [mismatch?] at h
        split at h
        · next hfew =>
            cases h
            exact .select hfew
        · cases h
    | count table label filter =>
        simp only [mismatch?] at h
        split at h
        · next hfew =>
            cases h
            obtain ⟨condition, rfl⟩ := Option.isSome_iff_exists.1 hfew.1
            cases keeps_iff.2 hkept with
            | count applied => exact .count applied hfew.2
        · cases h
  · intro h
    cases h with
    | values differ => simp [mismatch?, differ]
    | insert same differ => simp [mismatch?, same, differ]
    | update differ | delete differ => simp [mismatch?, differ]
    | select few => simp [mismatch?, few]
    | count applied few =>
        subst applied
        cases hkept
        simp [mismatch?, few]

theorem mismatch?_eq_none_iff (hkept : statement.keptCondition policy = .ok kept) {count : Nat} :
    statement.mismatch? kept.isSome count = none ↔
      ∀ expected actual,
        ¬statement.Mismatches policy statement.placeholders count expected actual := by
  rw [Option.eq_none_iff_forall_ne_some, Prod.forall]
  exact forall₂_congr fun expected actual => not_congr (mismatch?_eq_some_iff hkept)

/-- A literal is found in a condition exactly if the kept condition compares with one. -/
theorem any_isLiteral_iff (hkept : statement.keptCondition policy = .ok kept) :
    kept.any isLiteral = true ↔
      ∃ condition value, statement.Keeps policy condition ∧ condition.operand = .literal value := by
  simp only [keeps_iff, hkept, Except.ok.injEq]
  constructor
  · intro h
    obtain ⟨condition, rfl, hliteral⟩ := Option.any_eq_true _ _ |>.1 h
    rw [isLiteral.eq_def] at hliteral
    split at hliteral
    · next value hvalue => exact ⟨condition, value, rfl, hvalue⟩
    · cases hliteral
  · rintro ⟨condition, value, rfl, hvalue⟩
    simp [isLiteral, hvalue]

theorem bind_of_unkept {reason : Reason}
    (h : statement.keptCondition config.countPolicy = .error reason) (params : List Value) :
    statement.bind config params = .error reason := by
  rw [bind, h]
  rfl

section Kept

variable (hkept : statement.keptCondition config.countPolicy = .ok kept)

include hkept

theorem bind_of_mismatch {expected actual : Nat}
    (h : statement.mismatch? kept.isSome params.length = some (expected, actual)) :
    statement.bind config params = .error (.mismatch expected actual) := by
  rw [bind, hkept, ok_bind, h]
  rfl

theorem bind_of_literal (hmatch : statement.mismatch? kept.isSome params.length = none)
    (h : (!config.literalPredicates && kept.any isLiteral) = true) :
    statement.bind config params = .error .literal := by
  rw [bind, hkept, ok_bind, hmatch, h]
  rfl

end Kept

/-! ## The reasons -/

variable {text table : String} {label : Option String} {reason : Reason} {count : Nat}

/-- Which reason a condition beyond one comparison is kept with is told by its words. -/
theorem reason_of_beyond (hread : ofText text = .ok (.count table label (.beyond reason count))) :
    Combined (Token.afterWhere (Token.ofText text)) ∧ reason = .ambiguous ∨
      ¬Combined (Token.afterWhere (Token.ofText text)) ∧ reason = .notRecognized := by
  obtain ⟨front, -, hplain, hparts⟩ := exists_countParts_of_ofText hread
  obtain ⟨tail, last, hafter, hcondition, hlast⟩ := hparts.afterWhere_eq hplain (by simp)
  have hcombined : Combined (tail ++ last) ↔ Combined tail := by
    rcases hlast with rfl | rfl <;> simp [Combined, Keyword, Token.isKeyword]
  rw [hafter, hcombined]
  cases hcondition with
  | combined beyond combined => exact .inl ⟨combined, rfl⟩
  | other beyond plain => exact .inr ⟨plain, rfl⟩

/-- The reason for which a statement is not bound rejects it. -/
theorem rejects_of_bind (hread : ofText text = .ok statement)
    (h : statement.bind config params = .error reason) :
    statement.Rejects config (Token.ofText text) params.length reason := by
  have hmarks := count_placeholder_of_ofText hread
  cases hkept : statement.keptCondition config.countPolicy with
  | error found =>
      rw [bind_of_unkept hkept] at h
      cases h
      obtain ⟨happly, table, label, count, rfl⟩ := keptCondition_eq_error_iff.1 hkept
      rcases reason_of_beyond hread with ⟨hcombined, rfl⟩ | ⟨hplain, rfl⟩
      · exact .combined rfl happly hcombined
      · exact .other rfl happly hplain
  | ok kept =>
      cases hmismatch : statement.mismatch? kept.isSome params.length with
      | some found =>
          rw [bind_of_mismatch hkept hmismatch] at h
          cases h
          exact .mismatch (hmarks ▸ (mismatch?_eq_some_iff hkept).1 hmismatch)
      | none =>
          cases hliteral : !config.literalPredicates && kept.any isLiteral with
          | true =>
              rw [bind_of_literal hkept hmismatch hliteral] at h
              cases h
              obtain ⟨hrefused, hany⟩ := Bool.and_eq_true_iff.1 hliteral
              obtain ⟨condition, value, hkeeps, hvalue⟩ := (any_isLiteral_iff hkept).1 hany
              exact .literal (hmarks ▸ (mismatch?_eq_none_iff hkept).1 hmismatch)
                (by simpa using hrefused) hkeeps hvalue
          | false =>
              rw [bind_eq_ok_iff_numbered.2 ⟨kept, hkept, hmismatch, hliteral, rfl⟩] at h
              cases h

/-- A reason that rejects a statement is the one for which it is not bound. -/
theorem bind_of_rejects (hread : ofText text = .ok statement)
    (h : statement.Rejects config (Token.ofText text) params.length reason) :
    statement.bind config params = .error reason := by
  have hmarks := count_placeholder_of_ofText hread
  cases h with
  | combined form applied combined =>
      subst form
      rcases reason_of_beyond hread with ⟨-, rfl⟩ | ⟨hplain, -⟩
      · exact bind_of_unkept (keptCondition_eq_error_iff.2 ⟨applied, _, _, _, rfl⟩) params
      · exact absurd combined hplain
  | other form applied plain =>
      subst form
      rcases reason_of_beyond hread with ⟨hcombined, -⟩ | ⟨-, rfl⟩
      · exact absurd hcombined plain
      · exact bind_of_unkept (keptCondition_eq_error_iff.2 ⟨applied, _, _, _, rfl⟩) params
  | mismatch mismatch =>
      obtain ⟨kept, hkept⟩ := mismatch.exists_kept
      exact bind_of_mismatch hkept ((mismatch?_eq_some_iff hkept).2 (hmarks ▸ mismatch))
  | literal matched refused keeps literal =>
      have hkept := keeps_iff.1 keeps
      refine bind_of_literal hkept ((mismatch?_eq_none_iff hkept).2 (hmarks ▸ matched)) ?_
      rw [refused, (any_isLiteral_iff hkept).2 ⟨_, _, keeps, literal⟩]
      rfl

/-! ## Parameters left over -/

/-- The condition of a reading is given the first parameter, if it is given one. -/
theorem filter?_numbered_congr {condition : Condition Slot}
    (hkeeps : statement.Keeps policy condition) (hreads : statement.shape.changesRows = false)
    {others : List Value}
    (h : others.take statement.placeholders = params.take statement.placeholders) :
    (statement.numbered (some condition) others).filter? =
      (statement.numbered (some condition) params).filter? := by
  have hplaces : statement.values = [] ∧
      statement.placeholders = placeholdersIn [condition.operand] := by
    cases hkeeps with
    | update | delete => cases hreads
    | select | count => exact ⟨rfl, Nat.zero_add _⟩
  obtain ⟨hvalues, hplaceholders⟩ := hplaces
  rw [hplaceholders] at h
  have hnumber : placeholdersIn statement.values = 0 := by rw [hvalues]; rfl
  simp only [BoundStatement.filter?, numbered, Option.map_some, hnumber, numberCondition]
  cases hoperand : condition.operand with
  | literal value => rfl
  | placeholder =>
      rw [hoperand] at h
      have hfirst : others[0]? = params[0]? := by
        have hhead := congrArg List.head? h
        rwa [List.head?_take, List.head?_take, if_neg (by decide), if_neg (by decide),
          List.head?_eq_getElem?, List.head?_eq_getElem?] at hhead
      simp [BoundStatement.resolve, hfirst]

end Statement

/-- What a reading asks for depends on its shape, filter, order and limit alone. -/
theorem BoundStatement.Asks.congr {bound other : BoundStatement} {request : Request}
    (h : bound.Asks request) (hreads : bound.shape.changesRows = false)
    (hshape : other.shape = bound.shape) (hfilter : other.filter? = bound.filter?)
    (horder : other.order = bound.order) (hlimit : other.limit = bound.limit) :
    other.Asks request := by
  cases h with
  | select shape =>
      rw [← hfilter, ← horder, ← hlimit]
      exact .select (hshape.trans shape)
  | count shape =>
      rw [← hfilter]
      exact .count (hshape.trans shape)
  | insert shape | update shape | delete shape =>
      rw [shape] at hreads
      cases hreads

namespace Statement

variable {config : Config} {statement : Statement} {params others : List Value}

theorem request?_eq_some_of_take (hreads : statement.shape.changesRows = false)
    (h : others.take statement.placeholders = params.take statement.placeholders)
    {request : Request} (hrequest : statement.request? config params = some request) :
    statement.request? config others = some request := by
  obtain ⟨bound, hbind, hasks⟩ := request?_eq_some_iff.1 hrequest
  obtain ⟨kept, hkept, hmismatch, hliteral, rfl⟩ := bind_eq_ok_iff_numbered.1 hbind
  have hlength : others.length < statement.placeholders ↔
      params.length < statement.placeholders := by
    have hmin := congrArg List.length h
    rw [List.length_take, List.length_take] at hmin
    omega
  have hothers : statement.mismatch? kept.isSome others.length = none := by
    cases statement with
    | insert | update | delete => cases hreads
    | select | count => simpa [mismatch?, hlength] using hmismatch
  have hfilter : (statement.numbered kept others).filter? =
      (statement.numbered kept params).filter? := by
    cases kept with
    | none => rfl
    | some condition => exact filter?_numbered_congr (keeps_iff.2 hkept) hreads h
  exact request?_eq_some_iff.2
    ⟨_, bind_eq_ok_iff_numbered.2 ⟨kept, hkept, hothers, hliteral, rfl⟩,
      hasks.congr hreads rfl hfilter rfl rfl⟩

theorem request?_congr_of_take (config : Config) (hreads : statement.shape.changesRows = false)
    (h : others.take statement.placeholders = params.take statement.placeholders) :
    statement.request? config others = statement.request? config params :=
  Option.ext fun _ =>
    ⟨request?_eq_some_of_take hreads h.symm, request?_eq_some_of_take hreads h⟩

/-- Every statement is rejected for the reason that is told without binding, or is bound. -/
theorem decided {text : String} (hread : ofText text = .ok statement) (config : Config)
    (params : List Value) : Decided config text params statement where
  rejected reason := ⟨rejects_of_bind hread, bind_of_rejects hread⟩
  bound := by
    intro hfree
    cases hbind : statement.bind config params with
    | error reason => exact absurd (rejects_of_bind hread hbind) (hfree reason)
    | ok bound => exact ⟨bound, rfl⟩
  surplus := by
    intro hreads others h
    rw [count_placeholder_of_ofText hread] at h
    exact request?_congr_of_take config hreads h
  raw := by
    rintro raw rfl
    refine ⟨bind_of_ofText hread params, ?_⟩
    intro σ store state
    exact sent_of_ofText hread store params state

/-- A count by a literal where none is wanted, with a parameter too many. -/
theorem decided_literal :
    ofText "SELECT COUNT(*) n FROM notes WHERE rank > 7" =
        .ok (.count "notes" (some "n") (.single ⟨"rank", .gt, .literal (.int 7)⟩)) ∧
      Decided { literalPredicates := false } "SELECT COUNT(*) n FROM notes WHERE rank > 7" [.null]
        (.count "notes" (some "n") (.single ⟨"rank", .gt, .literal (.int 7)⟩)) := by
  have hread : ofText "SELECT COUNT(*) n FROM notes WHERE rank > 7" =
      .ok (.count "notes" (some "n") (.single ⟨"rank", .gt, .literal (.int 7)⟩)) := by
    rw [← toOption_eq_some_iff]
    decide +kernel
  exact ⟨hread, decided hread { literalPredicates := false } [.null]⟩

end Statement

end ClosedSql
