import ClosedSql.Proofs.Database.OneRequest
import ClosedSql.Proofs.Statement.Counts

/-!
# Policies for counts

A count is read in the same way under every setting; what the settings decide is whether its
condition is kept. Where conditions are dropped, a count is what stands before `where`: any
parameters will do, and every row counts. Where they are applied, a count that has a condition is
answered with the rows that meet it, or not at all.
-/

namespace ClosedSql

def Config.withCounts (config : Config) (policy : CountPolicy) (literals : Bool) : Config :=
  { config with countPolicy := policy, literalPredicates := literals }

def Request.total (table : String) : Request :=
  (Request.selectAll table).counting.headOnly

/-- The request that a statement makes once it is bound, if it can be bound. -/
def Statement.request? (statement : Statement) (config : Config) (params : List Value) :
    Option Request :=
  match statement.bind config params with
  | .ok bound => (bound.call? config).map Call.request
  | .error _ => none

namespace Statement

variable {config : Config} {statement : Statement} {params : List Value} {raw table : String}

/-! ## Texts that are read -/

theorem bind_of_ofText (hread : ofText (config.normalize raw) = .ok statement)
    (params : List Value) : config.bind raw params = statement.bind config params := by
  rw [Config.bind, hread]

theorem sent_of_ofText {σ : Type} (hread : ofText (config.normalize raw) = .ok statement)
    (store : Store σ) (params : List Value) (state : σ) :
    Database.sent config store raw params state = (statement.request? config params).toList := by
  rw [Database.sent_eq, Database.request?, bind_of_ofText hread]
  rfl

/-- The request of a statement is the one that its bound form asks for. -/
theorem request?_eq_some_iff {request : Request} :
    statement.request? config params = some request ↔
      ∃ bound, statement.bind config params = .ok bound ∧ bound.Asks request := by
  rw [request?]
  cases hbind : statement.bind config params with
  | error reason => simp
  | ok bound =>
      obtain ⟨asked, hasked⟩ := BoundStatement.exists_asks_of_bind hbind
      obtain ⟨call, hcall, rfl⟩ := hasked.exists_call config
      simp only [hcall, Option.map_some, Option.some.injEq, Except.ok.injEq, exists_eq_left']
      constructor
      · rintro rfl
        exact hasked
      · exact fun h => (h.unique hasked)

end Statement

/-- How the settings for counts bear on a count that is read from a text. -/
structure CountsAgree (config : Config) (text table : String) (label : Option String)
    (statement : Statement) : Prop where
  /-- Where conditions are dropped, any parameters will do, and every row counts. -/
  ignored : ∀ (literals : Bool) (params : List Value), ∃ bound,
    statement.bind (config.withCounts .ignore literals) params = .ok bound ∧
      bound.predicate = none ∧ bound.shape = .count table ∧ bound.countLabel = label ∧
      statement.request? (config.withCounts .ignore literals) params = some (.total table)
  /-- What stands before `where` makes the same request under all settings. -/
  bare : ∀ (bare : String) (last : List Token), Statement.Ending last →
    Token.ofText bare = Token.beforeWhere (Token.ofText text) ++ last →
      ∃ stripped, Statement.ofText bare = .ok stripped ∧
        ∀ (policy : CountPolicy) (literals : Bool) (params : List Value),
          stripped.request? (config.withCounts policy literals) params = some (.total table)
  /-- The text can be cut off there. -/
  cut : ∃ bare : String, bare.toList <+: text.toList ∧
    Token.ofText bare = Token.beforeWhere (Token.ofText text)
  /-- What is bound where conditions are applied is bound where they are dropped. -/
  looser : ∀ (literals others : Bool) (params : List Value) (bound : BoundStatement),
    statement.bind (config.withCounts .apply literals) params = .ok bound → ∃ other,
      statement.bind (config.withCounts .ignore others) params = .ok other ∧
        other.shape = bound.shape ∧ other.countLabel = bound.countLabel
  /-- Where conditions are applied, no count with a condition is made without a filter. -/
  filtered : ∀ (literals : Bool) (params : List Value) (request : Request),
    statement.request? (config.withCounts .apply literals) params = some request →
      (request.filters ≠ [] ↔ Token.HasWhere (Token.ofText text))
  /-- Raw calls send these requests. -/
  sent : ∀ (raw : String) (read : Statement), Statement.ofText (config.normalize raw) = .ok read →
    ∀ (policy : CountPolicy) (literals : Bool) (params : List Value) (σ : Type) (store : Store σ)
      (state : σ), Database.sent (config.withCounts policy literals) store raw params state =
        (read.request? (config.withCounts policy literals) params).toList

namespace Statement

variable {config : Config} {text table : String} {label : Option String} {filter : CountFilter}

/-- A count whose condition is dropped. -/
theorem bind_count_of_dropped (params : List Value)
    (hkept : (count table label filter).keptCondition config.countPolicy = .ok none) :
    (count table label filter).bind config params =
      .ok ((count table label filter).numbered none params) :=
  bind_eq_ok_iff_numbered.2 ⟨none, hkept, rfl, Bool.and_false _, rfl⟩

/-- A count without its condition asks for the number of all rows. -/
theorem request?_count_of_dropped (params : List Value)
    (hkept : (count table label filter).keptCondition config.countPolicy = .ok none) :
    (count table label filter).request? config params = some (.total table) :=
  request?_eq_some_iff.2 ⟨_, bind_count_of_dropped params hkept, .count rfl⟩

/-- Where conditions are ignored a count keeps none. -/
theorem keptCondition_count_ignore (table : String) (label : Option String)
    (filter : CountFilter) : (count table label filter).keptCondition .ignore = .ok none := by
  cases filter <;> rfl

/-- A count asks for a filter if and only if its condition is kept. -/
theorem filters_numbered_ne_nil_iff {kept : Option (Condition Slot)} {params : List Value}
    {request : Request} (h : ((count table label filter).numbered kept params).Asks request) :
    request.filters ≠ [] ↔ kept ≠ none := by
  obtain rfl := (BoundStatement.Asks.count rfl).unique h
  cases kept <;> simp [BoundStatement.filter?, numbered]

/-- Where conditions are applied a count keeps one if it has one. -/
theorem keptCondition_count_apply_ne_none {kept : Option (Condition Slot)}
    (h : (count table label filter).keptCondition .apply = .ok kept) :
    kept ≠ none ↔ filter ≠ .none := by
  cases filter <;> cases h <;> simp

/-- The policies agree on a count but for its condition: without it the count is always made, and
with it the count is filtered or not made. -/
theorem counts_agree (hread : ofText text = .ok (.count table label filter)) (config : Config) :
    CountsAgree config text table label (.count table label filter) where
  ignored literals params :=
    have hkept := keptCondition_count_ignore table label filter
    ⟨_, bind_count_of_dropped params hkept, rfl, rfl, rfl, request?_count_of_dropped params hkept⟩
  bare := by
    intro bare last hlast hbare
    refine ⟨_, ofText_of_beforeWhere hread hlast hbare, ?_⟩
    intro policy literals params
    exact request?_count_of_dropped params rfl
  cut := exists_beforeWhere hread
  looser := by
    intro literals others params bound hbind
    obtain ⟨kept, -, -, -, rfl⟩ := bind_eq_ok_iff_numbered.1 hbind
    have hkept := keptCondition_count_ignore table label filter
    exact ⟨_, bind_count_of_dropped params hkept, rfl, rfl⟩
  filtered := by
    intro literals params request hrequest
    obtain ⟨bound, hbind, hasks⟩ := request?_eq_some_iff.1 hrequest
    obtain ⟨kept, hkept, -, -, rfl⟩ := bind_eq_ok_iff_numbered.1 hbind
    rw [hasWhere_iff_of_ofText hread, filters_numbered_ne_nil_iff hasks,
      keptCondition_count_apply_ne_none hkept]
  sent := by
    intro raw read hraw policy literals params σ store state
    have hraw : ofText ((config.withCounts policy literals).normalize raw) = .ok read := hraw
    exact sent_of_ofText hraw store params state

theorem counts_agree_alternative :
    ofText "SELECT COUNT(*) AS n FROM notes WHERE done = ? OR rank > 1;" =
        .ok (.count "notes" (some "n") (.beyond .ambiguous 1)) ∧
      CountsAgree {} "SELECT COUNT(*) AS n FROM notes WHERE done = ? OR rank > 1;" "notes"
        (some "n") (.count "notes" (some "n") (.beyond .ambiguous 1)) := by
  have hread : ofText "SELECT COUNT(*) AS n FROM notes WHERE done = ? OR rank > 1;" =
      .ok (.count "notes" (some "n") (.beyond .ambiguous 1)) := by
    rw [← toOption_eq_some_iff]
    decide +kernel
  exact ⟨hread, counts_agree hread {}⟩

end Statement

end ClosedSql
