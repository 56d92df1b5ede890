import ClosedSql.Proofs.Database.MutationSafety

/-!
# Values never shape a statement

A request is written as SQL without a look at its values, and parameters are bound without a look at
them. So of two lists of parameters of the same length a text makes the same statement or is refused
for the same reason, and whatever a value says, it stands in the list of parameters and nowhere
else.
-/

namespace ClosedSql

/-! ## Requests without their values -/

def Action.outline : Action → Action
  | .select columns => .select columns
  | .insert record => .insert (record.mapValues fun _ => .null)
  | .update values => .update (values.mapValues fun _ => .null)
  | .delete => .delete

def Filter.outline (filter : Filter) : Filter :=
  { filter with operand := .null }

def Request.outline (request : Request) : Request :=
  { request with action := request.action.outline, filters := request.filters.map Filter.outline }

/-- The requests differ in nothing but values. -/
def Request.SameOutline (request other : Request) : Prop :=
  request.outline = other.outline

namespace Request

variable (request : Request)

theorem setsNothing_outline : request.outline.setsNothing = request.setsNothing := by
  obtain ⟨table, action, filters, order, limit, counted, head, returning⟩ := request
  cases action with
  | update values => exact NameMap.isEmpty_mapValues _ values
  | select | insert | delete => rfl

theorem length_actionParams_outline :
    request.outline.actionParams.length = request.actionParams.length := by
  obtain ⟨table, action, filters, order, limit, counted, head, returning⟩ := request
  cases action with
  | insert record => simp [actionParams, outline, Action.outline, NameMap.mapValues]
  | update values => simp [actionParams, outline, Action.outline, NameMap.mapValues]
  | select | delete => rfl

theorem actionParts_outline : request.outline.actionParts = request.actionParts := by
  obtain ⟨table, action, filters, order, limit, counted, head, returning⟩ := request
  cases action with
  | select columns => rfl
  | insert record =>
      simp only [actionParts, outline, Action.outline, NameMap.isEmpty_mapValues,
        NameMap.names_mapValues, NameMap.size_mapValues]
  | update values =>
      simp only [actionParts, outline, Action.outline, NameMap.names_mapValues]
  | delete => rfl

theorem conditionParts_outline : request.outline.conditionParts = request.conditionParts := by
  rw [conditionParts, conditionParts, length_actionParams_outline]
  have hfilters : request.outline.filters = request.filters.map Filter.outline := rfl
  rw [hfilters, List.isEmpty_map, List.zipIdx_map, List.map_map]
  rfl

theorem tailParts_outline : request.outline.tailParts = request.tailParts := by
  obtain ⟨table, action, filters, order, limit, counted, head, returning⟩ := request
  cases action <;> rfl

/-- The SQL of a request, or the reason why there is none, does not need its values. -/
theorem text_toQuery_outline :
    request.outline.toQuery.map Query.text = request.toQuery.map Query.text := by
  rw [toQuery, toQuery, setsNothing_outline, parts, parts, actionParts_outline,
    conditionParts_outline, tailParts_outline]
  split <;> rfl

theorem outline_filter? (filter : Option Filter) :
    (request.filter? filter).outline =
      request.outline.filter? (filter.map Filter.outline) := by
  cases filter with
  | none => rfl
  | some filter => simp [outline, Request.filter?, Request.filter]

variable {request} {other : Request}

/-- Requests of the same outline have the same text. -/
theorem SameOutline.text (h : request.SameOutline other) :
    request.toQuery.map Query.text = other.toQuery.map Query.text := by
  rw [← text_toQuery_outline, h, text_toQuery_outline]

end Request

/-! ## Statements with other parameters -/

namespace BoundStatement

def withParams (bound : BoundStatement) (params : List Value) : BoundStatement :=
  { bound with params := params }

theorem outline_assignments (bound : BoundStatement) (params : List Value) :
    (bound.withParams params).assignments.mapValues (fun _ => Value.null) =
      bound.assignments.mapValues fun _ => .null := by
  rw [assignments, assignments, NameMap.mapValues_ofList, NameMap.mapValues_ofList, List.map_map,
    List.map_map]
  rfl

theorem outline_filter? (bound : BoundStatement) (params : List Value) :
    (bound.withParams params).filter?.map Filter.outline = bound.filter?.map Filter.outline := by
  rw [filter?, filter?, Option.map_map, Option.map_map]
  rfl

/-- The outline of a call does not depend on the parameters. -/
theorem outline_call? (bound : BoundStatement) (config : Config) (params : List Value) :
    ((bound.withParams params).call? config).map (fun call => call.request.outline) =
      (bound.call? config).map fun call => call.request.outline := by
  have hassignments := outline_assignments bound params
  have hfilter := outline_filter? bound params
  have hshape : (bound.withParams params).shape = bound.shape := rfl
  unfold call?
  rw [hshape]
  cases bound.shape with
  | insert table columns =>
      simp only [Option.map_some, Option.some.injEq]
      simp only [Request.outline, Request.insert, Request.ofAction, Request.returningRows,
        Action.outline, hassignments]
  | update table columns =>
      simp only [Option.map_some, Option.some.injEq]
      change (Request.filter? _ _).outline.returningRows = (Request.filter? _ _).outline.returningRows
      rw [Request.outline_filter?, Request.outline_filter?, hfilter]
      simp only [Request.outline, Request.update, Request.ofAction, Action.outline, hassignments]
  | delete table =>
      simp only [Option.map_some, Option.some.injEq]
      change (Request.filter? _ _).outline.returningRows = (Request.filter? _ _).outline.returningRows
      rw [Request.outline_filter?, Request.outline_filter?, hfilter]
  | select table =>
      simp only [Option.map_some, Option.some.injEq]
      change { (Request.filter? _ _).outline with order := bound.order, limit := bound.limit } =
        { (Request.filter? _ _).outline with order := bound.order, limit := bound.limit }
      rw [Request.outline_filter?, Request.outline_filter?, hfilter]
  | count table =>
      simp only [Option.map_some, Option.some.injEq]
      rw [Request.outline_filter?, Request.outline_filter?, hfilter]
  | unrecognized text => rfl

end BoundStatement

/-- Binding looks at the number of the parameters only. -/
theorem Statement.bind_of_length {config : Config} {statement : Statement}
    {params others : List Value} (h : params.length = others.length) :
    statement.bind config others =
      (statement.bind config params).map fun bound => bound.withParams others := by
  unfold Statement.bind
  rw [h]
  cases statement.keptCondition config.countPolicy with
  | error reason => rfl
  | ok kept =>
      simp only [Bind.bind, Except.bind]
      cases statement.mismatch? kept.isSome others.length with
      | some found => rfl
      | none =>
          cases !config.literalPredicates && kept.any isLiteral with
          | true => rfl
          | false => rfl

/-- As many other parameters are bound in the same way. -/
theorem Config.bind_of_length (config : Config) (text : String) {params others : List Value}
    (h : params.length = others.length) :
    config.bind text others =
      (config.bind text params).map fun bound => bound.withParams others := by
  rw [Config.bind, Config.bind]
  cases Statement.ofText (config.normalize text) with
  | error reason => rfl
  | ok statement => exact Statement.bind_of_length h

/-! ## The SQL of bound statements -/

theorem Request.setsNothing_filter? (request : Request) (filter : Option Filter) :
    (request.filter? filter).setsNothing = request.setsNothing := by
  rw [setsNothing, setsNothing, action_filter?]

/-- What is bound makes a call, and its request can be written as SQL. -/
theorem Config.exists_query_of_bind {config : Config} {text : String} {params : List Value}
    {bound : BoundStatement} (h : config.bind text params = .ok bound) :
    ∃ call query, bound.call? config = some call ∧ call.request.toQuery = .ok query := by
  obtain ⟨statement, hread, hbound⟩ := Config.bind_eq_ok_iff.1 h
  obtain ⟨kept, -, -, -, rfl⟩ := Statement.bind_eq_ok_iff_numbered.1 hbound
  have hcall : ∃ call, (statement.numbered kept params).call? config = some call ∧
      call.request.setsNothing = false := by
    cases statement with
    | insert table columns values => exact ⟨_, rfl, rfl⟩
    | update table assignments condition =>
        refine ⟨_, rfl, (Request.setsNothing_filter? _ _).trans ?_⟩
        exact Statement.isEmpty_assignments_numbered hread kept params
    | delete table condition => exact ⟨_, rfl, Request.setsNothing_filter? _ _⟩
    | select table condition order limit => exact ⟨_, rfl, Request.setsNothing_filter? _ _⟩
    | count table label filter => exact ⟨_, rfl, Request.setsNothing_filter? _ _⟩
  obtain ⟨call, hcall, hsets⟩ := hcall
  exact ⟨call, _, hcall, by rw [Request.toQuery, hsets]; rfl⟩

theorem Config.params_of_bind {config : Config} {text : String} {params : List Value}
    {bound : BoundStatement} (h : config.bind text params = .ok bound) : bound.params = params := by
  obtain ⟨statement, -, hbound⟩ := Config.bind_eq_ok_iff.1 h
  obtain ⟨kept, -, -, -, rfl⟩ := Statement.bind_eq_ok_iff_numbered.1 hbound
  rfl

/-- Two bound statements that are told apart by their parameters only, down to the SQL of their
requests. -/
structure BoundStatement.SameButParams (config : Config) (bound other : BoundStatement) : Prop where
  shape : other.shape = bound.shape
  predicate : other.predicate = bound.predicate
  values : other.values = bound.values
  order : other.order = bound.order
  limit : other.limit = bound.limit
  countLabel : other.countLabel = bound.countLabel
  /-- Both make a call. The two requests differ in nothing but values, and both are written as the
  same text. -/
  requests : ∃ call otherCall query otherQuery, bound.call? config = some call ∧
    other.call? config = some otherCall ∧ call.request.SameOutline otherCall.request ∧
    call.request.toQuery = .ok query ∧ otherCall.request.toQuery = .ok otherQuery ∧
    query.text = otherQuery.text

/-- Values decide nothing. With other parameters of the same number a text is refused for the same
reason or bound to the same statement, which is written as the same SQL; and so are any two
requests that differ in nothing but values. -/
theorem Config.bind_congr_of_length (config : Config) (text : String) {params others : List Value}
    (h : params.length = others.length) :
    ((∃ reason, config.bind text params = .error reason ∧
        config.bind text others = .error reason) ∨
      ∃ bound other, config.bind text params = .ok bound ∧ config.bind text others = .ok other ∧
        bound.params = params ∧ other.params = others ∧ bound.SameButParams config other) ∧
    ∀ request other : Request, request.SameOutline other →
      request.toQuery.map Query.text = other.toQuery.map Query.text := by
  refine ⟨?_, fun _ _ => Request.SameOutline.text⟩
  have hothers := config.bind_of_length text h
  cases hbind : config.bind text params with
  | error reason =>
      rw [hbind] at hothers
      exact .inl ⟨reason, rfl, hothers⟩
  | ok bound =>
      rw [hbind] at hothers
      obtain ⟨call, query, hcall, hquery⟩ := Config.exists_query_of_bind hbind
      obtain ⟨otherCall, otherQuery, hotherCall, hotherQuery⟩ := Config.exists_query_of_bind hothers
      have houtline := bound.outline_call? config others
      rw [hcall, hotherCall, Option.map_some, Option.map_some, Option.some.injEq] at houtline
      have hsame : call.request.SameOutline otherCall.request := houtline.symm
      have htext := hsame.text
      rw [hquery, hotherQuery] at htext
      exact .inr ⟨bound, bound.withParams others, rfl, hothers, Config.params_of_bind hbind, rfl,
        { shape := rfl, predicate := rfl, values := rfl, order := rfl, limit := rfl,
          countLabel := rfl,
          requests := ⟨call, otherCall, query, otherQuery, hcall, hotherCall, hsame, hquery,
            hotherQuery, Except.ok.inj htext⟩ }⟩

/-- A text that looks like SQL changes no more than the list of parameters. -/
theorem Config.bind_congr_of_length_hostile :
    ([.text "x", .int 7] : List Value).length =
        ([.text "x' WHERE 1 = 1; DROP TABLE notes; --", .null] : List Value).length ∧
      ∃ bound other,
        ({} : Config).bind "UPDATE notes SET title = ? WHERE id = ?" [.text "x", .int 7] =
            .ok bound ∧
          ({} : Config).bind "UPDATE notes SET title = ? WHERE id = ?"
            [.text "x' WHERE 1 = 1; DROP TABLE notes; --", .null] = .ok other ∧
          bound.params = [.text "x", .int 7] ∧
          other.params = [.text "x' WHERE 1 = 1; DROP TABLE notes; --", .null] ∧
          bound.SameButParams {} other := by
  refine ⟨rfl, ?_⟩
  have hbinds : (({} : Config).bind "UPDATE notes SET title = ? WHERE id = ?"
      [.text "x", .int 7]).isOk = true := by
    decide +kernel
  have hlength : ([.text "x", .int 7] : List Value).length =
      ([.text "x' WHERE 1 = 1; DROP TABLE notes; --", .null] : List Value).length := rfl
  have hcases := Config.bind_congr_of_length {} "UPDATE notes SET title = ? WHERE id = ?" hlength
  rcases hcases.1 with ⟨reason, herror, -⟩ | hbound
  · rw [herror] at hbinds
    cases hbinds
  · exact hbound

end ClosedSql
