import ClosedSql.Proofs.Database.Sent
import ClosedSql.Proofs.Memory.Service
import ClosedSql.Proofs.Statement.Binding
import ClosedSql.Proofs.Statement.Recognition
import ClosedSql.Sql.Query

/-!
# Changes have a condition

No text makes a raw call change or delete every row of a table. The grammar demands a condition of
every statement that changes rows, binding keeps it under every policy, and the request that is
sent has it as its only filter. Such a request is not refused by tables in memory, and as SQL it
has one condition after `WHERE`.
-/

namespace ClosedSql

/-- The request changes or deletes rows that are already there. -/
def Request.Alters (request : Request) : Prop :=
  request.action = .delete ∨ ∃ values, request.action = .update values

/-- The value that a slot of a condition stands for. A placeholder takes the last parameter, since
the condition comes last in the text. -/
def Slot.value? (params : List Value) : Slot → Option Value
  | .placeholder => params.getLast?
  | .literal value => some value

/-- The statement demands the request, and a condition for it. -/
inductive Demands (request : Request) (condition : Condition Slot) : Statement → Prop
  | update {assignments : List (String × Slot)} {values : Record}
      (action : request.action = .update values) (assigns : values.isEmpty = false) :
      Demands request condition (.update request.table assignments condition)
  | delete (action : request.action = .delete) :
      Demands request condition (.delete request.table condition)

/-- A request with a single filter, which is what each kind of store goes by. -/
structure Filtered (filter : Filter) (request : Request) : Prop where
  filters : request.filters = [filter]
  /-- Tables in memory never refuse the request for want of a filter. -/
  accepted : ∀ (now : Calendar.Instant) (memory : Memory) (table : String),
    (Memory.execute now request memory).1 ≠ .error (.unfilteredUpdate table) ∧
      (Memory.execute now request memory).1 ≠ .error (.unfilteredDelete table)
  /-- As SQL it has one condition, which compares the column with a parameter. -/
  rendered : ∃ number, request.toQuery = .ok ⟨SqlPart.join (request.actionParts ++
      .fixed " WHERE " :: (filter.parts number ++ request.tailParts)), request.params⟩ ∧
    0 < number ∧ request.params[number - 1]? = some filter.operand
  /-- There is no other condition in the statement. -/
  single : ∀ part ∈ request.actionParts ++ request.tailParts,
    part ≠ .fixed " WHERE " ∧ part ≠ .fixed " AND "

/-! ## Requests with one filter -/

namespace Request

variable {request : Request} {filter : Filter}

theorem action_filter? (request : Request) (filter : Option Filter) :
    (request.filter? filter).action = request.action := by
  cases filter <;> rfl

theorem not_alters_of_select {columns : List String} (h : request.action = .select columns) :
    ¬request.Alters := by
  rw [Alters, h]
  rintro (h | ⟨_, h⟩) <;> cases h

/-- A request with a filter is not refused. -/
theorem refusal?_of_filters (h : request.filters = [filter]) : Memory.refusal? request = none := by
  rw [Memory.refusal?, h]
  rfl

theorem execute_ne_unfiltered (h : request.filters = [filter]) (now : Calendar.Instant)
    (memory : Memory) (table : String) :
    (Memory.execute now request memory).1 ≠ .error (.unfilteredUpdate table) ∧
      (Memory.execute now request memory).1 ≠ .error (.unfilteredDelete table) := by
  have hserved := Memory.served now request memory
  generalize memory.execute now request = outcome at hserved ⊢
  cases hserved with
  | doomed _ => simp
  | missing _ _ => simp
  | refused _ _ refusal =>
      rw [refusal?_of_filters h] at refusal
      cases refusal
  | answered _ _ _ => simp

theorem mem_separated {separator : String} {members : List (List SqlPart)} {part : SqlPart}
    (h : part ∈ SqlPart.separated separator members) :
    part = .fixed separator ∨ ∃ member ∈ members, part ∈ member := by
  induction members with
  | nil => cases h
  | cons first rest ih =>
      cases rest with
      | nil => exact .inr ⟨first, List.mem_cons_self, by simpa [SqlPart.separated] using h⟩
      | cons second rest =>
          have hstep : SqlPart.separated separator (first :: second :: rest) =
              first ++ .fixed separator :: SqlPart.separated separator (second :: rest) := rfl
          rw [hstep, List.mem_append, List.mem_cons] at h
          rcases h with h | h | h
          · exact .inr ⟨first, List.mem_cons_self, h⟩
          · exact .inl h
          · refine (ih h).imp_right ?_
            rintro ⟨member, hmember, hpart⟩
            exact ⟨member, List.mem_cons_of_mem _ hmember, hpart⟩

/-- One filter makes one condition. -/
theorem conditionParts_of_filters (h : request.filters = [filter]) :
    request.conditionParts =
      .fixed " WHERE " :: filter.parts (request.actionParams.length + 1) := by
  rw [conditionParts, h]
  simp [SqlPart.separated]

theorem toQuery_of_filters (h : request.filters = [filter]) (hsets : request.setsNothing = false) :
    ∃ number, request.toQuery = .ok ⟨SqlPart.join (request.actionParts ++
        .fixed " WHERE " :: (filter.parts number ++ request.tailParts)), request.params⟩ ∧
      0 < number ∧ request.params[number - 1]? = some filter.operand := by
  refine ⟨request.actionParams.length + 1, ?_, Nat.succ_pos _, ?_⟩
  · rw [toQuery, hsets, parts, conditionParts_of_filters h]
    simp
  · rw [params, h]
    simp

/-- Before the conditions of a mutation nothing reads like one. -/
theorem ne_condition_of_mem_actionParts (h : request.Alters) {part : SqlPart}
    (hpart : part ∈ request.actionParts) : part ≠ .fixed " WHERE " ∧ part ≠ .fixed " AND " := by
  rw [actionParts] at hpart
  rcases h with h | ⟨values, h⟩
  · rw [h] at hpart
    simp only [List.mem_cons, List.not_mem_nil, or_false] at hpart
    rcases hpart with rfl | rfl <;> simp
  · rw [h] at hpart
    rcases List.mem_append.1 hpart with hpart | hpart
    · simp only [List.mem_cons, List.not_mem_nil, or_false] at hpart
      rcases hpart with rfl | rfl | rfl <;> simp
    · rcases mem_separated hpart with rfl | ⟨member, hmember, hpart⟩
      · simp
      · obtain ⟨entry, -, rfl⟩ := List.mem_map.1 hmember
        simp only [List.mem_cons, List.not_mem_nil, or_false] at hpart
        rcases hpart with rfl | rfl | rfl <;> simp

/-- Behind the conditions of a mutation nothing reads like one. -/
theorem ne_condition_of_mem_tailParts (h : request.Alters) {part : SqlPart}
    (hpart : part ∈ request.tailParts) : part ≠ .fixed " WHERE " ∧ part ≠ .fixed " AND " := by
  have hmutation : request.isMutation = true := by
    rw [isMutation]
    rcases h with h | ⟨values, h⟩ <;> rw [h]
  rw [tailParts, if_pos hmutation] at hpart
  split at hpart
  · rw [List.mem_singleton.1 hpart]
    decide
  · cases hpart

/-- A mutation with one filter has it as the only condition on each kind of store. -/
theorem filtered_of_filters (h : request.filters = [filter]) (halters : request.Alters)
    (hsets : request.setsNothing = false) : Filtered filter request where
  filters := h
  accepted := execute_ne_unfiltered h
  rendered := toQuery_of_filters h hsets
  single part hpart := by
    rcases List.mem_append.1 hpart with hpart | hpart
    · exact ne_condition_of_mem_actionParts halters hpart
    · exact ne_condition_of_mem_tailParts halters hpart

end Request

/-! ## Requests of bound statements -/

theorem NameMap.isEmpty_ofList {α : Type} {pairs : List (String × α)} (h : pairs ≠ []) :
    (NameMap.ofList pairs).isEmpty = false := by
  obtain ⟨front, last, hpairs⟩ := (List.eq_nil_or_concat pairs).resolve_left h
  rw [List.concat_eq_append] at hpairs
  subst hpairs
  have hlast : (NameMap.ofList (front ++ [last])).get? last.1 = some last.2 := by
    rw [get?_ofList]
    simp
  rw [Bool.eq_false_iff]
  intro hempty
  rw [isEmpty, List.isEmpty_iff] at hempty
  rw [get?, hempty] at hlast
  cases hlast

namespace Statement

open Grammar

/-- A change that is read sets one column at least. -/
theorem assignments_ne_nil {text table : String} {assignments : List (String × Slot)}
    {condition : Condition Slot} (h : ofText text = .ok (.update table assignments condition)) :
    assignments ≠ [] := by
  obtain ⟨front, last, -, hform, -⟩ := sentence_iff.1 (ofTokens_eq_ok_iff.1 h)
  cases hform with
  | update _ _ _ setList =>
      cases setList with
      | intro => simp

/-- The filter of a statement whose parameters match is its condition. -/
theorem filter?_numbered {statement : Statement} {condition : Condition Slot} {params : List Value}
    (hparams : params.length =
      placeholdersIn statement.values + placeholdersIn [condition.operand]) :
    ∃ value, condition.operand.value? params = some value ∧
      (statement.numbered (some condition) params).filter? =
        some ⟨condition.column, condition.op, value⟩ := by
  obtain ⟨column, op, operand⟩ := condition
  cases operand with
  | literal value => exact ⟨value, rfl, rfl⟩
  | placeholder =>
      have hlength : params.length = placeholdersIn statement.values + 1 := hparams
      have hlast : placeholdersIn statement.values < params.length := by omega
      refine ⟨params[placeholdersIn statement.values], ?_, ?_⟩
      · rw [Slot.value?, List.getLast?_eq_getElem?, hlength, Nat.add_sub_cancel,
          List.getElem?_eq_getElem hlast]
      · simp [numbered, BoundStatement.filter?, BoundStatement.resolve, numberCondition,
          List.getElem?_eq_getElem hlast]

theorem isEmpty_assignments_numbered {text table : String} {assignments : List (String × Slot)}
    {condition : Condition Slot} (h : ofText text = .ok (.update table assignments condition))
    (kept : Option (Condition Slot)) (params : List Value) :
    ((update table assignments condition).numbered kept params).assignments.isEmpty = false := by
  apply NameMap.isEmpty_ofList
  apply List.ne_nil_of_length_pos
  -- Columns and values are zipped, and there are as many values as columns.
  have hpos : 0 < assignments.length := List.length_pos_iff.2 (assignments_ne_nil h)
  rw [List.length_map, List.length_zip]
  change 0 < min (assignments.map Prod.fst).length
    (numberSlots 0 (assignments.map Prod.snd)).length
  rw [length_numberSlots, List.length_map, List.length_map, Nat.min_self]
  exact hpos

end Statement

namespace Database

/-- A request comes from a statement that was read and whose parameters match. -/
theorem exists_of_request? {config : Config} {text : String} {params : List Value}
    {request : Request} (h : request? config text params = some request) :
    ∃ statement kept, Statement.ofText (config.normalize text) = .ok statement ∧
      statement.keptCondition config.countPolicy = .ok kept ∧
      statement.mismatch? kept.isSome params.length = none ∧
      ((statement.numbered kept params).call? config).map Call.request = some request := by
  unfold request? at h
  cases hbind : config.bind text params with
  | error reason =>
      rw [hbind] at h
      cases h
  | ok bound =>
      rw [hbind] at h
      obtain ⟨statement, hread, hbound⟩ := Config.bind_eq_ok_iff.1 hbind
      obtain ⟨kept, hkept, hmismatch, -, rfl⟩ := Statement.bind_eq_ok_iff_numbered.1 hbound
      exact ⟨statement, kept, hread, hkept, hmismatch, h⟩

/-- Whatever a raw call sends to change or delete rows, it sends with one filter: the condition
that the statement demands. -/
theorem filtered_of_mem_sent {σ : Type} {config : Config} {store : Store σ} {text : String}
    {params : List Value} {state : σ} {request : Request}
    (hsent : request ∈ sent config store text params state) (halters : request.Alters) :
    ∃ statement condition value, Statement.ofText (config.normalize text) = .ok statement ∧
      Demands request condition statement ∧ condition.operand.value? params = some value ∧
      Filtered ⟨condition.column, condition.op, value⟩ request := by
  rw [sent_eq, Option.mem_toList] at hsent
  obtain ⟨statement, kept, hread, hkept, hmismatch, hcall⟩ := exists_of_request? hsent
  cases statement with
  | insert table columns values =>
      cases hcall
      rcases halters with h | ⟨_, h⟩ <;> cases h
  | select table condition order limit =>
      have haction : request.action = .select ["*"] := by
        cases hcall
        exact Request.action_filter? _ _
      exact absurd halters (Request.not_alters_of_select haction)
  | count table label filter =>
      have haction : request.action = .select ["*"] := by
        cases hcall
        exact Request.action_filter? _ _
      exact absurd halters (Request.not_alters_of_select haction)
  | update table assignments condition =>
      cases hkept
      have hlength : params.length =
          (Statement.update table assignments condition).placeholders := by
        simpa [Statement.mismatch?] using hmismatch
      obtain ⟨value, hvalue, hfilter⟩ := Statement.filter?_numbered hlength
      have hassigns := Statement.isEmpty_assignments_numbered hread (some condition) params
      -- The request is built from the bound statement, whose filter is the condition read above.
      have hrequest := Option.some.inj hcall
      change ((Request.update table _).filter? (BoundStatement.filter? _)).returningRows = request
        at hrequest
      rw [hfilter] at hrequest
      subst hrequest
      exact ⟨_, condition, value, hread, .update rfl hassigns, hvalue,
        Request.filtered_of_filters rfl halters hassigns⟩
  | delete table condition =>
      cases hkept
      have hlength : params.length = (Statement.delete table condition).placeholders := by
        simpa [Statement.mismatch?] using hmismatch
      obtain ⟨value, hvalue, hfilter⟩ := Statement.filter?_numbered hlength
      have hrequest := Option.some.inj hcall
      change ((Request.delete table).filter? (BoundStatement.filter? _)).returningRows = request
        at hrequest
      rw [hfilter] at hrequest
      subst hrequest
      exact ⟨_, condition, value, hread, .delete rfl, hvalue,
        Request.filtered_of_filters rfl halters rfl⟩

/-- A change whose assignments hold dialect literals, on a store that answers with no rows. -/
theorem filtered_of_mem_sent_update : ∃ (store : Store Unit) (request : Request),
    request ∈ sent {} store "UPDATE notes SET title = ?, due = CURRENT_TIMESTAMP WHERE id <> ?;"
        [.text "x", .int 7] () ∧ request.Alters ∧
      ∃ statement condition value, Statement.ofText (({} : Config).normalize
          "UPDATE notes SET title = ?, due = CURRENT_TIMESTAMP WHERE id <> ?;") = .ok statement ∧
        Demands request condition statement ∧
        condition.operand.value? [.text "x", .int 7] = some value ∧
        Filtered ⟨condition.column, condition.op, value⟩ request := by
  have hrequest : request? {} "UPDATE notes SET title = ?, due = CURRENT_TIMESTAMP WHERE id <> ?;"
      [.text "x", .int 7] = some
        { Request.update "notes" (.ofList [("due", .text "now()"), ("title", .text "x")]) with
          filters := [⟨"id", .ne, .int 7⟩], returning := true } := by
    decide +kernel
  have hsent := Option.mem_toList.2 hrequest
  rw [← sent_eq {} (fun _ => pure (.ok .empty) : Store Unit) _ _ ()] at hsent
  exact ⟨_, _, hsent, .inr ⟨_, rfl⟩, filtered_of_mem_sent hsent (.inr ⟨_, rfl⟩)⟩

end Database

end ClosedSql
