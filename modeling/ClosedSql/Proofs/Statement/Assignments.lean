import ClosedSql.NameMap.Lookup
import ClosedSql.Proofs.Dialect.Flags
import ClosedSql.Proofs.Statement.Binding
import ClosedSql.Proofs.Statement.Settings

/-!
# What settings are bound to

A column gets the value of the setting that sets it: its literal, or the parameter that goes with its
placeholder. Where its settings stand makes no difference to what a change is bound to, except that a
zero or one is a number in the last setting and a truth value in any other.
-/

namespace ClosedSql

namespace Statement

/-! ## Binding settings -/

theorem slot?_eq_placeholder_iff {token : Token} :
    slot? token = some .placeholder ↔ token = .placeholder := by
  cases token with
  | number text => simp [slot?]
  | word text => simp [slot?]
  | _ => simp [slot?]

end Statement

namespace Setting

/-- The column that a setting sets and the value that it gives it. -/
def stored? (setting : Setting) : Option (String × Value) :=
  setting.pair?.map fun entry =>
    (entry.1, match entry.2 with
      | .placeholder => setting.param
      | .literal value => value)

theorem params_cons (setting : Setting) (settings : List Setting) :
    params (setting :: settings) =
      if setting.operand = .placeholder then setting.param :: params settings
      else params settings := by
  unfold params
  by_cases h : setting.operand = .placeholder
  · simp [h]
  · simp [h]

/-- Settings have a placeholder for each of their parameters. -/
theorem placeholdersIn_entries {settings : List Setting} {found : List (String × Slot)}
    (h : settings.map pair? = found.map some) :
    Statement.placeholdersIn (found.map Prod.snd) = (params settings).length := by
  induction settings generalizing found with
  | nil =>
      obtain rfl := List.map_eq_nil_iff.1 h.symm
      rfl
  | cons setting settings ih =>
      cases found with
      | nil => cases h
      | cons entry found =>
          obtain ⟨column, slot⟩ := entry
          rw [List.map_cons, List.map_cons, List.cons.injEq, pair?_eq_some_iff] at h
          obtain ⟨⟨-, hslot⟩, hrest⟩ := h
          rw [List.map_cons, params_cons, Statement.placeholdersIn, List.count_cons,
            ← Statement.placeholdersIn, ih hrest]
          by_cases hplaceholder : setting.operand = .placeholder
          · have hasked : slot = .placeholder := by
              rw [Statement.slot?_eq_placeholder_iff.2 hplaceholder] at hslot
              exact (Option.some.inj hslot).symm
            rw [if_pos hplaceholder, List.length_cons, hasked]
            rfl
          · have hliteral : slot ≠ .placeholder := by
              rintro rfl
              exact hplaceholder (Statement.slot?_eq_placeholder_iff.1 hslot)
            rw [if_neg hplaceholder, if_neg (by simpa using hliteral), Nat.add_zero]

/-- Each column is given the parameter that goes with its placeholder, or its literal. -/
theorem resolve_entries {settings : List Setting} {found : List (String × Slot)}
    (h : settings.map pair? = found.map some) {bound : BoundStatement} {front more : List Value}
    (hparams : bound.params = front ++ (params settings ++ more)) :
    (((found.map Prod.fst).zip (Statement.numberSlots front.length (found.map Prod.snd))).map
      fun pair => (pair.1, bound.resolve pair.2)).map some = settings.map stored? := by
  -- `front` holds the parameters of the settings that have been read already
  induction settings generalizing found front with
  | nil =>
      obtain rfl := List.map_eq_nil_iff.1 h.symm
      rfl
  | cons setting settings ih =>
      cases found with
      | nil => cases h
      | cons entry found =>
          obtain ⟨column, slot⟩ := entry
          rw [List.map_cons, List.map_cons, List.cons.injEq] at h
          obtain ⟨hentry, hrest⟩ := h
          have hslot := (pair?_eq_some_iff.1 hentry).2
          rw [params_cons] at hparams
          cases slot with
          | placeholder =>
              rw [if_pos (Statement.slot?_eq_placeholder_iff.1 hslot)] at hparams
              have hmore : bound.params = (front ++ [setting.param]) ++ (params settings ++ more) := by
                simpa using hparams
              have hrestored := ih hrest hmore
              have hvalue : bound.resolve (.param front.length) = setting.param := by
                simp [BoundStatement.resolve, hparams]
              rw [List.length_append, List.length_singleton] at hrestored
              rw [List.map_cons, List.map_cons, Statement.numberSlots, List.zip_cons_cons,
                List.map_cons, List.map_cons, hrestored, hvalue, List.map_cons, stored?, hentry]
              rfl
          | literal value =>
              have hliteral : setting.operand ≠ .placeholder := by
                intro hplaceholder
                rw [Statement.slot?_eq_placeholder_iff.2 hplaceholder] at hslot
                cases hslot
              rw [if_neg hliteral] at hparams
              rw [List.map_cons, List.map_cons, Statement.numberSlots, List.zip_cons_cons,
                List.map_cons, List.map_cons, ih hrest hparams, List.map_cons, stored?, hentry]
              rfl

/-- What a change of a table with some settings is bound to, given the tokens of its condition and
the parameters after those of the settings. -/
inductive Bound (table : Token) (settings : List Setting) (rest : List Token) (more : List Value) :
    BoundStatement → Prop
  | intro {name : String} {found : List (String × Slot)} {condition : Condition Slot}
      {tail : List Token} (named : Statement.name? table = some name)
      (entries : settings.map pair? = found.map some) (distinct : (found.map Prod.fst).Nodup)
      (filtered : Statement.condition rest = .ok (condition, tail))
      (ends : tail = [] ∨ tail = [.semicolon])
      (taken : more.length = Statement.placeholdersIn [condition.operand]) :
      Bound table settings rest more
        ((Statement.update name found condition).numbered (some condition)
          (params settings ++ more))

/-- When a change is bound, and to what. -/
theorem bind_eq_ok_iff {text : String} {opening : Opening} {settings : List Setting}
    {rest : List Token} {more : List Value} {bound : BoundStatement}
    (htokens : Token.ofText (({} : Config).normalize text) = opening.tokens settings ++ rest)
    (hne : settings ≠ []) :
    ({} : Config).bind text (params settings ++ more) = .ok bound ↔
      Bound opening.table settings rest more bound := by
  have hlength : ∀ {name : String} {found : List (String × Slot)} {condition : Condition Slot},
      settings.map pair? = found.map some →
      ((Statement.update name found condition).mismatch? true (params settings ++ more).length = none ↔
        more.length = Statement.placeholdersIn [condition.operand]) := by
    intro name found condition hentries
    have hcount : (Statement.update name found condition).placeholders =
        (params settings).length + Statement.placeholdersIn [condition.operand] :=
      congrArg (· + _) (placeholdersIn_entries hentries)
    rw [Statement.mismatch?, hcount, List.length_append, ite_eq_right_iff]
    simp [Nat.add_left_cancel_iff]
  rw [Config.bind_eq_ok_iff, Statement.ofText, htokens]
  constructor
  · rintro ⟨statement, hform, hbind⟩
    obtain ⟨name, found, condition, tail, hname, hentries, hdistinct, hcondition, hfinish⟩ :=
      (Statement.ofTokens_opening_eq_ok_iff hne).1 hform
    obtain ⟨rfl, hends⟩ := Statement.finish_eq_ok_iff.1 hfinish
    obtain ⟨kept, hkept, hmismatch, -, rfl⟩ := Statement.bind_eq_ok_iff_numbered.1 hbind
    cases hkept
    exact .intro hname hentries hdistinct hcondition hends ((hlength hentries).1 hmismatch)
  · rintro ⟨hname, hentries, hdistinct, hcondition, hends, htaken⟩
    refine ⟨_, (Statement.ofTokens_opening_eq_ok_iff hne).2 ⟨_, _, _, _, hname, hentries, hdistinct,
      hcondition, Statement.finish_eq_ok_iff.2 ⟨rfl, hends⟩⟩, ?_⟩
    exact Statement.bind_eq_ok_iff_numbered.2
      ⟨_, rfl, (hlength hentries).2 htaken, Bool.false_and _, rfl⟩

variable {table : Token} {settings others : List Setting} {rest : List Token} {more : List Value}
  {bound : BoundStatement}

/-- The columns of a change with the values they are given. -/
theorem assignments_numbered {found : List (String × Slot)}
    (hentries : settings.map pair? = found.map some) (name : String) (condition : Condition Slot)
    (more : List Value) :
    ∃ pairs, ((Statement.update name found condition).numbered (some condition)
        (params settings ++ more)).assignments = .ofList pairs ∧
      pairs.map some = settings.map stored? ∧ pairs.map Prod.fst = found.map Prod.fst := by
  refine ⟨_, rfl, @resolve_entries settings found hentries _ [] more rfl, ?_⟩
  have hlength : (found.map Prod.fst).length =
      (Statement.numberSlots 0 (found.map Prod.snd)).length := by
    rw [Statement.length_numberSlots, List.length_map, List.length_map]
  rw [List.map_map]
  exact List.map_fst_zip (Nat.le_of_eq hlength)

/-- A column has the value of the setting that sets it. -/
theorem Bound.get?_assignments (h : Bound table settings rest more bound) {column : String}
    {value : Value} :
    bound.assignments.get? column = some value ↔
      ∃ setting ∈ settings, setting.stored? = some (column, value) := by
  cases h with
  | @intro name found condition tail named entries distinct _ _ _ =>
      obtain ⟨pairs, hassignments, hstored, hnames⟩ :=
        assignments_numbered entries name condition more
      rw [hassignments, NameMap.get?_ofList_eq_some_iff (hnames ▸ distinct)]
      have hmem : (column, value) ∈ pairs ↔ some (column, value) ∈ pairs.map some := by simp
      rw [hmem, hstored, List.mem_map]

/-- The condition takes the first parameter after those of the settings. -/
theorem filter?_numbered {found : List (String × Slot)}
    (hentries : settings.map pair? = found.map some) (name : String) (condition : Condition Slot) :
    ((Statement.update name found condition).numbered (some condition)
        (params settings ++ more)).filter? =
      some ⟨condition.column, condition.op,
        match condition.operand with
        | .placeholder => more.head?.getD .null
        | .literal value => value⟩ := by
  have hcount : Statement.placeholdersIn (Statement.update name found condition).values =
      (params settings).length := placeholdersIn_entries hentries
  obtain ⟨column, op, operand⟩ := condition
  cases operand with
  | literal value => rfl
  | placeholder =>
      simp [BoundStatement.filter?, Statement.numbered, Statement.numberCondition,
        BoundStatement.resolve, hcount, List.head?_eq_getElem?, List.getElem?_append_right]

/-- A change is bound with other settings, if they can be read and set no column twice. -/
theorem Bound.exists_of_settings (h : Bound table settings rest more bound)
    {found : List (String × Slot)} (hentries : others.map pair? = found.map some)
    (hdistinct : (found.map Prod.fst).Nodup) :
    ∃ other, Bound table others rest more other ∧ other.filter? = bound.filter? := by
  cases h with
  | @intro name read condition tail named entries distinct filtered ends taken =>
      refine ⟨_, .intro named hentries hdistinct filtered ends taken, ?_⟩
      rw [filter?_numbered hentries, filter?_numbered entries]

/-! ## Truth values among settings -/

def asFlag (setting : Setting) : Setting :=
  { setting with operand := setting.operand.flag?.getD setting.operand }

def bit (truth : Bool) : Token :=
  .number (if truth then "1" else "0")

/-- Settings with truth values in all of them but the last one, which stands before the condition. -/
def flags (settings : List Setting) : List Setting :=
  settings.dropLast.map asFlag ++ settings.getLast?.toList

/-- A column is set to a zero or one by the last of some settings. -/
def EndsIn (settings : List Setting) (column : String) (truth : Bool) : Prop :=
  ∃ last, settings.getLast? = some last ∧ Statement.name? last.column = some column ∧
    last.operand = bit truth

theorem flags_cons_cons (setting next : Setting) (rest : List Setting) :
    flags (setting :: next :: rest) = setting.asFlag :: flags (next :: rest) := by
  simp [flags, List.getLast?_cons_cons]

/-- The flags of some settings are those settings, all but the last one with a truth value. -/
theorem mem_flags_iff {setting : Setting} :
    setting ∈ flags settings ↔
      (∃ other ∈ settings.dropLast, other.asFlag = setting) ∨ settings.getLast? = some setting := by
  rw [flags, List.mem_append, List.mem_map, Option.mem_toList]

theorem bit_or_flag?_eq_self (token : Token) :
    (∃ truth, token = bit truth) ∨ token.flag?.getD token = token := by
  by_cases hdigit : token = .number "0" ∨ token = .number "1"
  · rcases hdigit with rfl | rfl
    · exact .inl ⟨false, rfl⟩
    · exact .inl ⟨true, rfl⟩
  · exact .inr (by rw [Token.flag?_eq_none hdigit, Option.getD_none])

/-- Only a setting to a zero or one is changed. -/
theorem bit_or_asFlag_eq_self (setting : Setting) :
    (∃ truth, setting.operand = bit truth) ∨ setting.asFlag = setting := by
  refine (bit_or_flag?_eq_self setting.operand).imp_right fun hself => ?_
  rw [asFlag, hself]

/-- A zero or one is a number by itself and a truth value where one may stand. -/
theorem stored?_of_bit {setting : Setting} {truth : Bool} (h : setting.operand = bit truth)
    {column : String} (hcolumn : Statement.name? setting.column = some column) :
    setting.stored? = some (column, .int (Value.ofBit truth)) ∧
      setting.asFlag.stored? = some (column, .bool truth) := by
  have hnumber : ∀ truth, Statement.slot? (bit truth) =
      some (.literal (.int (Value.ofBit truth))) := by
    decide
  have hflag : ∀ truth, Statement.slot? ((bit truth).flag?.getD (bit truth)) =
      some (.literal (.bool truth)) := by
    decide
  have hentry : setting.pair? = some (column, .literal (.int (Value.ofBit truth))) :=
    pair?_eq_some_iff.2 ⟨hcolumn, h ▸ hnumber truth⟩
  have hflagged : setting.asFlag.pair? = some (column, .literal (.bool truth)) :=
    pair?_eq_some_iff.2 ⟨hcolumn, by rw [asFlag, h, hflag]⟩
  rw [stored?, stored?, hentry, hflagged]
  exact ⟨rfl, rfl⟩

theorem mem_flags_of_mem {setting : Setting} (h : setting ∈ settings) :
    setting.asFlag ∈ flags settings ∨ settings.getLast? = some setting := by
  have hne : settings ≠ [] := List.ne_nil_of_mem h
  rw [← List.dropLast_concat_getLast hne, List.mem_append, List.mem_singleton] at h
  rcases h with h | h
  · exact .inl (mem_flags_iff.2 (.inl ⟨setting, h, rfl⟩))
  · exact .inr (by rw [List.getLast?_eq_some_getLast hne, h])

theorem exists_mem_of_mem_flags {setting : Setting} (h : setting ∈ flags settings) :
    ∃ other ∈ settings, setting = other ∨ setting = other.asFlag := by
  rcases mem_flags_iff.1 h with ⟨other, hmem, rfl⟩ | hlast
  · exact ⟨other, List.dropLast_subset _ hmem, .inr rfl⟩
  · exact ⟨setting, List.mem_of_getLast? hlast, .inl rfl⟩

/-! ## The value of a column -/

theorem name?_of_stored? {setting : Setting} {column : String} {value : Value}
    (h : setting.stored? = some (column, value)) :
    Statement.name? setting.column = some column := by
  obtain ⟨⟨name, slot⟩, hentry, heq⟩ := Option.map_eq_some_iff.1 h
  obtain ⟨hname, -⟩ := pair?_eq_some_iff.1 hentry
  cases heq
  exact hname

section Flags

variable (h : Bound table (flags settings) rest more bound)
include h

/-- A column that the last setting sets to a zero or one is given an integer. -/
theorem Bound.get?_of_endsIn {column : String} {truth : Bool}
    (hends : EndsIn settings column truth) :
    bound.assignments.get? column = some (.int (Value.ofBit truth)) := by
  obtain ⟨last, hlast, hcolumn, hbit⟩ := hends
  exact h.get?_assignments.2
    ⟨last, mem_flags_iff.2 (.inr hlast), (stored?_of_bit hbit hcolumn).1⟩

theorem Bound.get?_of_not_endsIn {setting : Setting} (hmem : setting ∈ settings) {column : String}
    (hcolumn : Statement.name? setting.column = some column) {truth : Bool}
    (hbit : setting.operand = bit truth) (hends : ¬EndsIn settings column truth) :
    bound.assignments.get? column = some (.bool truth) := by
  rcases mem_flags_of_mem hmem with hflag | hlast
  · exact h.get?_assignments.2 ⟨_, hflag, (stored?_of_bit hbit hcolumn).2⟩
  · exact absurd ⟨setting, hlast, hcolumn, hbit⟩ hends

theorem Bound.get?_of_asFlag {setting : Setting} (hmem : setting ∈ settings)
    (hself : setting.asFlag = setting) {column : String} {value : Value}
    (hstored : setting.stored? = some (column, value)) :
    bound.assignments.get? column = some value := by
  rcases mem_flags_of_mem hmem with hflag | hlast
  · rw [hself] at hflag
    exact h.get?_assignments.2 ⟨_, hflag, hstored⟩
  · exact h.get?_assignments.2 ⟨_, mem_flags_iff.2 (.inr hlast), hstored⟩

end Flags

/-- In another order a column keeps its value, unless it is set to a zero or one at the end of one
order only. -/
theorem Bound.get?_of_perm {other : BoundStatement}
    (h : Bound table (flags settings) rest more bound)
    (hother : Bound table (flags others) rest more other) (hperm : settings.Perm others)
    {column : String} (hends : ∀ truth, EndsIn settings column truth ↔ EndsIn others column truth)
    {value : Value} (hvalue : bound.assignments.get? column = some value) :
    other.assignments.get? column = some value := by
  obtain ⟨_, hmem, hstored⟩ := h.get?_assignments.1 hvalue
  have hcolumn := name?_of_stored? hstored
  obtain ⟨setting, hmem, heq⟩ := exists_mem_of_mem_flags hmem
  -- only for a zero or one it matters where the setting stands
  rcases bit_or_asFlag_eq_self setting with ⟨truth, hbit⟩ | hself
  · have hname : Statement.name? setting.column = some column := by
      rcases heq with rfl | rfl <;> exact hcolumn
    rw [← hvalue]
    by_cases hlast : EndsIn settings column truth
    · rw [h.get?_of_endsIn hlast, hother.get?_of_endsIn ((hends truth).1 hlast)]
    · rw [h.get?_of_not_endsIn hmem hname hbit hlast,
        hother.get?_of_not_endsIn (hperm.mem_iff.1 hmem) hname hbit fun hlast' =>
          hlast ((hends truth).2 hlast')]
  · rw [hself, or_self] at heq
    exact hother.get?_of_asFlag (hperm.mem_iff.1 hmem) hself (heq ▸ hstored)

/-! ## Reading settings in another order -/

theorem slot?_flag_isSome (token : Token) :
    (Statement.slot? (token.flag?.getD token)).isSome = (Statement.slot? token).isSome := by
  rcases bit_or_flag?_eq_self token with ⟨truth, rfl⟩ | hself
  · revert truth
    decide
  · rw [hself]

theorem isSome_pair?_asFlag (setting : Setting) :
    setting.asFlag.pair?.isSome = setting.pair?.isSome := by
  rw [pair?, pair?, asFlag]
  cases Statement.name? setting.column with
  | none => rfl
  | some column =>
      rw [Option.bind_some, Option.bind_some, Option.isSome_map, Option.isSome_map,
        slot?_flag_isSome]

/-- Whatever is the same for a zero or one and for a truth value is the same for each setting. -/
theorem map_flags {α : Type} {f : Setting → α} (h : ∀ setting, f setting.asFlag = f setting)
    (settings : List Setting) : (flags settings).map f = settings.map f := by
  cases hlast : settings.getLast? with
  | none =>
      obtain rfl := List.getLast?_eq_none_iff.1 hlast
      rfl
  | some last =>
      obtain ⟨init, rfl⟩ := List.getLast?_eq_some_iff.1 hlast
      have hinit : init.map (f ∘ asFlag) = init.map f :=
        List.map_congr_left fun setting _ => h setting
      rw [flags, List.dropLast_concat, hlast, List.map_append, List.map_append, List.map_map, hinit]
      rfl

/-- Each of some settings can be read, and no two of them set the same column. -/
structure Readable (settings : List Setting) : Prop where
  read : ∀ isSome ∈ settings.map (fun setting => setting.pair?.isSome), isSome = true
  distinct : (settings.map fun setting => Statement.name? setting.column).Nodup

/-- Settings can be read whether or not they have truth values. -/
theorem readable_flags_iff : Readable (flags settings) ↔ Readable settings := by
  have hread : (flags settings).map (fun setting => setting.pair?.isSome) =
      settings.map fun setting => setting.pair?.isSome :=
    map_flags isSome_pair?_asFlag settings
  have hnames : (flags settings).map (fun setting => Statement.name? setting.column) =
      settings.map fun setting => Statement.name? setting.column :=
    map_flags (fun _ => rfl) settings
  constructor
  · rintro ⟨read, distinct⟩
    exact ⟨hread ▸ read, hnames ▸ distinct⟩
  · rintro ⟨read, distinct⟩
    exact ⟨hread ▸ read, hnames ▸ distinct⟩

/-- Settings can be read in any order. -/
theorem Readable.of_perm (h : Readable settings) (hperm : settings.Perm others) :
    Readable others :=
  ⟨fun isSome hmem => h.read isSome ((hperm.map _).mem_iff.2 hmem),
    (hperm.map _).nodup_iff.1 h.distinct⟩

theorem map_name?_of_entries {found : List (String × Slot)}
    (h : settings.map pair? = found.map some) :
    settings.map (fun setting => Statement.name? setting.column) =
      (found.map Prod.fst).map some := by
  induction settings generalizing found with
  | nil =>
      obtain rfl := List.map_eq_nil_iff.1 h.symm
      rfl
  | cons setting settings ih =>
      cases found with
      | nil => cases h
      | cons entry found =>
          rw [List.map_cons, List.map_cons, List.cons.injEq] at h
          obtain ⟨hname, -⟩ := pair?_eq_some_iff.1 h.1
          rw [List.map_cons, List.map_cons, List.map_cons, hname, ih h.2]

theorem nodup_map_some_iff {names : List String} : (names.map some).Nodup ↔ names.Nodup := by
  simp [List.Nodup, List.pairwise_map]

theorem Readable.of_entries {found : List (String × Slot)}
    (h : settings.map pair? = found.map some) (hdistinct : (found.map Prod.fst).Nodup) :
    Readable settings := by
  refine ⟨?_, ?_⟩
  · have hsome : settings.map (fun setting => setting.pair?.isSome) =
        (settings.map pair?).map Option.isSome := by
      rw [List.map_map]
      rfl
    rw [hsome, h, List.map_map]
    simp
  · rw [map_name?_of_entries h]
    exact nodup_map_some_iff.2 hdistinct

theorem Readable.exists_entries (h : Readable settings) :
    ∃ found : List (String × Slot), settings.map pair? = found.map some ∧
      (found.map Prod.fst).Nodup := by
  have hentries : ∃ found : List (String × Slot), settings.map pair? = found.map some := by
    obtain ⟨hread, -⟩ := h
    induction settings with
    | nil => exact ⟨[], rfl⟩
    | cons setting settings ih =>
        rw [List.map_cons, List.forall_mem_cons] at hread
        obtain ⟨entry, hentry⟩ := Option.isSome_iff_exists.1 hread.1
        obtain ⟨found, hfound⟩ := ih hread.2
        exact ⟨entry :: found, by rw [List.map_cons, List.map_cons, hentry, hfound]⟩
  obtain ⟨found, hentries⟩ := hentries
  refine ⟨found, hentries, ?_⟩
  have hdistinct := h.distinct
  rw [map_name?_of_entries hentries] at hdistinct
  exact nodup_map_some_iff.1 hdistinct

/-- Settings that were bound can be read. -/
theorem Bound.readable (h : Bound table settings rest more bound) : Readable settings := by
  cases h with
  | intro _ entries distinct _ _ _ => exact .of_entries entries distinct

/-- Settings that can be read in one order can be read in any other. -/
theorem Bound.exists_of_perm (h : Bound table (flags settings) rest more bound)
    (hperm : settings.Perm others) :
    ∃ other, Bound table (flags others) rest more other ∧ other.filter? = bound.filter? := by
  have hreadable := (readable_flags_iff.1 h.readable).of_perm hperm
  obtain ⟨found, hentries, hdistinct⟩ := (readable_flags_iff.2 hreadable).exists_entries
  exact h.exists_of_settings hentries hdistinct

/-- What two orders of the settings of a change are bound to. They differ only in a column that is
set to a zero or one at the end of one of the orders, and elsewhere in the other one. -/
structure Alike (settings others : List Setting) (bound other : BoundStatement) : Prop where
  filters : other.filter? = bound.filter?
  columns : ∀ column, (∀ truth, EndsIn settings column truth ↔ EndsIn others column truth) →
    other.assignments.get? column = bound.assignments.get? column
  atEnd : ∀ column truth, EndsIn settings column truth → ¬EndsIn others column truth →
    bound.assignments.get? column = some (.int (Value.ofBit truth)) ∧
      other.assignments.get? column = some (.bool truth)
  elsewhere : ∀ column truth, EndsIn others column truth → ¬EndsIn settings column truth →
    bound.assignments.get? column = some (.bool truth) ∧
      other.assignments.get? column = some (.int (Value.ofBit truth))

/-- Orders that end alike set every column to the same value. -/
theorem Alike.assignments_eq {other : BoundStatement} (h : Alike settings others bound other)
    (hends : ∀ column truth, EndsIn settings column truth ↔ EndsIn others column truth) :
    other.assignments = bound.assignments :=
  NameMap.ext_get? fun column => h.columns column (hends column)

/-- Two orders of the same settings are bound alike. -/
theorem Bound.alike {other : BoundStatement} (h : Bound table (flags settings) rest more bound)
    (hother : Bound table (flags others) rest more other) (hperm : settings.Perm others)
    (hfilters : other.filter? = bound.filter?) : Alike settings others bound other := by
  have hat : ∀ {settings others : List Setting} {bound other : BoundStatement},
      Bound table (flags settings) rest more bound → Bound table (flags others) rest more other →
      settings.Perm others → ∀ column truth, EndsIn settings column truth →
      ¬EndsIn others column truth →
        bound.assignments.get? column = some (.int (Value.ofBit truth)) ∧
          other.assignments.get? column = some (.bool truth) := by
    intro settings others bound other h hother hperm column truth hends hnot
    obtain ⟨last, hlast, hcolumn, hbit⟩ := hends
    exact ⟨h.get?_of_endsIn ⟨last, hlast, hcolumn, hbit⟩, hother.get?_of_not_endsIn
      (hperm.mem_iff.1 (List.mem_of_getLast? hlast)) hcolumn hbit hnot⟩
  refine ⟨hfilters, ?_, hat h hother hperm, ?_⟩
  · intro column hends
    refine Option.ext fun value => ⟨?_, ?_⟩
    · exact hother.get?_of_perm h hperm.symm fun truth => (hends truth).symm
    · exact h.get?_of_perm hother hperm hends
  · intro column truth hends hnot
    exact (hat hother h hperm.symm column truth hends hnot).symm

end Setting

end ClosedSql
