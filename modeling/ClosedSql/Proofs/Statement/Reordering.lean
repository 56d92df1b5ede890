import ClosedSql.Proofs.Dialect.Guides
import ClosedSql.Proofs.Statement.Assignments
import ClosedSql.Proofs.Token.Reading

/-!
# Changes with their settings in another order

It does not matter in which order a change sets its columns, as long as each parameter stays with its
placeholder: the condition is the same, and so is the value of every column. There is one exception.
A zero or one is a truth value before a comma but a number before the condition, so the column that
is set last may get one or the other.
-/

namespace ClosedSql

open Text

namespace Setting

variable {settings : List Setting}

/-! ## Normalizing settings -/

def stamped (stamp : Token) (setting : Setting) : Setting :=
  { setting with
    column := setting.column.stamped stamp
    operand := setting.operand.stamped stamp }

theorem separated_cons_cons {α : Type} (item : α → List Token) (first second : α) (rest : List α) :
    separated item (first :: second :: rest) =
      item first ++ .comma :: separated item (second :: rest) := by
  simp [separated]

/-- The settings of a change stand between guides. -/
theorem guided_settings {guide closing : Token} (hguide : Token.Guide guide)
    (hclosing : Token.Guide closing) (hne : settings ≠ []) :
    Token.Guided closing (guide :: (separated tokens settings ++ [closing])) := by
  induction settings generalizing guide with
  | nil => exact absurd rfl hne
  | cons setting rest ih =>
      cases rest with
      | nil => exact .cons hguide _ (.cons .equals _ (.last hclosing))
      | cons next rest =>
          rw [separated_cons_cons, List.append_assoc]
          exact .cons hguide _ (.cons .equals _ (ih .comma (List.cons_ne_nil _ _)))

/-- Between guides every setting is normalized by itself. -/
theorem flagged_settings {guide : Token} {closing : String} (stamp : Token)
    (hguide : Token.Guide guide) (hclosing : Token.Guide (.word closing)) (hne : settings ≠ []) :
    Token.flagged ((guide :: (separated tokens settings ++ [.word closing])).map
        fun token => token.stamped stamp) =
      guide :: (separated tokens (flags (settings.map (stamped stamp))) ++ [.word closing]) := by
  have hequals : Token.stamped (.operator .equals) stamp = .operator .equals :=
    Token.Guide.equals.stamped stamp
  have hcomma : (Token.operator .equals == Token.comma) = false := by decide
  have hopens : (Token.operator .equals).opensValue = true := by decide
  -- the first setting stands after `guide`, all others after a comma
  induction settings generalizing guide with
  | nil => exact absurd rfl hne
  | cons setting rest ih =>
      cases rest with
      | nil =>
          have hword : (Token.word closing == Token.comma) = false := by simp
          simp [separated, tokens, flags, stamped, Token.flagged, hguide.stamped,
            hclosing.stamped, hequals, hcomma, hword]
      | cons next rest =>
          have hrest := ih .comma (List.cons_ne_nil _ _)
          rw [List.map_cons, Token.Guide.comma.stamped] at hrest
          have hstep : separated tokens (flags ((setting :: next :: rest).map (stamped stamp))) =
              ((setting.stamped stamp).asFlag).tokens ++
                .comma :: separated tokens (flags ((next :: rest).map (stamped stamp))) := by
            rw [List.map_cons, List.map_cons, flags_cons_cons]
            cases rest with
            | nil => rfl
            | cons third rest =>
                rw [List.map_cons, flags_cons_cons]
                exact separated_cons_cons _ _ _ _
          rw [hstep, separated_cons_cons, List.append_assoc, List.append_assoc, List.cons_append,
            List.cons_append, ← hrest]
          simp [tokens, stamped, asFlag, Token.flagged, hguide.stamped, hequals, hcomma, hopens,
            Token.Guide.comma.stamped]

/-- The parameter of each setting that takes one. -/
theorem params_eq_flatten (settings : List Setting) :
    params settings = (settings.map fun setting =>
      if setting.operand = .placeholder then [setting.param] else []).flatten := by
  induction settings with
  | nil => rfl
  | cons setting settings ih =>
      rw [params_cons, List.map_cons, List.flatten_cons, ← ih]
      split <;> rfl

/-- Truth values in place of zeros and ones leave the parameters. -/
theorem params_flags (settings : List Setting) : params (flags settings) = params settings := by
  have hkept : ∀ token : Token, token.flag?.getD token = .placeholder ↔ token = .placeholder := by
    intro token
    rcases bit_or_flag?_eq_self token with ⟨truth, rfl⟩ | hself
    · revert truth
      decide
    · rw [hself]
  rw [params_eq_flatten, params_eq_flatten, map_flags]
  intro setting
  simp only [asFlag, hkept]

section Stamp

variable (content : String)

theorem stamped_eq_iff {token other : Token} (h : other ≠ .quotedText content)
    (hother : other.isKeyword "current_timestamp" = false) :
    token.stamped (.quotedText content) = other ↔ token = other := by
  rw [Token.stamped]
  split
  · next hstamp =>
      refine iff_of_false h.symm ?_
      rintro rfl
      rw [hother] at hstamp
      cases hstamp
  · exact Iff.rfl

/-- Stamping settings leaves their parameters. -/
theorem params_stamped (settings : List Setting) :
    params (settings.map (stamped (.quotedText content))) = params settings := by
  rw [params_eq_flatten, params_eq_flatten, List.map_map]
  refine congrArg List.flatten (List.map_congr_left fun setting _ => ?_)
  have hkept : setting.operand.stamped (.quotedText content) = .placeholder ↔
      setting.operand = .placeholder := stamped_eq_iff content nofun rfl
  simp only [Function.comp_apply, stamped, hkept]

/-- A name that can be read is no word for the current time. -/
theorem stamped_of_name? {token : Token} {name : String}
    (h : Statement.name? (token.stamped (.quotedText content)) = some name) :
    token.stamped (.quotedText content) = token := by
  rw [Token.stamped] at h ⊢
  split at h
  · cases h
  · next hother => rw [if_neg hother]

/-- Stamping settings does not change whether they end in a zero or one. -/
theorem endsIn_stamped_iff (h : Readable (settings.map (stamped (.quotedText content))))
    (column : String) (truth : Bool) :
    EndsIn (settings.map (stamped (.quotedText content))) column truth ↔
      EndsIn settings column truth := by
  have hbit : ∀ token : Token, token.stamped (.quotedText content) = bit truth ↔
      token = bit truth := fun token => stamped_eq_iff content nofun rfl
  have hname : ∀ setting ∈ settings,
      setting.column.stamped (.quotedText content) = setting.column := by
    intro setting hmem
    have hread := h.read _ (List.mem_map_of_mem (List.mem_map_of_mem hmem))
    obtain ⟨⟨name, slot⟩, hentry⟩ := Option.isSome_iff_exists.1 hread
    exact stamped_of_name? content (pair?_eq_some_iff.1 hentry).1
  unfold EndsIn
  rw [List.getLast?_map]
  constructor
  · rintro ⟨_, hlast, hcolumn, hoperand⟩
    obtain ⟨last, hfound, rfl⟩ := Option.map_eq_some_iff.1 hlast
    rw [stamped, hname last (List.mem_of_getLast? hfound)] at hcolumn
    exact ⟨last, hfound, hcolumn, (hbit _).1 hoperand⟩
  · rintro ⟨last, hlast, hcolumn, hoperand⟩
    refine ⟨_, by rw [hlast]; rfl, ?_, (hbit _).2 hoperand⟩
    rw [stamped, hname last (List.mem_of_getLast? hlast)]
    exact hcolumn

end Stamp

end Setting

/-! ## Changes in another order -/

namespace Opening

variable {opening : Opening} {settings : List Setting}

theorem guide_of_isKeyword {keyword word : String} (hknown : lower keyword.toList ∈ Token.guideWords)
    (h : Token.isKeyword keyword (.word word) = true) : Token.Guide (.word word) := by
  refine .keyword ?_
  rwa [sameIgnoringCase_iff.1 h]

theorem guide_closing (opening : Opening) : Token.Guide (.word opening.closing) :=
  guide_of_isKeyword (by decide) opening.isWhere

/-- A change is guided up to its condition. -/
theorem guided_tokens (hne : settings ≠ []) :
    Token.Guided (.word opening.closing) (opening.tokens settings) :=
  .cons (guide_of_isKeyword (by decide) opening.isUpdate) _
    (Setting.guided_settings (guide_of_isKeyword (by decide) opening.isSet) opening.guide_closing hne)

def stamped (stamp : Token) (opening : Opening) : Opening :=
  { opening with table := opening.table.stamped stamp }

/-- A change with its truth values replaced is the change of its flags. -/
theorem flagged_tokens (stamp : Token) (hne : settings ≠ []) :
    Token.flagged ((opening.tokens settings).map fun token => token.stamped stamp) =
      (opening.stamped stamp).tokens (Setting.flags (settings.map (Setting.stamped stamp))) := by
  have hupdate : Token.Guide (.word opening.update) :=
    guide_of_isKeyword (by decide) opening.isUpdate
  have hset : Token.Guide (.word opening.set) := guide_of_isKeyword (by decide) opening.isSet
  have hrest := Setting.flagged_settings stamp hset opening.guide_closing hne
  have hcomma : (Token.word opening.set == Token.comma) = false := by simp
  rw [List.map_cons, hset.stamped] at hrest
  rw [tokens, tokens, List.map_cons, List.map_cons, List.map_cons, hupdate.stamped, hset.stamped,
    Token.flagged, hcomma, Bool.and_false, if_neg Bool.false_ne_true, hrest]
  rfl

end Opening

namespace Setting

variable {opening : Opening} {settings : List Setting} {rest : List Char} {more : List Value}
  {bound : BoundStatement}

/-- When a change is bound and to what, however it is spaced. -/
theorem bind_text_eq_ok_iff {layout : Layout} (hlegible : layout.Legible)
    (htokens : layout.map Prod.snd = opening.tokens settings) (hne : settings ≠ [])
    (hends : (Token.word opening.closing).EndsBefore rest) :
    ({} : Config).bind (String.ofList (layout.text ++ rest)) (params settings ++ more) =
        .ok bound ↔
      Bound (opening.table.stamped (.quotedText "now()"))
        (flags (settings.map (stamped (.quotedText "now()"))))
        (Token.scan (Dialect.behind (.quotedText "now()") (.word opening.closing) rest)) more
        bound := by
  have hstamp : ({} : Config).nowLiteral = String.ofList (Token.quotedText "now()").chars := by
    decide
  have hguided := opening.guided_tokens hne
  have hword : (Token.word opening.closing).endsInWord = true := by
    have hmem := List.mem_of_getLast? hguided.getLast?.1
    rw [← htokens] at hmem
    exact Token.endsInWord_word (hlegible.lexeme _ hmem).isIdentifier
  rw [← htokens] at hguided
  have hread := ofText_normalize_guided "now()" hlegible hguided hword hends
  rw [htokens, Opening.flagged_tokens _ hne, ← hstamp] at hread
  have hflags : flags (settings.map (stamped (.quotedText "now()"))) ≠ [] := by
    intro heq
    have hnames := map_flags (f := fun _ => ()) (fun _ => rfl)
      (settings.map (stamped (.quotedText "now()")))
    rw [heq, List.map_map] at hnames
    exact hne (List.map_eq_nil_iff.1 hnames.symm)
  have hparams : params (flags (settings.map (stamped (.quotedText "now()")))) = params settings := by
    rw [params_flags, params_stamped]
  rw [← hparams]
  exact bind_eq_ok_iff hread hflags

end Setting

/-- The order in which a change sets its columns does not matter, up to a zero or one in the setting
that stands last. -/
theorem Config.bind_of_perm {opening : Opening} {settings others : List Setting}
    {front back : Layout} (hfront : front.Legible) (hback : back.Legible)
    (hsettings : front.map Prod.snd = opening.tokens settings)
    (hothers : back.map Prod.snd = opening.tokens others) {rest : List Char}
    (hends : (Token.word opening.closing).EndsBefore rest) (hne : settings ≠ [])
    (hperm : settings.Perm others) {more : List Value} {bound : BoundStatement}
    (hbind : ({} : Config).bind (String.ofList (front.text ++ rest))
      (Setting.params settings ++ more) = .ok bound) :
    ∃ other, ({} : Config).bind (String.ofList (back.text ++ rest))
        (Setting.params others ++ more) = .ok other ∧
      Setting.Alike settings others bound other ∧
      ((∀ column truth, Setting.EndsIn settings column truth ↔
          Setting.EndsIn others column truth) → other.assignments = bound.assignments) := by
  have hne' : others ≠ [] := by
    rintro rfl
    exact hne hperm.eq_nil
  have hbound := (Setting.bind_text_eq_ok_iff hfront hsettings hne hends).1 hbind
  have hstamped := hperm.map (Setting.stamped (.quotedText "now()"))
  obtain ⟨other, hother, hfilters⟩ := hbound.exists_of_perm hstamped
  obtain ⟨-, hcolumns, hat, helsewhere⟩ := hbound.alike hother hstamped hfilters
  have hreadable := Setting.readable_flags_iff.1 hbound.readable
  -- no column that can be read is stamped, so both orders end in what they end in once normalized
  simp only [Setting.endsIn_stamped_iff "now()" hreadable,
    Setting.endsIn_stamped_iff "now()" (hreadable.of_perm hstamped)] at hcolumns hat helsewhere
  have halike : Setting.Alike settings others bound other :=
    ⟨hfilters, hcolumns, hat, helsewhere⟩
  exact ⟨other, (Setting.bind_text_eq_ok_iff hback hothers hne' hends).2 hother, halike,
    halike.assignments_eq⟩

def Opening.capital (table : String) : Opening :=
  ⟨"UPDATE", .word table, "SET", "WHERE", by decide, by decide, by decide⟩

theorem Config.bind_of_perm_reverse :
    ∃ bound other,
      ({} : Config).bind "UPDATE t SET a = 1, b = ?, c = ? WHERE id = ?"
          [.text "x", .null, .int 3] = .ok bound ∧
        ({} : Config).bind "UPDATE t SET c=?, b=?, a=1 WHERE id = ?"
          [.null, .text "x", .int 3] = .ok other ∧
        other.filter? = bound.filter? ∧
        other.assignments.get? "b" = bound.assignments.get? "b" ∧
        other.assignments.get? "a" = some (.int 1) ∧
        bound.assignments.get? "a" = some (.bool true) := by
  let first : Setting := ⟨.word "a", .number "1", .null⟩
  let second : Setting := ⟨.word "b", .placeholder, .text "x"⟩
  let third : Setting := ⟨.word "c", .placeholder, .null⟩
  have hfront : Token.ofText "UPDATE t SET a = 1, b = ?, c = ? WHERE" =
      (Opening.capital "t").tokens [first, second, third] := by
    decide +kernel
  have hback : Token.ofText "UPDATE t SET c=?, b=?, a=1 WHERE" =
      (Opening.capital "t").tokens [third, second, first] := by
    decide +kernel
  have hknown : ∀ c, .unknown c ∉ (Opening.capital "t").tokens [first, second, third] ∧
      .unknown c ∉ (Opening.capital "t").tokens [third, second, first] := by
    simp [Opening.tokens, Opening.capital, separated, Setting.tokens, first, second, third]
  have htext : String.ofList ((Layout.ofText "UPDATE t SET a = 1, b = ?, c = ? WHERE").text ++
      " id = ?".toList) = "UPDATE t SET a = 1, b = ?, c = ? WHERE id = ?" := by
    decide +kernel
  have htext' : String.ofList ((Layout.ofText "UPDATE t SET c=?, b=?, a=1 WHERE").text ++
      " id = ?".toList) = "UPDATE t SET c=?, b=?, a=1 WHERE id = ?" := by
    decide +kernel
  have hbinds : (({} : Config).bind "UPDATE t SET a = 1, b = ?, c = ? WHERE id = ?"
      [.text "x", .null, .int 3]).isOk = true := by
    decide +kernel
  cases hbound : ({} : Config).bind "UPDATE t SET a = 1, b = ?, c = ? WHERE id = ?"
      [.text "x", .null, .int 3] with
  | error reason =>
      rw [hbound] at hbinds
      cases hbinds
  | ok bound =>
      have hends : (Token.word (Opening.capital "t").closing).EndsBefore " id = ?".toList := by
        intro c hc
        cases hc
        decide
      have hnot : ∀ column truth, ¬Setting.EndsIn [first, second, third] column truth := by
        rintro column truth ⟨last, hlast, -, hbit⟩
        cases hlast
        cases hbit
      have hb : ∀ truth, Setting.EndsIn [first, second, third] "b" truth ↔
          Setting.EndsIn [third, second, first] "b" truth := by
        intro truth
        refine iff_of_false (hnot "b" truth) ?_
        rintro ⟨last, hlast, hcolumn, -⟩
        cases hlast
        exact absurd hcolumn (by decide)
      rw [← htext] at hbound
      change ({} : Config).bind _ (Setting.params [first, second, third] ++ [.int 3]) = _ at hbound
      obtain ⟨other, hother, ⟨hfilters, hcolumns, -, helsewhere⟩, -⟩ := Config.bind_of_perm
        (Layout.legible_ofText fun c => hfront ▸ (hknown c).1).1
        (Layout.legible_ofText fun c => hback ▸ (hknown c).2).1
        ((Layout.map_snd_ofText _).trans hfront) ((Layout.map_snd_ofText _).trans hback) hends
        (List.cons_ne_nil _ _) (List.reverse_perm [first, second, third]).symm hbound
      obtain ⟨hflag, hnumber⟩ :=
        helsewhere "a" true ⟨first, rfl, by decide, rfl⟩ (hnot "a" true)
      rw [htext'] at hother
      exact ⟨bound, other, rfl, hother, hfilters, hcolumns "b" hb, hnumber, hflag⟩

/-- A one is a number before the condition and a truth value before a comma. -/
theorem Config.bind_ne_of_perm :
    ¬∀ (opening : Opening) (settings others : List Setting) (front back : Layout)
        (rest : List Char) (more : List Value) (bound : BoundStatement),
      front.Legible → back.Legible → front.map Prod.snd = opening.tokens settings →
      back.map Prod.snd = opening.tokens others → (Token.word opening.closing).EndsBefore rest →
      settings ≠ [] → settings.Perm others →
      ({} : Config).bind (String.ofList (front.text ++ rest)) (Setting.params settings ++ more) =
        .ok bound →
      ∃ other, ({} : Config).bind (String.ofList (back.text ++ rest))
          (Setting.params others ++ more) = .ok other ∧
        other.assignments = bound.assignments ∧ other.filter? = bound.filter? := by
  intro hall
  let first : Setting := ⟨.word "a", .number "1", .null⟩
  let second : Setting := ⟨.word "b", .number "2", .null⟩
  have hfront : Token.ofText "UPDATE t SET a = 1, b = 2 WHERE" =
      (Opening.capital "t").tokens [first, second] := by
    decide +kernel
  have hback : Token.ofText "UPDATE t SET b = 2, a = 1 WHERE" =
      (Opening.capital "t").tokens [second, first] := by
    decide +kernel
  have hknown : ∀ c, .unknown c ∉ (Opening.capital "t").tokens [first, second] ∧
      .unknown c ∉ (Opening.capital "t").tokens [second, first] := by
    simp [Opening.tokens, Opening.capital, separated, Setting.tokens, first, second]
  have hends : (Token.word (Opening.capital "t").closing).EndsBefore " id = 3".toList := by
    intro c hc
    cases hc
    decide
  have hflag : (({} : Config).bind (String.ofList ((Layout.ofText
      "UPDATE t SET a = 1, b = 2 WHERE").text ++ " id = 3".toList)) []).toOption.map
        (fun bound => bound.assignments.get? "a") = some (some (.bool true)) := by
    decide +kernel
  have hnumber : (({} : Config).bind (String.ofList ((Layout.ofText
      "UPDATE t SET b = 2, a = 1 WHERE").text ++ " id = 3".toList)) []).toOption.map
        (fun bound => bound.assignments.get? "a") = some (some (.int 1)) := by
    decide +kernel
  cases hbound : ({} : Config).bind (String.ofList ((Layout.ofText
      "UPDATE t SET a = 1, b = 2 WHERE").text ++ " id = 3".toList)) [] with
  | error reason =>
      rw [hbound] at hflag
      cases hflag
  | ok bound =>
      obtain ⟨other, hother, hsame, -⟩ := hall (Opening.capital "t") [first, second]
        [second, first] _ _ _ [] bound (Layout.legible_ofText fun c => hfront ▸ (hknown c).1).1
        (Layout.legible_ofText fun c => hback ▸ (hknown c).2).1
        ((Layout.map_snd_ofText _).trans hfront) ((Layout.map_snd_ofText _).trans hback) hends
        (List.cons_ne_nil _ _) (.swap second first []) hbound
      change ({} : Config).bind _ [] = _ at hother
      rw [hbound] at hflag
      rw [hother, Except.toOption, Option.map_some, hsame] at hnumber
      exact absurd (hflag.symm.trans hnumber) (by decide)

end ClosedSql
