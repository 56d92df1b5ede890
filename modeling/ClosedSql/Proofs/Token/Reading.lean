import ClosedSql.Proofs.Token.Layout

/-!
# Texts as layouts

A text is cut into its tokens, each with the blanks before it. When all of them are known, nothing
of the text is lost but the blanks at its end, and what is left can be read back.
-/

namespace ClosedSql.Layout

open Token

/-- The tokens of a text with the blanks before each; `gap` stands before the text. -/
def read (gap : List Char) : List Char → Layout
  | [] => []
  | c :: rest =>
      if Text.isAsciiBlank c then read (gap ++ [c]) rest
      else (gap, (Token.read c rest).1) :: read [] (Token.read c rest).2
termination_by text => text.length
decreasing_by
  · simp
  · exact Nat.lt_succ_of_le (length_read_le c rest)

def ofText (text : String) : Layout :=
  read [] text.toList

theorem map_snd_read (gap text : List Char) : (read gap text).map Prod.snd = scan text := by
  fun_induction read gap text with
  | case1 => rw [scan, List.map_nil]
  | case2 gap c rest hc ih => rw [ih, scan, if_pos hc]
  | case3 gap c rest hc ih => rw [List.map_cons, ih, scan, if_neg hc]

/-- A text is laid out as the tokens it is scanned as. -/
theorem map_snd_ofText (text : String) : (ofText text).map Prod.snd = Token.ofText text :=
  map_snd_read [] text.toList

/-- A text without unknown tokens is legible, and made of its layout and the blanks at its end. -/
theorem legible_read {gap text : List Char} (hgap : ∀ c ∈ gap, Text.isAsciiBlank c = true)
    (hknown : ∀ c, .unknown c ∉ scan text) :
    Legible (read gap text) ∧ ∃ after, (∀ c ∈ after, Text.isAsciiBlank c = true) ∧
      (read gap text).text ++ after = gap ++ text := by
  fun_induction read gap text with
  | case1 gap => exact ⟨.nil, gap, hgap, (List.append_nil gap).symm⟩
  | case2 gap c rest hc ih =>
      rw [scan, if_pos hc] at hknown
      have hmore : ∀ d ∈ gap ++ [c], Text.isAsciiBlank d = true := by
        rw [List.forall_mem_append, List.forall_mem_singleton]
        exact ⟨hgap, hc⟩
      obtain ⟨hlegible, after, hafter, happend⟩ := ih hmore hknown
      refine ⟨hlegible, after, hafter, ?_⟩
      rw [happend, List.append_assoc]
      rfl
  | case3 gap c rest hc ih =>
      rw [scan, if_neg hc] at hknown
      have hread : Token.read c rest = ((Token.read c rest).1, (Token.read c rest).2) := rfl
      obtain ⟨hlexeme, hchars, hends⟩ :=
        readFrom_of_read hread fun d heq => hknown d (heq ▸ List.mem_cons_self)
      obtain ⟨hlegible, after, hafter, happend⟩ :=
        ih (List.forall_mem_nil _) fun d hd => hknown d (List.mem_cons_of_mem _ hd)
      rw [List.nil_append] at happend
      refine ⟨.cons hgap hlexeme ?_ hlegible, after, hafter, ?_⟩
      · intro d hd
        refine hends d ?_
        rw [← happend, List.head?_append, Option.mem_def.1 hd]
        rfl
      · rw [text, List.append_assoc, List.append_assoc, happend, hchars]

/-- A text of known tokens is a layout that can be read back, and blanks. -/
theorem legible_ofText {text : String} (hknown : ∀ c, .unknown c ∉ Token.ofText text) :
    Legible (ofText text) ∧ ∃ after, (∀ c ∈ after, Text.isAsciiBlank c = true) ∧
      (ofText text).text ++ after = text.toList :=
  legible_read (List.forall_mem_nil _) hknown

theorem text_append (front rest : Layout) : text (front ++ rest) = front.text ++ rest.text := by
  induction front with
  | nil => rfl
  | cons item front ih =>
      rw [List.cons_append, text, text, ih]
      simp

/-- The beginning of a legible layout is legible. -/
theorem Legible.of_append {front rest : Layout} (h : Legible (front ++ rest)) : Legible front := by
  induction front with
  | nil => exact .nil
  | cons item front ih =>
      cases h with
      | cons blank lexeme ends tail =>
          refine .cons blank lexeme ?_ (ih tail)
          intro c hc
          refine ends c ?_
          change c ∈ (text (front ++ rest)).head?
          rw [text_append, List.head?_append, Option.mem_def.1 hc]
          rfl

/-- The first tokens of a text are the tokens of a beginning of the text. -/
theorem exists_prefix {written : String} (hknown : ∀ c, .unknown c ∉ Token.ofText written)
    {front rest : List Token} (h : Token.ofText written = front ++ rest) :
    ∃ first : String, first.toList <+: written.toList ∧ Token.ofText first = front := by
  obtain ⟨hlegible, after, -, happend⟩ := legible_ofText hknown
  rw [← map_snd_ofText, List.map_eq_append_iff] at h
  obtain ⟨beginning, others, hlayout, rfl, -⟩ := h
  rw [hlayout] at hlegible happend
  refine ⟨String.ofList (text beginning), ?_, ?_⟩
  · rw [String.toList_ofList, ← happend, text_append, List.append_assoc]
    exact List.prefix_append _ _
  · rw [Token.ofText, String.toList_ofList]
    exact hlegible.of_append.scan_text

end ClosedSql.Layout
