import ClosedSql.Proofs.Token.Layout
import ClosedSql.Sql.Query

/-!
# Printed tokens

Where some blanks stand between any two tokens, no token can go on in the next one, whichever tokens
they are. So every list of tokens is read back from such a print of it, blanks at both ends
included.
-/

namespace ClosedSql

namespace Layout

/-- Tokens with blanks between any two of them, and perhaps before the first. -/
structure Loose (layout : Layout) : Prop where
  lexeme : ∀ item ∈ layout, Token.Lexeme item.2
  blank : ∀ item ∈ layout, ∀ c ∈ item.1, Text.isAsciiBlank c = true
  apart : ∀ item ∈ layout.tail, item.1 ≠ []

theorem Loose.tail {item : List Char × Token} {rest : Layout} (h : Loose (item :: rest)) :
    Loose rest where
  lexeme other hother := h.lexeme other (List.mem_cons_of_mem item hother)
  blank other hother := h.blank other (List.mem_cons_of_mem item hother)
  apart other hother := h.apart other (List.mem_of_mem_tail hother)

/-- Every token ends before a loose layout that another token stands before. -/
theorem Loose.endsBefore {item : List Char × Token} {rest : Layout} (h : Loose (item :: rest))
    (token : Token) : token.EndsBefore rest.text := by
  cases rest with
  | nil => exact token.endsBefore_nil
  | cons next rest =>
      have hne : next.1 ≠ [] := h.apart next List.mem_cons_self
      have hblank := h.tail.blank next List.mem_cons_self
      obtain ⟨c, gap, hgap⟩ := List.exists_cons_of_ne_nil hne
      intro d hd
      rw [text, hgap] at hd
      cases hd
      rw [hgap] at hblank
      exact token.continues_delimiters c
        (Token.mem_delimiters_of_isAsciiBlank (hblank c List.mem_cons_self))

/-- A loose layout can be read back. -/
theorem Loose.legible {layout : Layout} (h : Loose layout) : Legible layout := by
  induction layout with
  | nil => exact .nil
  | cons item rest ih =>
      exact .cons (h.blank item List.mem_cons_self) (h.lexeme item List.mem_cons_self)
        (h.endsBefore item.2) (ih h.tail)

end Layout

namespace Token

/-- Tokens that are printed with blanks between them are read back, and a name as it is written in
SQL is read back as that one name. -/
theorem ofText_loose {layout : Layout} {after : List Char} (loose : layout.Loose)
    (hafter : ∀ c ∈ after, Text.isAsciiBlank c = true) :
    ofText (String.ofList (layout.text ++ after)) = layout.map Prod.snd ∧
      ∀ name : String, ofText (SqlPart.join [.name name]) = [.quotedName name] := by
  constructor
  · rw [ofText, String.toList_ofList]
    exact loose.legible.scan_text_append hafter
  · intro name
    have hname : Layout.Loose [([], .quotedName name)] := by
      refine ⟨?_, ?_, ?_⟩
      · exact List.forall_mem_singleton.2 (.name name)
      · exact List.forall_mem_singleton.2 (List.forall_mem_nil _)
      · exact List.forall_mem_nil _
    have htext : (SqlPart.join [.name name]).toList =
        Layout.text [([], .quotedName name)] := by
      rw [SqlPart.join, String.toList_ofList]
      rfl
    rw [ofText, htext]
    exact hname.legible.scan_text

def crowded : Layout :=
  [("\n".toList, .number "-1."), (" ".toList, .number ".5"), ("\t ".toList, .word "_x9"),
    (" ".toList, .quotedText "'it''s\"é"), (" ".toList, .quotedText ""),
    (" ".toList, .quotedName "\"\u017f"), (" ".toList, .operator .less),
    (" ".toList, .operator .greaterEquals), (" ".toList, .star)]

theorem ofText_loose_crowded : crowded.Loose ∧
    (∀ c ∈ " \r".toList, Text.isAsciiBlank c = true) ∧
    ofText (String.ofList (crowded.text ++ " \r".toList)) = crowded.map Prod.snd ∧
      ∀ name : String, ofText (SqlPart.join [.name name]) = [.quotedName name] := by
  have hafter : ∀ c ∈ " \r".toList, Text.isAsciiBlank c = true := by decide
  have hnegative : Numeral "-1.".toList :=
    .negative (@Unsigned.pointed ['1'] [] rfl (List.forall_mem_nil _))
  have hloose : crowded.Loose := by
    refine ⟨?_, by decide, by decide⟩
    simp only [crowded, List.forall_mem_cons]
    exact ⟨.number hnegative, .number (.fraction rfl), .word rfl, .text _, .text _, .name _,
      .operator _, .operator _, .mark rfl, List.forall_mem_nil _⟩
  exact ⟨hloose, hafter, ofText_loose hloose hafter⟩

end Token

end ClosedSql
