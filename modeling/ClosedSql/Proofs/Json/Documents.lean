import ClosedSql.Json.Document
import ClosedSql.NameMap.Lookup
import ClosedSql.Proofs.Json.Tokens

/-!
# JSON documents, written and read

A document is read back from its text if its scalars are read back from theirs and not too many of
its containers lie in each other. The canonical form of a document is its own canonical form.
-/

namespace ClosedSql.Json

/-- Documents all of whose scalars have a property. -/
inductive All (p : Scalar → Prop) : Json → Prop
  | scalar {value : Scalar} (h : p value) : All p (.scalar value)
  | array {items : List Json} (h : ∀ item ∈ items, All p item) : All p (.array items)
  | object {members : List (String × Json)} (h : ∀ member ∈ members, All p member.2) :
      All p (.object members)

/-- Documents in which at most so many containers lie in each other. -/
inductive Within : Nat → Json → Prop
  | scalar {depth : Nat} {value : Scalar} : Within depth (.scalar value)
  | array {depth : Nat} {items : List Json} (h : ∀ item ∈ items, Within depth item) :
      Within (depth + 1) (.array items)
  | object {depth : Nat} {members : List (String × Json)}
      (h : ∀ member ∈ members, Within depth member.2) : Within (depth + 1) (.object members)

section

variable {p q : Scalar → Prop} {depth : Nat} {value : Scalar} {items : List Json}
  {members : List (String × Json)}

@[simp]
theorem all_scalar_iff : All p (.scalar value) ↔ p value :=
  ⟨fun (.scalar h) => h, .scalar⟩

@[simp]
theorem all_array_iff : All p (.array items) ↔ ∀ item ∈ items, All p item :=
  ⟨fun (.array h) => h, .array⟩

@[simp]
theorem all_object_iff : All p (.object members) ↔ ∀ member ∈ members, All p member.2 :=
  ⟨fun (.object h) => h, .object⟩

@[simp]
theorem within_scalar : Within depth (.scalar value) :=
  .scalar

@[simp]
theorem within_array_iff :
    Within depth (.array items) ↔ 0 < depth ∧ ∀ item ∈ items, Within (depth - 1) item := by
  cases depth with
  | zero => exact ⟨nofun, fun h => absurd h.1 (Nat.lt_irrefl 0)⟩
  | succ depth => exact ⟨fun (.array h) => ⟨Nat.succ_pos depth, h⟩, fun h => .array h.2⟩

@[simp]
theorem within_object_iff :
    Within depth (.object members) ↔ 0 < depth ∧ ∀ member ∈ members, Within (depth - 1) member.2 := by
  cases depth with
  | zero => exact ⟨nofun, fun h => absurd h.1 (Nat.lt_irrefl 0)⟩
  | succ depth => exact ⟨fun (.object h) => ⟨Nat.succ_pos depth, h⟩, fun h => .object h.2⟩

/-- A document has both of two properties if it has each of them. -/
theorem All.and {json : Json} (hp : All p json) (hq : All q json) :
    All (fun value => p value ∧ q value) json := by
  induction hp with
  | scalar hp => exact .scalar ⟨hp, all_scalar_iff.1 hq⟩
  | array _ ih => exact .array fun item hitem => ih item hitem (all_array_iff.1 hq item hitem)
  | object _ ih =>
      exact .object fun member hmember => ih member hmember (all_object_iff.1 hq member hmember)

end

/-! ## From text to tokens -/

/-- Tokens that are read from their texts, one after another. -/
def Scans (tokens : List Token) : Prop :=
  ∀ rest, Ends rest →
    Token.scan? (tokens.flatMap Token.text ++ rest) = (Token.scan? rest).map (tokens ++ ·)

theorem scans_nil : Scans [] := by
  intro rest _
  simp

/-- A scalar that is read back from its text scans. -/
theorem scans_scalar {value : Scalar} (h : value.Readable) : Scans [.scalar value] := by
  intro rest hrest
  have hread : Token.read? ((Token.scalar value).text ++ rest) = some (.scalar value, rest) :=
    Token.read?_text_append h hrest
  rw [List.flatMap_singleton, Token.scan?_of_read? hread]
  rfl

section

variable {token : Token} {tokens before : List Token}

/-- A mark in front of tokens that scan scans. -/
theorem Scans.mark_cons (hmark : token.isMark = true) (h : Scans tokens) :
    Scans (token :: tokens) := by
  intro rest hrest
  rw [List.flatMap_cons, List.append_assoc, Token.scan?_of_read? (Token.read?_mark hmark _),
    h rest hrest, Option.map_map]
  rfl

/-- Whatever is in front of a mark ends there. -/
theorem Scans.append_mark (hbefore : Scans before) (hmark : token.isMark = true)
    (h : Scans tokens) : Scans (before ++ token :: tokens) := by
  intro rest hrest
  have hends : Ends ((token :: tokens).flatMap Token.text ++ rest) := by
    rw [List.flatMap_cons, List.append_assoc]
    exact Token.ends_mark hmark _
  rw [List.flatMap_append, List.append_assoc, hbefore _ hends, Scans.mark_cons hmark h rest hrest,
    Option.map_map]
  simp only [Function.comp_def, List.append_assoc]

end

/-- Items that scan, with commas between them, scan. -/
theorem scans_itemTokens {items : List Json} (h : ∀ item ∈ items, Scans item.tokens) :
    Scans (itemTokens items) := by
  induction items with
  | nil => exact scans_nil
  | cons item items ih =>
      have hitem := h item List.mem_cons_self
      have hitems := ih fun other hother => h other (List.mem_cons_of_mem _ hother)
      cases items with
      | nil => exact hitem
      | cons next rest => exact hitem.append_mark rfl hitems

theorem scans_memberTokens {members : List (String × Json)}
    (h : ∀ member ∈ members, Scans member.2.tokens) : Scans (memberTokens members) := by
  induction members with
  | nil => exact scans_nil
  | cons member members ih =>
      have hname : Scans [.scalar (.string member.1)] := scans_scalar ⟨trivial, trivial⟩
      have hvalue := h member List.mem_cons_self
      have hmembers := ih fun other hother => h other (List.mem_cons_of_mem _ hother)
      cases members with
      | nil => exact hname.append_mark rfl hvalue
      | cons next rest => exact hname.append_mark rfl (hvalue.append_mark rfl hmembers)

/-- The tokens of a document scan if all of its scalars are read back. -/
theorem All.scans {json : Json} (h : All Scalar.Readable json) : Scans json.tokens := by
  induction h with
  | scalar h => exact scans_scalar h
  | array _ ih => exact .mark_cons rfl ((scans_itemTokens ih).append_mark rfl scans_nil)
  | object _ ih => exact .mark_cons rfl ((scans_memberTokens ih).append_mark rfl scans_nil)

/-! ## From tokens to documents -/

namespace Progress

/-- Tokens after which a document is complete wherever a value is due, if so many containers may
still be opened. -/
def Delivers (depth : Nat) (json : Json) : Prop :=
  ∀ frames : List Frame, frames.length + depth ≤ depthLimit →
    json.tokens.foldlM step? (valueDue frames) = some (deliver json frames)

theorem exists_tokens_cons (json : Json) :
    ∃ token rest, json.tokens = token :: rest ∧ token ≠ .closeArray := by
  cases json with
  | scalar value => exact ⟨_, _, rfl, nofun⟩
  | array items => exact ⟨_, _, rfl, nofun⟩
  | object members => exact ⟨_, _, rfl, nofun⟩

/-- At the beginning of an array, an item is read like any other value. -/
theorem step?_arrayStart {token : Token} (h : token ≠ .closeArray) (frames : List Frame) :
    step? (arrayStart frames) token = step? (valueDue (.array [] :: frames)) token := by
  cases token <;> first | rfl | exact absurd rfl h

section

variable {depth : Nat} {frames : List Frame}

/-- Items one after another are taken into the array that is open. -/
theorem foldlM_items {items : List Json} (h : ∀ item ∈ items, Delivers depth item)
    (hdepth : frames.length + (depth + 1) ≤ depthLimit) (hne : items ≠ []) (before : List Json) :
    (itemTokens items).foldlM step? (valueDue (.array before :: frames)) =
      some (afterItem (items.reverse ++ before) frames) := by
  induction items generalizing before with
  | nil => exact absurd rfl hne
  | cons item items ih =>
      have hitem := h item List.mem_cons_self (.array before :: frames)
        (by rw [List.length_cons]; omega)
      cases items with
      | nil => exact hitem
      | cons next rest =>
          have hitems := ih (fun other hother => h other (List.mem_cons_of_mem _ hother))
            (List.cons_ne_nil _ _) (item :: before)
          have hreverse : (item :: next :: rest).reverse ++ before =
              (next :: rest).reverse ++ item :: before := by
            simp
          rw [itemTokens, List.foldlM_append, hitem, hreverse]
          exact hitems

/-- Members one after another are taken into the object that is open. -/
theorem foldlM_members {members : List (String × Json)}
    (h : ∀ member ∈ members, Delivers depth member.2)
    (hdepth : frames.length + (depth + 1) ≤ depthLimit) (hne : members ≠ [])
    (before : List (String × Json)) :
    (memberTokens members).foldlM step? (nameDue before frames) =
      some (afterMember (members.reverse ++ before) frames) := by
  induction members generalizing before with
  | nil => exact absurd rfl hne
  | cons member members ih =>
      have hvalue := h member List.mem_cons_self (.object before member.1 :: frames)
        (by rw [List.length_cons]; omega)
      cases members with
      | nil => exact hvalue
      | cons next rest =>
          have hmembers := ih (fun other hother => h other (List.mem_cons_of_mem _ hother))
            (List.cons_ne_nil _ _) (member :: before)
          have hreverse : (member :: next :: rest).reverse ++ before =
              (next :: rest).reverse ++ member :: before := by
            simp
          change (member.2.tokens ++ .comma :: memberTokens (next :: rest)).foldlM step?
            (valueDue (.object before member.1 :: frames)) = _
          rw [List.foldlM_append, hvalue, hreverse]
          exact hmembers

theorem foldlM_array {items : List Json} (h : ∀ item ∈ items, Delivers depth item)
    (hdepth : frames.length + (depth + 1) ≤ depthLimit) :
    (itemTokens items ++ [Token.closeArray]).foldlM step? (arrayStart frames) =
      some (deliver (.array items) frames) := by
  cases items with
  | nil => rfl
  | cons item items =>
      have hstart : (itemTokens (item :: items)).foldlM step? (arrayStart frames) =
          (itemTokens (item :: items)).foldlM step? (valueDue (.array [] :: frames)) := by
        obtain ⟨token, rest, hcons, htoken⟩ : ∃ token rest,
            itemTokens (item :: items) = token :: rest ∧ token ≠ .closeArray := by
          obtain ⟨token, rest, hcons, htoken⟩ := exists_tokens_cons item
          cases items with
          | nil => exact ⟨token, rest, hcons, htoken⟩
          | cons next items => exact ⟨token, _, by rw [itemTokens, hcons, List.cons_append], htoken⟩
        rw [hcons, List.foldlM_cons, List.foldlM_cons, step?_arrayStart htoken]
      rw [List.foldlM_append, hstart, foldlM_items h hdepth (List.cons_ne_nil _ _) []]
      change some (deliver (.array ((item :: items).reverse ++ []).reverse) frames) = _
      rw [List.append_nil, List.reverse_reverse]

theorem foldlM_object {members : List (String × Json)}
    (h : ∀ member ∈ members, Delivers depth member.2)
    (hdepth : frames.length + (depth + 1) ≤ depthLimit) :
    (memberTokens members ++ [Token.closeObject]).foldlM step? (objectStart frames) =
      some (deliver (.object members) frames) := by
  cases members with
  | nil => rfl
  | cons member members =>
      have hstart : (memberTokens (member :: members)).foldlM step? (objectStart frames) =
          (memberTokens (member :: members)).foldlM step? (nameDue [] frames) := by
        cases members <;> rfl
      rw [List.foldlM_append, hstart, foldlM_members h hdepth (List.cons_ne_nil _ _) []]
      change some (deliver (.object ((member :: members).reverse ++ []).reverse) frames) = _
      rw [List.append_nil, List.reverse_reverse]

end

theorem delivers {depth : Nat} {json : Json} (h : Within depth json) : Delivers depth json := by
  induction h with
  | scalar => exact fun frames _ => rfl
  | array _ ih =>
      intro frames hdepth
      have hopen : step? (valueDue frames) .openArray = some (arrayStart frames) :=
        if_pos (by omega)
      rw [tokens, List.cons_append, List.foldlM_cons, hopen]
      exact foldlM_array ih hdepth
  | object _ ih =>
      intro frames hdepth
      have hopen : step? (valueDue frames) .openObject = some (objectStart frames) :=
        if_pos (by omega)
      rw [tokens, List.cons_append, List.foldlM_cons, hopen]
      exact foldlM_object ih hdepth

end Progress

/-- A document is read back from its text. -/
theorem ofText?_text {json : Json} (hall : All Scalar.Readable json)
    (hwithin : Within Progress.depthLimit json) : ofText? json.text = some json := by
  have hscan := hall.scans [] ends_nil
  have hnothing : Token.scan? [] = some [] := by rw [Token.scan?]
  rw [List.append_nil, hnothing, Option.map_some, List.append_nil] at hscan
  have hdelivered := Progress.delivers hwithin [] (Nat.le_of_eq (Nat.zero_add _))
  rw [ofText?, text, String.toList_ofList, hscan, Option.bind_some, ofTokens?, hdelivered]
  rfl

/-! ## Canonical form -/

/-- What holds of scalars, and of containers whose parts it holds of, holds of all documents. -/
@[elab_as_elim]
theorem induction {motive : Json → Prop} (scalar : ∀ value, motive (.scalar value))
    (array : ∀ items, (∀ item ∈ items, motive item) → motive (.array items))
    (object : ∀ members, (∀ member ∈ members, motive member.2) → motive (.object members))
    (json : Json) : motive json :=
  match json with
  | .scalar value => scalar value
  | .array items => array items fun item _ => induction scalar array object item
  | .object members => object members fun member _ => induction scalar array object member.2
termination_by sizeOf json
decreasing_by
  · next h =>
      have hitem := List.sizeOf_lt_of_mem h
      simp only [Json.array.sizeOf_spec]
      omega
  · next h =>
      have hmember := List.sizeOf_lt_of_mem h
      have hvalue : sizeOf member = 1 + sizeOf member.1 + sizeOf member.2 := rfl
      simp only [Json.object.sizeOf_spec]
      omega

theorem canonicalItems_eq_map (items : List Json) : canonicalItems items = items.map canonical := by
  induction items with
  | nil => rfl
  | cons item items ih => rw [canonicalItems, ih, List.map_cons]

theorem canonicalMembers_eq_map (members : List (String × Json)) :
    canonicalMembers members = members.map fun member => (member.1, member.2.canonical) := by
  induction members with
  | nil => rfl
  | cons member members ih => rw [canonicalMembers, ih, List.map_cons]

/-- The members of an object in canonical form are members of the object, in canonical form. -/
theorem exists_of_mem_canonical {members : List (String × Json)} {entry : String × Json}
    (h : entry ∈ (NameMap.ofList (canonicalMembers members)).entries) :
    ∃ member ∈ members, entry = (member.1, member.2.canonical) := by
  have hfound := NameMap.mem_of_mem_ofList h
  rw [canonicalMembers_eq_map] at hfound
  obtain ⟨member, hmember, rfl⟩ := List.mem_map.1 hfound
  exact ⟨member, hmember, rfl⟩

/-- Canonical form is reached at once. -/
theorem canonical_canonical (json : Json) : json.canonical.canonical = json.canonical := by
  induction json using induction with
  | scalar value => rfl
  | array items ih =>
      rw [canonical, canonical, canonicalItems_eq_map, canonicalItems_eq_map, List.map_map]
      congr 1
      exact List.map_congr_left ih
  | object members ih =>
      have hentries : canonicalMembers (NameMap.ofList (canonicalMembers members)).entries =
          (NameMap.ofList (canonicalMembers members)).entries := by
        rw [canonicalMembers_eq_map (NameMap.entries _)]
        refine (List.map_congr_left ?_).trans (List.map_id _)
        intro entry hentry
        obtain ⟨member, hmember, rfl⟩ := exists_of_mem_canonical hentry
        exact Prod.ext rfl (ih member hmember)
      rw [canonical, canonical, hentries, NameMap.ofList_entries]

/-- The canonical form has no scalars but those of the document. -/
theorem All.canonical {p : Scalar → Prop} {json : Json} (h : All p json) : All p json.canonical := by
  induction h with
  | scalar h => exact .scalar h
  | array _ ih =>
      rw [Json.canonical, canonicalItems_eq_map]
      exact .array (List.forall_mem_map.2 ih)
  | object _ ih =>
      refine .object fun entry hentry => ?_
      obtain ⟨member, hmember, rfl⟩ := exists_of_mem_canonical hentry
      exact ih member hmember

/-- The canonical form is nested no deeper than the document. -/
theorem Within.canonical {depth : Nat} {json : Json} (h : Within depth json) :
    Within depth json.canonical := by
  induction h with
  | scalar => exact .scalar
  | array _ ih =>
      rw [Json.canonical, canonicalItems_eq_map]
      exact .array (List.forall_mem_map.2 ih)
  | object _ ih =>
      refine .object fun entry hentry => ?_
      obtain ⟨member, hmember, rfl⟩ := exists_of_mem_canonical hentry
      exact ih member hmember

end ClosedSql.Json
