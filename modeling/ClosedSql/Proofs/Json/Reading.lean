import ClosedSql.Proofs.Json.Documents

/-!
# What is read from a JSON text

Every integer that is read has 64 bits, with a sign or without, and no more containers lie in each
other than may be open at once. The second follows from an invariant of the stack: what an open
container holds leaves room for the containers around it.
-/

namespace ClosedSql.Json

open Number

/-! ## Integers -/

/-- The digits that are taken stay within sixty-four bits. -/
theorem takeSignificand_lt {total : Nat} (h : total < significandBound) (text : List Char) :
    (takeSignificand total text).1 < significandBound := by
  induction text generalizing total with
  | nil => exact h
  | cons c rest ih =>
      rw [takeSignificand]
      split
      · next hnext => exact ih hnext.2
      · exact h

theorem digitValue_lt {c : Char} (h : c.isDigit = true) : digitValue c < significandBound := by
  have hcode : c.toNat ≤ 57 := by
    simp only [Char.isDigit, Bool.and_eq_true, decide_eq_true_eq] at h
    exact h.2
  have hbound : 58 ≤ significandBound := by decide
  rw [digitValue]
  omega

/-- Whether a numeral has 64 bits, if it is an integer. -/
def Numeral.Held : Numeral → Prop
  | .int n => (Scalar.int n).Held
  | .float _ => True

/-- An integer has sixty-four bits or becomes a float. -/
theorem held_integer {significand : Nat} (h : significand < significandBound) (negative : Bool) :
    (integer negative significand).Held := by
  rw [integer]
  split
  · split
    · trivial
    · next hsmall => exact ⟨by omega, by omega⟩
  · exact ⟨by omega, Int.ofNat_lt.2 h⟩

theorem held_float? {negative : Bool} {significand : Nat} {exponent : Int} {numeral : Numeral}
    (h : float? negative significand exponent = some numeral) : numeral.Held := by
  obtain ⟨_, _, rfl⟩ := Option.map_eq_some_iff.1 h
  trivial

theorem held_finishFloat? {negative : Bool} {significand : Nat} {exponent : Int} {text : List Char}
    {found : Numeral × List Char}
    (h : finishFloat? negative significand exponent text = some found) : found.1.Held := by
  rw [finishFloat?.eq_def] at h
  split at h
  case h_3 =>
    obtain ⟨_, hfloat, rfl⟩ := Option.map_eq_some_iff.1 h
    exact held_float? hfloat
  all_goals
    obtain ⟨_, _, h⟩ := Option.bind_eq_some_iff.1 h
    obtain ⟨_, hfloat, h⟩ := Option.bind_eq_some_iff.1 h
    obtain rfl := Option.some.inj h
    exact held_float? hfloat

theorem held_finishNumeral? {negative : Bool} {significand skipped : Nat} {text : List Char}
    {found : Numeral × List Char} (hsize : significand < significandBound)
    (h : finishNumeral? negative significand skipped text = some found) : found.1.Held := by
  rw [finishNumeral?.eq_def] at h
  split at h
  · simp only at h
    split at h
    · cases h
    · exact held_finishFloat? h
  · exact held_finishFloat? h
  · exact held_finishFloat? h
  · split at h
    · obtain rfl := Option.some.inj h
      exact held_integer hsize negative
    · exact held_finishFloat? h

/-- The numeral that is read is held by the format. -/
theorem held_numeral? {negative : Bool} {text : List Char} {found : Numeral × List Char}
    (h : numeral? negative text = some found) : found.1.Held := by
  cases text with
  | nil => cases h
  | cons c rest =>
      rw [numeral?] at h
      split at h
      · exact held_finishNumeral? (by decide) h
      · split at h
        · next hdigit => exact held_finishNumeral? (takeSignificand_lt (digitValue_lt hdigit) rest) h
        · cases h

namespace Token

def Meets (p : Scalar → Prop) : Token → Prop
  | scalar value => p value
  | _ => True

theorem meets_ofNumeral {numeral : Numeral} (h : numeral.Held) :
    (ofNumeral numeral).Meets Scalar.Held := by
  cases numeral with
  | int n => exact h
  | float x => trivial

theorem meets_read? {text : List Char} {found : Token × List Char} (h : read? text = some found) :
    found.1.Meets Scalar.Held := by
  rw [read?.eq_def] at h
  split at h
  case h_10 =>
    obtain ⟨_, _, rfl⟩ := Option.map_eq_some_iff.1 h
    trivial
  case h_11 =>
    obtain ⟨_, hnumeral, rfl⟩ := Option.map_eq_some_iff.1 h
    exact meets_ofNumeral (held_numeral? hnumeral)
  case h_12 =>
    obtain ⟨_, hnumeral, rfl⟩ := Option.map_eq_some_iff.1 h
    exact meets_ofNumeral (held_numeral? hnumeral)
  all_goals
    obtain rfl := Option.some.inj h
    trivial

theorem meets_scan? {text : List Char} {tokens : List Token} (h : scan? text = some tokens) :
    ∀ token ∈ tokens, token.Meets Scalar.Held := by
  fun_induction scan? text generalizing tokens with
  | case1 =>
      obtain rfl := Option.some.inj h
      exact nofun
  | case2 c rest _ ih => exact ih h
  | case3 c rest _ found hread ih =>
      obtain ⟨others, hothers, rfl⟩ := Option.map_eq_some_iff.1 h
      intro token htoken
      rcases List.mem_cons.1 htoken with rfl | htoken
      · exact meets_read? hread
      · exact ih hothers token htoken
  | case4 => cases h

end Token

/-! ## Open containers -/

namespace Progress

/-- What may lie in so many open containers. -/
def Fits (p : Scalar → Prop) (count : Nat) (json : Json) : Prop :=
  All p json ∧ Within (depthLimit - count) json

/-- What an open container holds, where so many are open. -/
def Holds (p : Scalar → Prop) (count : Nat) : Frame → Prop
  | .array items => ∀ item ∈ items, Fits p count item
  | .object members _ => ∀ member ∈ members, Fits p count member.2

/-- Not too many containers are open, and each holds what fits into it. -/
def Open (p : Scalar → Prop) : List Frame → Prop
  | [] => True
  | frame :: frames => frames.length < depthLimit ∧ Holds p (frames.length + 1) frame ∧ Open p frames

/-- What has been read is sound. -/
def Sound (p : Scalar → Prop) : Progress → Prop
  | valueDue frames => Open p frames
  | arrayStart frames | objectStart frames => frames.length < depthLimit ∧ Open p frames
  | afterItem items frames => Open p (.array items :: frames)
  | afterMember members frames | nameDue members frames => Open p (.object members "" :: frames)
  | colonDue members name frames => Open p (.object members name :: frames)
  | done json => Fits p 0 json

section

variable {p : Scalar → Prop} {frames : List Frame}

theorem fits_array {count : Nat} {items : List Json} (hroom : count < depthLimit)
    (h : ∀ item ∈ items, Fits p (count + 1) item) : Fits p count (.array items) := by
  have hdepth : depthLimit - count = depthLimit - (count + 1) + 1 := by omega
  refine ⟨.array fun item hitem => (h item hitem).1, ?_⟩
  rw [hdepth]
  exact .array fun item hitem => (h item hitem).2

theorem fits_object {count : Nat} {members : List (String × Json)} (hroom : count < depthLimit)
    (h : ∀ member ∈ members, Fits p (count + 1) member.2) : Fits p count (.object members) := by
  have hdepth : depthLimit - count = depthLimit - (count + 1) + 1 := by omega
  refine ⟨.object fun member hmember => (h member hmember).1, ?_⟩
  rw [hdepth]
  exact .object fun member hmember => (h member hmember).2

/-- A value that is complete and fits leaves a sound state. -/
theorem sound_deliver {json : Json} (hopen : Open p frames) (h : Fits p frames.length json) :
    Sound p (deliver json frames) := by
  cases frames with
  | nil => exact h
  | cons frame frames =>
      obtain ⟨hroom, hholds, hopen⟩ := hopen
      cases frame with
      | array items => exact ⟨hroom, List.forall_mem_cons.2 ⟨h, hholds⟩, hopen⟩
      | object members name => exact ⟨hroom, List.forall_mem_cons.2 ⟨h, hholds⟩, hopen⟩

/-- The first token of a value leaves a sound state. -/
theorem sound_start? {token : Token} {next : Progress} (hopen : Open p frames)
    (htoken : token.Meets p) (h : start? frames token = some next) : Sound p next := by
  rw [start?.eq_def] at h
  split at h
  · obtain rfl := Option.some.inj h
    exact sound_deliver hopen ⟨.scalar htoken, .scalar⟩
  · split at h
    · next hroom =>
        obtain rfl := Option.some.inj h
        exact ⟨hroom, hopen⟩
    · cases h
  · split at h
    · next hroom =>
        obtain rfl := Option.some.inj h
        exact ⟨hroom, hopen⟩
    · cases h
  · cases h

/-- A token keeps what has been read sound. -/
theorem sound_step? {progress next : Progress} {token : Token} (hsound : Sound p progress)
    (htoken : token.Meets p) (h : step? progress token = some next) : Sound p next := by
  rw [step?.eq_def] at h
  split at h
  · exact sound_start? hsound htoken h
  · obtain ⟨hroom, hopen⟩ := hsound
    obtain rfl := Option.some.inj h
    exact sound_deliver hopen (fits_array hroom nofun)
  · next frames _ =>
      have hinside : Open p (.array [] :: frames) := ⟨hsound.1, nofun, hsound.2⟩
      exact sound_start? hinside htoken h
  · obtain ⟨hroom, hopen⟩ := hsound
    obtain rfl := Option.some.inj h
    exact sound_deliver hopen (fits_object hroom nofun)
  · obtain ⟨hroom, hopen⟩ := hsound
    obtain rfl := Option.some.inj h
    exact ⟨hroom, nofun, hopen⟩
  · obtain rfl := Option.some.inj h
    exact hsound
  · obtain ⟨hroom, hholds, hopen⟩ := hsound
    obtain rfl := Option.some.inj h
    exact sound_deliver hopen
      (fits_array hroom fun item hitem => hholds item (List.mem_reverse.1 hitem))
  · obtain rfl := Option.some.inj h
    exact hsound
  · obtain ⟨hroom, hholds, hopen⟩ := hsound
    obtain rfl := Option.some.inj h
    exact sound_deliver hopen
      (fits_object hroom fun member hmember => hholds member (List.mem_reverse.1 hmember))
  · obtain rfl := Option.some.inj h
    exact hsound
  · obtain rfl := Option.some.inj h
    exact hsound
  · cases h

/-- Tokens with the property lead from a sound state to a sound state. -/
theorem sound_foldlM {tokens : List Token} {progress next : Progress} (hsound : Sound p progress)
    (htokens : ∀ token ∈ tokens, token.Meets p) (h : tokens.foldlM step? progress = some next) :
    Sound p next := by
  induction tokens generalizing progress with
  | nil =>
      obtain rfl := Option.some.inj h
      exact hsound
  | cons token tokens ih =>
      rw [List.foldlM_cons] at h
      obtain ⟨middle, hmiddle, hrest⟩ := Option.bind_eq_some_iff.1 h
      obtain ⟨hfirst, hothers⟩ := List.forall_mem_cons.1 htokens
      exact ih (sound_step? hsound hfirst hmiddle) hothers hrest

end

end Progress

/-- Documents as they may be read: the format holds their integers, and not too many containers lie
in each other. -/
def Held (json : Json) : Prop :=
  All Scalar.Held json ∧ Within Progress.depthLimit json

/-- Every document that is read is one of those. -/
theorem held_ofText? {text : String} {json : Json} (h : ofText? text = some json) : json.Held := by
  obtain ⟨tokens, hscan, htokens⟩ := Option.bind_eq_some_iff.1 h
  obtain ⟨progress, hprogress, hfinished⟩ := Option.bind_eq_some_iff.1 htokens
  have hstart : Progress.Sound Scalar.Held (.valueDue []) := trivial
  have hsound := Progress.sound_foldlM hstart (Token.meets_scan? hscan) hprogress
  cases progress with
  | done document =>
      obtain rfl := Option.some.inj hfinished
      exact hsound
  | _ => cases hfinished

/-- The canonical form of a document that is held is held. -/
theorem Held.canonical {json : Json} (h : json.Held) : json.canonical.Held :=
  ⟨h.1.canonical, h.2.canonical⟩

end ClosedSql.Json
