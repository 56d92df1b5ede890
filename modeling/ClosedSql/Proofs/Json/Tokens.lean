import ClosedSql.Json.Token
import ClosedSql.Proofs.Json.Numerals
import ClosedSql.Proofs.Number.Shortest
import ClosedSql.Proofs.Text.Hexadecimal

/-!
# JSON tokens, written and read

A token is read back from its text at the head of any text that does not go on like a number. Every
string is read back whatever its characters, and every integer that the format holds. Floats are
the exception: they are read with one rounding for each factor, so that only some of them are the
float that is read from their own text.
-/

namespace ClosedSql.Json

open Number

namespace Token

/-! ## Strings -/

theorem string?_of_escape {rest : List Char} {next : Char × List Char}
    (h : escape? rest = some next) :
    string? ('\\' :: rest) = (string? next.2).map fun found => (next.1 :: found.1, found.2) := by
  rw [string?, if_neg (by decide), if_pos rfl]
  split
  · next other hother =>
      rw [h] at hother
      obtain rfl := Option.some.inj hother
      rfl
  · next hnone =>
      rw [h] at hnone
      cases hnone

/-- A character other than a quote, a backslash or a control stands for itself in a string. -/
theorem string?_of_plain {c : Char} (hquote : c ≠ '"') (hslash : c ≠ '\\')
    (hcontrol : isControl c = false) (rest : List Char) :
    string? (c :: rest) = (string? rest).map fun found => (c :: found.1, found.2) := by
  rw [string?, if_neg hquote, if_neg hslash, if_neg (by simp [hcontrol])]

/-- A control character is read back from its number. -/
theorem escape?_control {c : Char} (h : isControl c = true) (rest : List Char) :
    escape? ('u' :: (Text.hexText 4 c.toNat ++ rest)) = some (c, rest) := by
  have hsmall : c.toNat < 32 := of_decide_eq_true h
  have hhigh : isHighUnit c.toNat = false := by
    rw [isHighUnit, Bool.and_eq_false_iff]
    exact .inl (decide_eq_false (by omega))
  have hlow : isLowUnit c.toNat = false := by
    rw [isLowUnit, Bool.and_eq_false_iff]
    exact .inl (decide_eq_false (by omega))
  have htake : Text.takeHex? 4 (Text.hexText 4 c.toNat ++ rest) = some (c.toNat, rest) :=
    Text.takeHex?_hexText (by decide) (show c.toNat < 65536 by omega) rest
  rw [escape?, if_pos rfl, codePoint?, htake]
  simp only [hhigh, hlow, Bool.false_eq_true, if_false, Char.ofNat_toNat]

/-- A character is written as an escape that stands for it, or as itself. -/
theorem escapeChar_cases (c : Char) :
    (∃ mark, escapeChar c = '\\' :: mark ∧ ∀ rest, escape? (mark ++ rest) = some (c, rest)) ∨
      (escapeChar c = [c] ∧ c ≠ '"' ∧ c ≠ '\\' ∧ isControl c = false) := by
  by_cases hshort : c ∈ ['"', '\\', '\x08', '\x0c', '\n', '\r', '\t']
  · left
    simp only [List.mem_cons, List.not_mem_nil, or_false] at hshort
    rcases hshort with rfl | rfl | rfl | rfl | rfl | rfl | rfl <;> exact ⟨_, rfl, fun _ => rfl⟩
  · simp only [List.mem_cons, List.not_mem_nil, or_false, not_or] at hshort
    have hlong : escapeChar c = if isControl c then '\\' :: 'u' :: Text.hexText 4 c.toNat else [c] := by
      simp [escapeChar, hshort]
    cases hcontrol : isControl c with
    | true =>
        rw [hcontrol, if_pos rfl] at hlong
        exact .inl ⟨_, hlong, escape?_control hcontrol⟩
    | false =>
        rw [hcontrol, if_neg Bool.false_ne_true] at hlong
        exact .inr ⟨hlong, hshort.1, hshort.2.1, rfl⟩

/-- One character of a string is read back. -/
theorem string?_escapeChar (c : Char) (rest : List Char) :
    string? (escapeChar c ++ rest) =
      (string? rest).map fun found => (c :: found.1, found.2) := by
  rcases escapeChar_cases c with ⟨mark, hmark, hmeant⟩ | ⟨hplain, hquote, hslash, hcontrol⟩
  · rw [hmark]
    exact string?_of_escape (hmeant rest)
  · rw [hplain]
    exact string?_of_plain hquote hslash hcontrol rest

/-- A string is read back, whatever its characters. -/
theorem string?_escaped (s rest : List Char) :
    string? (s.flatMap escapeChar ++ '"' :: rest) = some (s, rest) := by
  induction s with
  | nil => rw [List.flatMap_nil, List.nil_append, string?, if_pos rfl]
  | cons c s ih =>
      rw [List.flatMap_cons, List.append_assoc, string?_escapeChar, ih]
      rfl

/-! ## Scalars -/

theorem read?_of_isDigit {c : Char} (h : c.isDigit = true) (rest : List Char) :
    read? (c :: rest) =
      (numeral? false (c :: rest)).map fun found => (ofNumeral found.1, found.2) := by
  rw [read?.eq_def]
  split
  case h_12 => rfl
  all_goals
    next heq =>
      obtain ⟨rfl, -⟩ := List.cons.inj heq
      cases h

theorem read?_minus (rest : List Char) :
    read? ('-' :: rest) = (numeral? true rest).map fun found => (ofNumeral found.1, found.2) := by
  rw [read?.eq_def]
  split
  case h_11 heq =>
    obtain ⟨-, rfl⟩ := List.cons.inj heq
    rfl
  case h_12 hminus => exact absurd rfl (hminus rest)
  all_goals
    next heq => exact absurd (List.cons.inj heq).1 (by decide)

theorem exists_isDigit_of_numeral? {negative : Bool} {text : List Char}
    {found : Numeral × List Char} (h : numeral? negative text = some found) :
    ∃ c rest, text = c :: rest ∧ c.isDigit = true := by
  cases text with
  | nil => cases h
  | cons c rest =>
      refine ⟨c, rest, rfl, ?_⟩
      rw [numeral?] at h
      split at h
      · next hzero =>
          subst hzero
          rfl
      · split at h
        · next hdigit => exact hdigit
        · cases h

/-- A float is read from a number with or without a minus sign. -/
theorem numeral?_of_read?_float {text rest : List Char} {x : Binary64}
    (h : read? text = some (.scalar (.float x), rest)) :
    (∃ digits, text = '-' :: digits ∧ numeral? true digits = some (.float x, rest)) ∨
      numeral? false text = some (.float x, rest) := by
  have hnumeral : ∀ {found : Numeral × List Char},
      (ofNumeral found.1, found.2) = (Token.scalar (.float x), rest) → found = (.float x, rest) := by
    rintro ⟨numeral, tail⟩ heq
    obtain ⟨htoken, rfl⟩ := Prod.mk.inj heq
    cases numeral with
    | int n => cases htoken
    | float y => cases htoken; rfl
  rw [read?.eq_def] at h
  split at h
  case h_10 =>
    obtain ⟨_, _, heq⟩ := Option.map_eq_some_iff.1 h
    cases (Prod.mk.inj heq).1
  case h_11 digits =>
    obtain ⟨found, hfound, heq⟩ := Option.map_eq_some_iff.1 h
    exact .inl ⟨digits, rfl, hnumeral heq ▸ hfound⟩
  case h_12 =>
    obtain ⟨found, hfound, heq⟩ := Option.map_eq_some_iff.1 h
    exact .inr (hnumeral heq ▸ hfound)
  all_goals cases h

/-- The token of a number is read from it alike whatever stands behind it. -/
theorem read?_numeral_append {negative : Bool} {digits rest : List Char} {numeral : Numeral}
    (h : numeral? negative digits = some (numeral, [])) (hrest : Ends rest) :
    read? ((if negative then ['-'] else []) ++ digits ++ rest) = some (ofNumeral numeral, rest) := by
  have happend : numeral? negative (digits ++ rest) = some (numeral, rest) := by
    rw [numeral?_append hrest, h]
    rfl
  cases negative with
  | true =>
      change read? ('-' :: (digits ++ rest)) = _
      rw [read?_minus, happend, Option.map_some]
  | false =>
      obtain ⟨c, tail, rfl, hc⟩ := exists_isDigit_of_numeral? h
      change read? (c :: (tail ++ rest)) = _
      rw [read?_of_isDigit hc, ← List.cons_append, happend, Option.map_some]

end Token

theorem Scalar.text_finite (negative : Bool) (rank : Fin finiteRanks) :
    (Scalar.float (.finite negative rank)).text = floatStyle.write (.finite negative rank) :=
  rfl

/-- The text of a float whose shortest digits are known. -/
theorem Scalar.text_of_shortest {negative : Bool} {rank : Nat} {d : Digits} (hpos : rank ≠ 0)
    (h : Digits.shortest .even rank = d) (hrank : rank < finiteRanks) :
    (Scalar.float (.finite negative ⟨rank, hrank⟩)).text = floatStyle.spell negative d := by
  have htie : floatStyle.tie = .even := rfl
  rw [text_finite, FloatStyle.write_eq_spell _ _ hpos, htie, h]

/-- Whether the format holds a scalar: integers have 64 bits, with a sign or without. -/
def Scalar.Held : Scalar → Prop
  | .int n => -(twoTo 63 : Int) ≤ n ∧ n < significandBound
  | _ => True

/-- Whether a scalar, if it is a float, is the one that is read from its own text. -/
def Scalar.Reread : Scalar → Prop
  | .float x => Token.read? (Scalar.float x).text = some (.scalar (.float x), [])
  | _ => True

/-- Whether a scalar is read back from its text. -/
def Scalar.Readable (value : Scalar) : Prop :=
  value.Held ∧ value.Reread

namespace Token

/-- An integer is read back from its digits before a text that does not go on like a number. -/
theorem read?_int_append {n : Int} (h : (Scalar.int n).Held) {rest : List Char}
    (hrest : Ends rest) : read? ((Scalar.int n).text ++ rest) = some (.scalar (.int n), rest) := by
  obtain ⟨hlow, hhigh⟩ := h
  have hbound : (twoTo 63 : Int) < significandBound := by decide
  rw [Scalar.text]
  cases n with
  | ofNat n =>
      have hread : numeral? false (Nat.toDigits 10 n) = some (.int n, []) :=
        numeral?_toDigits (Int.ofNat_lt.1 hhigh)
      exact toList_toString_natCast n ▸ read?_numeral_append hread hrest
  | negSucc n =>
      have hinteger : integer true (n + 1) = .int (Int.negSucc n) := by
        rw [integer, if_pos rfl, if_neg (by omega)]
        rfl
      have hread : numeral? true (Nat.toDigits 10 (n + 1)) = some (.int (Int.negSucc n), []) :=
        hinteger ▸ numeral?_toDigits (by omega)
      exact toList_toString_negSucc n ▸ read?_numeral_append hread hrest

/-- A float is read back before a text that does not go on like a number, if its text gives it back.
-/
theorem read?_float_append {x : Binary64} (h : (Scalar.float x).Reread) {rest : List Char}
    (hrest : Ends rest) :
    read? ((Scalar.float x).text ++ rest) = some (.scalar (.float x), rest) := by
  rcases numeral?_of_read?_float h with ⟨digits, htext, hread⟩ | hread
  · rw [htext]
    exact read?_numeral_append hread hrest
  · exact read?_numeral_append hread hrest

/-- A scalar is read back from its text, which does not go on behind it. -/
theorem read?_text_append {value : Scalar} (h : value.Readable) {rest : List Char}
    (hrest : Ends rest) : read? (value.text ++ rest) = some (.scalar value, rest) := by
  cases value with
  | null => rfl
  | bool b => cases b <;> rfl
  | int n => exact read?_int_append h.1 hrest
  | float x => exact read?_float_append h.2 hrest
  | string s =>
      have hstring := string?_escaped s.toList rest
      change read? ('"' :: ((s.toList.flatMap escapeChar ++ ['"']) ++ rest)) = _
      rw [List.append_assoc]
      change (string? (s.toList.flatMap escapeChar ++ '"' :: rest)).map _ = _
      rw [hstring, Option.map_some, String.ofList_toList]

/-! ## Tokens one after another -/

/-- No token begins with a space. -/
theorem isSpace_of_read? {c : Char} {rest : List Char} {found : Token × List Char}
    (h : read? (c :: rest) = some found) : isSpace c = false := by
  by_contra hspace
  simp only [isSpace, Bool.not_eq_false, Bool.or_eq_true, beq_iff_eq] at hspace
  rcases hspace with ((rfl | rfl) | rfl) | rfl <;> cases h

theorem scan?_of_read? {text rest : List Char} {token : Token} (h : read? text = some (token, rest)) :
    scan? text = (scan? rest).map (token :: ·) := by
  cases text with
  | nil => cases h
  | cons c tail =>
      rw [scan?, if_neg (by simp [isSpace_of_read? h])]
      split
      · next found hfound =>
          rw [h] at hfound
          obtain rfl := Option.some.inj hfound
          rfl
      · next hnone =>
          rw [h] at hnone
          cases hnone

def isMark : Token → Bool
  | scalar _ => false
  | _ => true

theorem read?_mark {token : Token} (h : token.isMark = true) (rest : List Char) :
    read? (token.text ++ rest) = some (token, rest) := by
  cases token <;> first | rfl | cases h

/-- A number ends in front of a bracket, brace, comma or colon. -/
theorem ends_mark {token : Token} (h : token.isMark = true) (rest : List Char) :
    Ends (token.text ++ rest) := by
  cases token <;> first | exact ends_cons (by decide) rest | cases h

end Token

end ClosedSql.Json
