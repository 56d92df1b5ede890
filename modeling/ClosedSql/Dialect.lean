import ClosedSql.Text.Blank
import ClosedSql.Text.Case
import ClosedSql.Text.Quoted
import ClosedSql.Text.Word

/-!
# Dialect literals

Statements of older callers write the current time as `CURRENT_TIMESTAMP` or as a call of
`datetime`, and truth values as zero and one. Before a statement is read, each spelling
of the current time is replaced by one literal, and a zero or one that stands where a
truth value may stand becomes a word. Both replacements leave quoted text alone.
-/

namespace ClosedSql.Dialect

open Text

def quotedRun? : List Char → Option (List Char × List Char)
  | [] => none
  | c :: rest =>
      if c = '\'' then (singleQuotedRun? rest).map fun found => (c :: found.1, found.2)
      else if c = '"' then (doubleQuotedRun? rest).map fun found => (c :: found.1, found.2)
      else none

/-- A quoted run and what follows it are the whole text. -/
theorem quotedRun?_append {text : List Char} {found : List Char × List Char}
    (h : quotedRun? text = some found) : found.1 ++ found.2 = text := by
  cases text with
  | nil => cases h
  | cons c rest =>
      rw [quotedRun?] at h
      split at h
      · obtain ⟨inner, hinner, rfl⟩ := Option.map_eq_some_iff.1 h
        simp [singleQuotedRun?_append hinner]
      · split at h
        · obtain ⟨inner, hinner, rfl⟩ := Option.map_eq_some_iff.1 h
          simp [doubleQuotedRun?_append hinner]
        · cases h

theorem length_quotedRun? {c : Char} {rest : List Char} {found : List Char × List Char}
    (h : quotedRun? (c :: rest) = some found) : found.2.length < (c :: rest).length := by
  have happend := quotedRun?_append h
  have hne : found.1 ≠ [] := by
    rw [quotedRun?] at h
    split at h
    · obtain ⟨inner, _, rfl⟩ := Option.map_eq_some_iff.1 h
      simp
    · split at h
      · obtain ⟨inner, _, rfl⟩ := Option.map_eq_some_iff.1 h
        simp
      · cases h
  have hpos := List.length_pos_iff.2 hne
  have hlength := congrArg List.length happend
  rw [List.length_append] at hlength
  omega

/-! ## The current time -/

theorem length_trimStart_le (text : List Char) : (trimStart text).length ≤ text.length :=
  (List.dropWhile_sublist _).length_le

/-- A modifier of the call that keeps the instant, in quotes; the answer is what follows it. -/
def modifier? (text : List Char) : Option (List Char) :=
  match afterWord? "'localtime'".toList text with
  | some rest => some rest
  | none => afterWord? "'utc'".toList text

theorem length_modifier? {text rest : List Char} (h : modifier? text = some rest) :
    rest.length < text.length := by
  rw [modifier?] at h
  split at h
  · next found hfound =>
      have := length_afterWord? hfound
      simp only [Option.some.injEq] at h
      subst h
      have hpos : 0 < "'localtime'".toList.length := by decide
      omega
  · have := length_afterWord? h
    have hpos : 0 < "'utc'".toList.length := by decide
    omega

/-- The modifiers and the closing parenthesis of the call; the answer is what follows. -/
def callTail? (text : List Char) : Option (List Char) :=
  match _h : trimStart text with
  | [] => none
  | c :: rest =>
      if c = ')' then some rest
      else if c = ',' then
        match _hm : modifier? (trimStart rest) with
        | some tail => callTail? tail
        | none => none
      else none
termination_by text.length
decreasing_by
  have hmod := length_modifier? _hm
  have hrest := length_trimStart_le rest
  have htext := length_trimStart_le text
  rw [_h, List.length_cons] at htext
  omega

theorem length_callTail? {text rest : List Char} (h : callTail? text = some rest) :
    rest.length < text.length := by
  fun_induction callTail? text generalizing rest with
  | case1 => cases h
  | case2 text rest' heq =>
      have htext := length_trimStart_le text
      rw [heq, List.length_cons] at htext
      simp only [Option.some.injEq] at h
      subst h
      omega
  | case3 text rest' tail hm heq _ ih =>
      have hlt := ih h
      have hmod := length_modifier? hm
      have hrest := length_trimStart_le rest'
      have htext := length_trimStart_le text
      rw [heq, List.length_cons] at htext
      omega
  | case4 => cases h
  | case5 => cases h

/-- The arguments of the call, from the parenthesis on; the answer is what follows the call. -/
def callArguments? (text : List Char) : Option (List Char) :=
  match trimStart text with
  | '(' :: rest => (afterWord? "'now'".toList (trimStart rest)).bind callTail?
  | _ => none

theorem length_callArguments? {text rest : List Char} (h : callArguments? text = some rest) :
    rest.length < text.length := by
  rw [callArguments?] at h
  split at h
  · next inner heq =>
      obtain ⟨tail, htail, hrest⟩ := Option.bind_eq_some_iff.1 h
      have hword := length_afterWord? htail
      have hlt := length_callTail? hrest
      have hinner := length_trimStart_le inner
      have htext := length_trimStart_le text
      rw [heq, List.length_cons] at htext
      omega
  · cases h

/-- Whether a text begins inside a word. -/
def beginsInWord : List Char → Bool
  | [] => false
  | c :: _ => isWord c

/-- A spelling of the current time at the head of a text; the answer is what follows it. -/
def nowSpelling? (text : List Char) : Option (List Char) :=
  match afterWord? "current_timestamp".toList text with
  | some rest => if beginsInWord rest then none else some rest
  | none => (afterWord? "datetime".toList text).bind callArguments?

theorem length_nowSpelling? {text rest : List Char} (h : nowSpelling? text = some rest) :
    rest.length < text.length := by
  rw [nowSpelling?] at h
  split at h
  · next found hfound =>
      have hword := length_afterWord? hfound
      have hpos : 0 < "current_timestamp".toList.length := by decide
      split at h
      · cases h
      · simp only [Option.some.injEq] at h
        subst h
        omega
  · obtain ⟨tail, htail, hrest⟩ := Option.bind_eq_some_iff.1 h
    have hword := length_afterWord? htail
    have hlt := length_callArguments? hrest
    omega

/-- Replace every spelling of the current time outside quotes. A spelling begins where no word
goes on, which is what `inWord` tells of the character before the text. -/
def replaceNow (now : List Char) (inWord : Bool) : List Char → List Char
  | [] => []
  | c :: rest =>
      match _hq : quotedRun? (c :: rest) with
      | some (run, tail) => run ++ replaceNow now false tail
      | none =>
          if inWord then c :: replaceNow now (isWord c) rest
          else
            match _hn : nowSpelling? (c :: rest) with
            | some tail => now ++ replaceNow now false tail
            | none => c :: replaceNow now (isWord c) rest
termination_by text => text.length
decreasing_by
  · exact length_quotedRun? _hq
  · simp
  · exact length_nowSpelling? _hn
  · simp

/-! ## Truth values -/

/-- A text is made of quoted runs and of characters outside quotes. -/
inductive Piece
  | quoted (run : List Char)
  | plain (c : Char)
deriving DecidableEq

def Piece.chars : Piece → List Char
  | quoted run => run
  | plain c => [c]

/-- Cut a text into its pieces, from left to right. -/
def pieces : List Char → List Piece
  | [] => []
  | c :: rest =>
      match _hq : quotedRun? (c :: rest) with
      | some (run, tail) => .quoted run :: pieces tail
      | none => .plain c :: pieces rest
termination_by text => text.length
decreasing_by
  · exact length_quotedRun? _hq
  · simp

/-- Cutting a text into pieces loses no character. -/
theorem flatMap_chars_pieces (text : List Char) : (pieces text).flatMap Piece.chars = text := by
  fun_induction pieces text with
  | case1 => rfl
  | case2 c rest run tail hq ih =>
      have := quotedRun?_append hq
      simp_all [Piece.chars]
  | case3 c rest hq ih => simp [Piece.chars, ih]

def closingWords : List (List Char) :=
  ["and".toList, "or".toList, "order".toList, "limit".toList, "group".toList]

/-- Whether a value may end before this text: at the end of the statement, at a closing mark or
before one of the words that close a condition. -/
def endsValue (text : List Char) : Bool :=
  match trimStart text with
  | [] => true
  | c :: rest =>
      if c = ',' ∨ c = ')' ∨ c = ';' then true
      else if c.isAlpha then
        closingWords.contains (lower ((c :: rest).takeWhile isAsciiWord))
      else false

/-- Whether a value may begin after this character, the last one that is not blank. -/
def beginsValue : Option Char → Bool
  | some c => c == '=' || c == ',' || c == '('
  | none => false

def beginsFlag (before : Option Char) (inWord : Bool) (c : Char) : Bool :=
  (c == '0' || c == '1') && !inWord && beginsValue before

def endsFlag (following : List Char) : Bool :=
  !beginsInWord following && endsValue following

def flagWord (c : Char) : List Char :=
  if c = '1' then "true".toList else "false".toList

/-- Replace every zero and one that stands for a truth value. What comes before the pieces is
known by its last character that is not blank and by whether a word goes on. -/
def replaceFlags (before : Option Char) (inWord : Bool) : List Piece → List Char
  | [] => []
  | .quoted run :: rest => run ++ replaceFlags run.getLast? false rest
  | .plain c :: rest =>
      (if beginsFlag before inWord c && endsFlag (rest.flatMap Piece.chars) then flagWord c
        else [c]) ++
        replaceFlags (if isBlank c then before else some c) (isWord c) rest

/-! ## Both -/

/-- The statement with one spelling for each dialect literal. -/
def normalizeChars (now text : List Char) : List Char :=
  replaceFlags none false (pieces (replaceNow now false text))

/-- The statement with one spelling for each dialect literal; `now` stands for the current
time. -/
def normalize (now text : String) : String :=
  String.ofList (normalizeChars now.toList text.toList)

end ClosedSql.Dialect
