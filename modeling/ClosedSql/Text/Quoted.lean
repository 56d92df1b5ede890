/-!
# Quoted text

A text in quotes doubles every quote it holds, so it ends at the first quote that is
not doubled. Reading undoes writing. When no quote ends the text, a scanner that only
wants to skip quoted text settles for the last doubled quote it passed and takes the
first half of it for the end.
-/

namespace ClosedSql.Text

def double (quote : Char) : List Char → List Char
  | [] => []
  | c :: rest => if c = quote then quote :: quote :: double quote rest else c :: double quote rest

def enquote (quote : Char) (text : List Char) : List Char :=
  quote :: double quote text ++ [quote]

/-- Read a quoted text whose opening quote is already gone: its content, and what follows the
closing quote. There is no answer when the text is never closed. -/
def unquote? (quote : Char) : List Char → Option (List Char × List Char)
  | [] => none
  | [c] => if c = quote then some ([], []) else none
  | c :: d :: rest =>
      if c = quote then
        if d = quote then (unquote? quote rest).map fun found => (quote :: found.1, found.2)
        else some ([], d :: rest)
      else (unquote? quote (d :: rest)).map fun found => (c :: found.1, found.2)

theorem length_unquote? {quote : Char} {text : List Char} {found : List Char × List Char}
    (h : unquote? quote text = some found) : found.2.length < text.length := by
  fun_induction unquote? quote text generalizing found with
  | case1 => cases h
  | case2 => simp only [Option.some.injEq] at h; subst h; simp
  | case3 => cases h
  | case4 rest ih =>
      obtain ⟨found, hfound, rfl⟩ := Option.map_eq_some_iff.1 h
      have := ih hfound
      simp only [List.length_cons]
      omega
  | case5 => simp only [Option.some.injEq] at h; subst h; simp
  | case6 c d rest hc ih =>
      obtain ⟨found, hfound, rfl⟩ := Option.map_eq_some_iff.1 h
      have := ih hfound
      simp only [List.length_cons] at this ⊢
      omega

/-- What remains of a text after a run that began with a single quote, now gone: up to the
closing quote, or, when the run is never closed, up to the first half of the last doubled
quote. The run comes first, with its closing quote. -/
def singleQuotedRun? : List Char → Option (List Char × List Char)
  | [] => none
  | [c] => if c = '\'' then some (['\''], []) else none
  | c :: d :: rest =>
      if c = '\'' then
        if d = '\'' then
          match singleQuotedRun? rest with
          | some found => some ('\'' :: '\'' :: found.1, found.2)
          | none => some (['\''], d :: rest)
        else some (['\''], d :: rest)
      else (singleQuotedRun? (d :: rest)).map fun found => (c :: found.1, found.2)

/-- The same for double quotes, where the first quote ends the run. -/
def doubleQuotedRun? : List Char → Option (List Char × List Char)
  | [] => none
  | c :: rest =>
      if c = '"' then some (['"'], rest)
      else (doubleQuotedRun? rest).map fun found => (c :: found.1, found.2)

theorem singleQuotedRun?_append {text : List Char} {found : List Char × List Char}
    (h : singleQuotedRun? text = some found) : found.1 ++ found.2 = text := by
  fun_induction singleQuotedRun? text generalizing found with
  | case1 => cases h
  | case2 => simp only [Option.some.injEq] at h; subst h; rfl
  | case3 => cases h
  | case4 rest inner hinner ih =>
      simp only [Option.some.injEq] at h
      subst h
      simp [ih hinner]
  | case5 rest hinner => simp only [Option.some.injEq] at h; subst h; rfl
  | case6 => simp only [Option.some.injEq] at h; subst h; rfl
  | case7 c d rest hc ih =>
      obtain ⟨found, hfound, rfl⟩ := Option.map_eq_some_iff.1 h
      simp [ih hfound]

theorem doubleQuotedRun?_append {text : List Char} {found : List Char × List Char}
    (h : doubleQuotedRun? text = some found) : found.1 ++ found.2 = text := by
  induction text generalizing found with
  | nil => cases h
  | cons c rest ih =>
      rw [doubleQuotedRun?] at h
      split at h
      · next hc => simp only [Option.some.injEq] at h; subst h; simp [hc]
      · obtain ⟨found, hfound, rfl⟩ := Option.map_eq_some_iff.1 h
        simp [ih hfound]

/-- A doubled text is undoubled up to its closing quote. -/
theorem unquote?_double {quote : Char} (text : List Char) {rest : List Char}
    (hrest : rest.head? ≠ some quote) :
    unquote? quote (double quote text ++ quote :: rest) = some (text, rest) := by
  induction text with
  | nil =>
      cases rest with
      | nil => simp [double, unquote?]
      | cons d rest => simp_all [double, unquote?]
  | cons c text ih =>
      rw [double]
      split
      · next hc => subst hc; simp [unquote?, ih]
      · next hc =>
          obtain ⟨d, tail, htail⟩ : ∃ d tail, double quote text ++ quote :: rest = d :: tail := by
            cases double quote text with
            | nil => exact ⟨_, _, rfl⟩
            | cons d tail => exact ⟨_, _, rfl⟩
          rw [htail] at ih
          simp [htail, unquote?, hc, ih]

end ClosedSql.Text
