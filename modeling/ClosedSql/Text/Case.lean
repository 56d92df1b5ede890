/-!
# Letter case

Keywords and a few spellings are recognised whatever the case of their ASCII
letters. The two spellings of the current time are looser: they follow Unicode's
simple case folding, under which the long s stands for an s.
-/

namespace ClosedSql.Text

def lower (s : List Char) : List Char :=
  s.map Char.toLower

def upper (s : List Char) : List Char :=
  s.map Char.toUpper

def sameIgnoringCase (s t : List Char) : Bool :=
  lower s == lower t

/-- Two texts are the same up to case if they are the same in lower case. -/
theorem sameIgnoringCase_iff {s t : List Char} :
    sameIgnoringCase s t = true ↔ lower s = lower t := by
  simp [sameIgnoringCase]

def occurs (pattern : List Char) : List Char → Bool
  | [] => pattern.isEmpty
  | c :: rest => pattern.isPrefixOf (c :: rest) || occurs pattern rest

/-- Simple case folding as far as the letters of ASCII words are concerned: besides
the capitals, the long s and the Kelvin sign fold to ASCII letters. -/
def fold (c : Char) : Char :=
  if c == '\u017f' then 's' else if c == '\u212a' then 'k' else c.toLower

/-- Whether `word`, written in lower case, stands at the head of the text in any case;
the answer is what follows it. -/
def afterWord? : (word text : List Char) → Option (List Char)
  | [], text => some text
  | _ :: _, [] => none
  | w :: word, c :: text => if fold c == w then afterWord? word text else none

/-- A word that is read is as long as what is taken from the text. -/
theorem length_afterWord? {word text rest : List Char} (h : afterWord? word text = some rest) :
    rest.length + word.length = text.length := by
  induction word generalizing text with
  | nil => simp_all [afterWord?]
  | cons w word ih =>
      cases text with
      | nil => simp [afterWord?] at h
      | cons c text =>
          rw [afterWord?] at h
          split at h
          · have := ih h
            simp only [List.length_cons]
            omega
          · cases h

end ClosedSql.Text
