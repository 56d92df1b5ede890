import ClosedSql.Toml.Scalar
import ClosedSql.Toml.Tree

/-!
# TOML documents

A document is a sequence of lines, each of which is empty, a pair or a header, with an
optional comment at its end. Arrays may span lines and inline tables may not, and both
may be nested only so deep.
-/

namespace ClosedSql.Toml

/-- What may be nested in what, and the number of names a key may have, stay below this bound. -/
def nestingBound : Nat :=
  80

def skipSpaces (text : List Char) : List Char :=
  text.dropWhile isSpace

/-- The text after a comment, if one begins here. -/
def skipComment (text : List Char) : List Char :=
  match text with
  | '#' :: rest => rest.dropWhile isPlain
  | _ => text

/-- The text after what may stand at the end of a line, and the line end or the end of text. -/
def finishLine? (text : List Char) : Option (List Char) :=
  match skipComment (skipSpaces text) with
  | [] => some []
  | rest => lineEnd? rest

/-- The text without spaces, comments and line ends at its head. A comment ends with its line. -/
def skipBlank : Nat → List Char → List Char
  | 0, text => text
  | fuel + 1, text =>
      match lineEnd? (skipComment (skipSpaces text)) with
      | some rest => skipBlank fuel rest
      | none => skipSpaces text

def name? (text : List Char) : Option (String × List Char) :=
  let isBare (c : Char) : Bool := c.isAlphanum || c == '-' || c == '_'
  match text with
  | '"' :: _ | '\'' :: _ => (line? text).map fun found => (String.ofList found.1, found.2)
  | _ =>
      let bare := text.takeWhile isBare
      if bare.isEmpty then none
      else some (String.ofList bare, text.dropWhile isBare)

def names? : Nat → List Char → Option (List String × List Char)
  | 0, _ => none
  | fuel + 1, text => do
      let (name, rest) ← name? (skipSpaces text)
      match skipSpaces rest with
      | '.' :: rest => (names? fuel rest).map fun found => (name :: found.1, found.2)
      | rest => some ([name], rest)

def key? (text : List Char) : Option ((List String × String) × List Char) := do
  let (names, rest) ← names? text.length text
  let last ← names.getLast?
  if names.length < nestingBound then some ((names.dropLast, last), rest) else none

/-- A pair with a reader for its value, and the text after it. -/
def pair? (value? : List Char → Option (Node × List Char)) (text : List Char) :
    Option ((List String × String × Node) × List Char) := do
  let ((path, name), rest) ← key? text
  let rest ← Calendar.after? '=' rest
  let (node, rest) ← value? (skipSpaces rest)
  some ((path, name, node), rest)

def items? (value? : List Char → Option (Node × List Char)) :
    Nat → List Char → Option (List Node × List Char)
  | 0, _ => none
  | fuel + 1, text =>
      match skipBlank text.length text with
      | ']' :: rest => some ([], rest)
      | text => do
          let (item, rest) ← value? text
          match skipBlank rest.length rest with
          | ']' :: rest => some ([item], rest)
          | ',' :: rest => (items? value? fuel rest).map fun found => (item :: found.1, found.2)
          | _ => none

def pairs? (value? : List Char → Option (Node × List Char)) :
    Nat → List Char → Option (List (List String × String × Node) × List Char)
  | 0, _ => none
  | fuel + 1, text => do
      let (pair, rest) ← pair? value? text
      match skipSpaces rest with
      | '\x7d' :: rest => some ([pair], rest)
      | ',' :: rest => (pairs? value? fuel rest).map fun found => (pair :: found.1, found.2)
      | _ => none

/-- An inline table whose opening brace is already gone, and the text after it. -/
def inline? (value? : List Char → Option (Node × List Char)) (text : List Char) :
    Option (Node × List Char) :=
  match skipSpaces text with
  | '\x7d' :: rest => some (.inline [], rest)
  | text => do
      let (pairs, rest) ← pairs? value? text.length text
      let node ← Node.ofPairs? pairs
      some (node, rest)

def scalar? (text : List Char) : Option (Node × List Char) :=
  match text with
  | '"' :: _ | '\'' :: _ =>
      (quoted? text).map fun found => (.string (String.ofList found.1), found.2)
  | 't' :: 'r' :: 'u' :: 'e' :: rest => some (.bool true, rest)
  | 'f' :: 'a' :: 'l' :: 's' :: 'e' :: rest => some (.bool false, rest)
  | _ =>
      match moment? text with
      | some (moment, rest) => some (.moment moment, rest)
      | none => (number? text).map fun found =>
          match found.1 with
          | .int n => (.int n, found.2)
          | .float x => (.float x, found.2)

/-- A value with a given number of levels inside it at most, and the text after it. -/
def value? : Nat → List Char → Option (Node × List Char)
  | 0, text => scalar? text
  | depth + 1, text =>
      match text with
      | '[' :: rest =>
          (items? (value? depth) rest.length rest).map fun found => (.array found.1, found.2)
      | '\x7b' :: rest => inline? (value? depth) rest
      | _ => scalar? text

/-- A header whose brackets before the key are already gone and close with the given text, and
the text after its line. -/
def header? (closing : List Char) (text : List Char) :
    Option ((List String × String) × List Char) := do
  let (key, rest) ← key? text
  if closing.isPrefixOf rest then
    let rest ← finishLine? (rest.drop closing.length)
    some (key, rest)
  else none

def part? (text : List Char) : Option (Part × List Char) :=
  match text with
  | '[' :: '[' :: rest =>
      (header? [']', ']'] rest).map fun found => (.arrayHeader found.1.1 found.1.2, found.2)
  | '[' :: rest =>
      (header? [']'] rest).map fun found => (.tableHeader found.1.1 found.1.2, found.2)
  | _ => do
      let ((path, name, node), rest) ← pair? (value? (nestingBound - 1)) text
      let rest ← finishLine? rest
      some (.pair path name node, rest)

def parts? : Nat → List Char → Option (List Part)
  | 0, _ => none
  | fuel + 1, text =>
      let text := skipSpaces text
      if text.isEmpty then some []
      else
        match finishLine? text with
        | some rest => parts? fuel rest
        | none => do
            let (part, rest) ← part? text
            let parts ← parts? fuel rest
            some (part :: parts)

/-- The entries of a document. A byte order mark at the very beginning does not count. -/
def ofText? (text : String) : Option Entries :=
  let chars := match text.toList with
    | '\ufeff' :: rest => rest
    | chars => chars
  (parts? (chars.length + 1) chars).bind Entries.ofParts?

end ClosedSql.Toml
