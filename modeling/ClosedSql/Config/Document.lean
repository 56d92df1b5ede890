import ClosedSql.Config
import ClosedSql.Toml.Document

/-!
# Settings as a document

Settings are read from a document whose entries are named like them. An entry that is not
there leaves its default, one that is no setting is ignored, and one of the wrong type
makes the whole document malformed.
-/

namespace ClosedSql

namespace Config

open Toml

/-- The setting of a name, or its default; `none` for an entry of the wrong type. -/
def setting? {α : Type} (read? : Node → Option α) (default : α) (entries : Entries)
    (name : String) : Option α :=
  match entries.get? name with
  | some node => read? node
  | none => some default

def text? : Node → Option String
  | .string s => some s
  | _ => none

def flag? : Node → Option Bool
  | .bool b => some b
  | _ => none

def entries? : Node → Option Entries
  | .inline entries | .table _ entries => some entries
  | _ => none

def isHollow : Node → Bool
  | .inline [] | .table _ [] | .array [] => true
  | _ => false

/-- A word out of a closed set: a text, or a table whose only entry has the word for its name and
holds nothing. -/
def word? (node : Node) : Option String :=
  match node, entries? node with
  | .string s, _ => some s
  | _, some [(word, inner)] => if isHollow inner then some word else none
  | _, _ => none

def countPolicy? (node : Node) : Option CountPolicy :=
  match word? node with
  | some "apply" => some .apply
  | some "ignore" => some .ignore
  | _ => none

def unsupportedPolicy? (node : Node) : Option UnsupportedPolicy :=
  match word? node with
  | some "lenient" => some .lenient
  | some "strict" => some .strict
  | _ => none

def ofEntries? (entries : Entries) : Option Config := do
  let defaults : Config := default
  return {
    nowLiteral := ← setting? text? defaults.nowLiteral entries "now_literal"
    idColumn := ← setting? text? defaults.idColumn entries "id_column"
    countAlias := ← setting? text? defaults.countAlias entries "count_alias"
    countPolicy := ← setting? countPolicy? defaults.countPolicy entries "count_filter"
    unsupportedPolicy :=
      ← setting? unsupportedPolicy? defaults.unsupportedPolicy entries "unsupported"
    literalPredicates :=
      ← setting? flag? defaults.literalPredicates entries "literal_predicates" }

def ofText (text : String) : Except ConfigFault Config :=
  match (Toml.ofText? text).bind ofEntries? with
  | some config => config.validate
  | none => .error .malformed

/-- Read settings from the bytes of a file, if there is one. -/
def ofFile (bytes : Option ByteArray) : Except ConfigFault Config :=
  match bytes.bind String.fromUTF8? with
  | some text => ofText text
  | none => .error .unreadable

end Config

end ClosedSql
