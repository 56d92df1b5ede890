import ClosedSql.Json.Token
import ClosedSql.NameMap

/-!
# JSON documents

A document is a tree whose leaves are scalars. It is read token by token, with the
containers that are still open on a stack: what may come next depends only on the top of
it. Reading keeps the members of an object as they stand; in canonical form they are in
the order of their names, and of several members of one name the last is kept.
-/

namespace ClosedSql

inductive Json
  | scalar (value : Json.Scalar)
  | array (items : List Json)
  | object (members : List (String × Json))

namespace Json

instance : Inhabited Json :=
  ⟨scalar .null⟩

mutual

def tokens : Json → List Token
  | scalar value => [.scalar value]
  | array items => .openArray :: itemTokens items ++ [.closeArray]
  | object members => .openObject :: memberTokens members ++ [.closeObject]

def itemTokens : List Json → List Token
  | [] => []
  | [item] => tokens item
  | item :: next :: rest => tokens item ++ .comma :: itemTokens (next :: rest)

def memberTokens : List (String × Json) → List Token
  | [] => []
  | [(name, value)] => .scalar (.string name) :: .colon :: tokens value
  | (name, value) :: next :: rest =>
      .scalar (.string name) :: .colon :: tokens value ++ .comma :: memberTokens (next :: rest)

end

def text (json : Json) : String :=
  String.ofList (json.tokens.flatMap Token.text)

mutual

/-- The document with the members of every object in the order of their names, the last of
each name. -/
def canonical : Json → Json
  | scalar value => scalar value
  | array items => array (canonicalItems items)
  | object members => object (NameMap.ofList (canonicalMembers members)).entries

def canonicalItems : List Json → List Json
  | [] => []
  | item :: rest => canonical item :: canonicalItems rest

def canonicalMembers : List (String × Json) → List (String × Json)
  | [] => []
  | (name, value) :: rest => (name, canonical value) :: canonicalMembers rest

end

/-- A container that is still open while one of its parts is read: what it holds before that
part, last first. -/
inductive Frame
  | array (items : List Json)
  | object (members : List (String × Json)) (name : String)

/-- What has been read of a document, and what may come next. Items and members are kept last
first, open containers innermost first. -/
inductive Progress
  /-- A value is due. -/
  | valueDue (frames : List Frame)
  /-- An array has just been opened. -/
  | arrayStart (frames : List Frame)
  /-- An object has just been opened. -/
  | objectStart (frames : List Frame)
  /-- A comma or the end of an array is due. -/
  | afterItem (items : List Json) (frames : List Frame)
  /-- A comma or the end of an object is due. -/
  | afterMember (members : List (String × Json)) (frames : List Frame)
  /-- The name of a member is due. -/
  | nameDue (members : List (String × Json)) (frames : List Frame)
  /-- A colon is due. -/
  | colonDue (members : List (String × Json)) (name : String) (frames : List Frame)
  | done (json : Json)

namespace Progress

def depthLimit : Nat :=
  127

/-- A value is complete and goes to the innermost open container. -/
def deliver (json : Json) : List Frame → Progress
  | [] => done json
  | .array items :: frames => afterItem (json :: items) frames
  | .object members name :: frames => afterMember ((name, json) :: members) frames

def start? (frames : List Frame) : Token → Option Progress
  | .scalar value => some (deliver (.scalar value) frames)
  | .openArray => if frames.length < depthLimit then some (arrayStart frames) else none
  | .openObject => if frames.length < depthLimit then some (objectStart frames) else none
  | _ => none

def step? : Progress → Token → Option Progress
  | valueDue frames, token => start? frames token
  | arrayStart frames, .closeArray => some (deliver (.array []) frames)
  | arrayStart frames, token => start? (.array [] :: frames) token
  | objectStart frames, .closeObject => some (deliver (.object []) frames)
  | objectStart frames, .scalar (.string name) => some (colonDue [] name frames)
  | afterItem items frames, .comma => some (valueDue (.array items :: frames))
  | afterItem items frames, .closeArray => some (deliver (.array items.reverse) frames)
  | afterMember members frames, .comma => some (nameDue members frames)
  | afterMember members frames, .closeObject => some (deliver (.object members.reverse) frames)
  | nameDue members frames, .scalar (.string name) => some (colonDue members name frames)
  | colonDue members name frames, .colon => some (valueDue (.object members name :: frames))
  | _, _ => none

def finished? : Progress → Option Json
  | done json => some json
  | _ => none

end Progress

def ofTokens? (tokens : List Token) : Option Json :=
  (tokens.foldlM Progress.step? (.valueDue [])).bind Progress.finished?

def ofText? (text : String) : Option Json :=
  (Token.scan? text.toList).bind ofTokens?

end Json

end ClosedSql
