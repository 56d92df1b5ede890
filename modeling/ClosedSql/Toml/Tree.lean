import ClosedSql.Number.Binary64

/-!
# TOML tables

The tree of a document grows pair by pair and header by header. How a table came about
decides what may still be added to it: a header may complete a table that was only implied
by longer headers, a dotted key may only add to tables that dotted keys have made, and an
inline table is complete as it stands.
-/

namespace ClosedSql.Toml

/-- How a table came about. -/
inductive Origin
  /-- It has a header of its own, or is the document itself. -/
  | header
  /-- A longer header passes through it. -/
  | implied
  /-- A dotted key passes through it. -/
  | dotted
deriving DecidableEq

inductive Node
  | string (s : String)
  | int (n : Int)
  | float (x : Number.Binary64)
  | bool (b : Bool)
  /-- A date, a time of day or both, as written. -/
  | moment (text : String)
  | array (items : List Node)
  /-- A table that is written as a value. -/
  | inline (entries : List (String × Node))
  | table (origin : Origin) (entries : List (String × Node))
  /-- An array of tables, each with a header of its own, last first. -/
  | tables (all : List (List (String × Node)))

/-- The entries of a table in the order of their first mention. -/
abbrev Entries :=
  List (String × Node)

namespace Entries

def get? (entries : Entries) (name : String) : Option Node :=
  (entries.find? fun entry => entry.1 = name).map Prod.snd

/-- Change the entry of a name, or make one at the end; the change may be refused. -/
def change? (name : String) (change : Option Node → Option Node) : Entries → Option Entries
  | [] => (change none).map fun node => [(name, node)]
  | entry :: rest =>
      if entry.1 = name then (change (some entry.2)).map fun node => (name, node) :: rest
      else (change? name change rest).map (entry :: ·)

/-- Change the table at the end of a path of names, making the tables on the way that are not
there. The path of a dotted key leads through no table with a header. -/
def within? (byKey : Bool) (act : Origin → Entries → Option Entries) :
    List String → Origin → Entries → Option Entries
  | [], origin, entries => act origin entries
  | name :: path, _, entries =>
      entries.change? name fun
        | none =>
            let origin := if byKey then Origin.dotted else .implied
            (within? byKey act path origin []).map (Node.table origin)
        | some (.table origin inner) =>
            if byKey ∧ origin = .header then none
            else (within? byKey act path origin inner).map (Node.table origin)
        | some (.tables (last :: earlier)) =>
            (within? byKey act path .header last).map fun inner => .tables (inner :: earlier)
        | some _ => none

def put? (path : List String) (name : String) (node : Node) : Origin → Entries → Option Entries :=
  within? true (fun origin entries =>
    if (origin == .dotted) == path.isEmpty then none
    else entries.change? name fun
      | none => some node
      | some _ => none) path

def openTable? (path : List String) (name : String) (root : Entries) : Option Entries :=
  within? false (fun _ entries =>
    entries.change? name fun
      | none => some (.table .header [])
      | some (.table .implied inner) => some (.table .header inner)
      | some _ => none) path .header root

def openNext? (path : List String) (name : String) (root : Entries) : Option Entries :=
  within? false (fun _ entries =>
    entries.change? name fun
      | none => some (.tables [[]])
      | some (.tables all) => some (.tables ([] :: all))
      | some _ => none) path .header root

end Entries

/-- The inline table of pairs of a dotted key, given by its path and last name, and a node. -/
def Node.ofPairs? (pairs : List (List String × String × Node)) : Option Node :=
  (pairs.foldlM (fun entries pair => Entries.put? pair.1 pair.2.1 pair.2.2 .header entries)
    ([] : Entries)).map .inline

inductive Part
  | pair (path : List String) (name : String) (node : Node)
  | tableHeader (path : List String) (name : String)
  | arrayHeader (path : List String) (name : String)

/-- Add a part to a document, given the path of the header last met. A pair belongs to the table
of that header. -/
def Part.addTo? (state : List String × Entries) : Part → Option (List String × Entries)
  | .pair path name node =>
      (Entries.within? false (Entries.put? path name node) state.1 .header state.2).map
        fun root => (state.1, root)
  | .tableHeader path name =>
      (Entries.openTable? path name state.2).map fun root => (path ++ [name], root)
  | .arrayHeader path name =>
      (Entries.openNext? path name state.2).map fun root => (path ++ [name], root)

/-- The entries of a document, if its parts agree. -/
def Entries.ofParts? (parts : List Part) : Option Entries :=
  (parts.foldlM Part.addTo? (([] : List String), ([] : Entries))).map Prod.snd

end ClosedSql.Toml
