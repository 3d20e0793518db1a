import Offside.Settings.Value

/-!
# Tables of a TOML document

The tables that a document builds up, key by key. A table may come from a header, from the way to a
header, or from a dotted key, and where it comes from decides what may still be added to it: nothing
is ever defined twice.
-/

namespace Offside.Toml

open Offside.Settings (Fields Value)

/-- Where a table comes from. -/
inductive Origin where
  /-- It stands on the way to a header. -/
  | implicit
  /-- It has a header of its own. -/
  | header
  /-- It stands on the way of a dotted key. -/
  | dotted
  deriving Repr, DecidableEq

/-- What a key stands for. -/
inductive Node where
  | value (v : Value)
  | table (origin : Origin) (entries : List (Text × Node))
  /-- An array of tables, the newest first. -/
  | tables (elements : List (List (Text × Node)))

/-- The keys of a table, in order. -/
abbrev Entries := List (Text × Node)

namespace Entries

/-- Puts a node under a key. -/
def set (entries : Entries) (key : Text) (node : Node) : Entries :=
  if entries.any (·.1 == key) then entries.map fun e => if e.1 == key then (key, node) else e
  else entries ++ [(key, node)]

/-- Changes the table at the end of a path, and makes the tables on the way. A dotted key does not
lead into a table that has a header. -/
def modify (byKey : Bool) (change : Origin → Entries → Option Entries) :
    List Text → Origin → Entries → Option Entries
  | [], origin, entries => change origin entries
  | key :: path, _, entries =>
    match entries.lookup key with
    | none =>
      let origin := if byKey then Origin.dotted else Origin.implicit
      (modify byKey change path origin []).map fun inner => entries.set key (.table origin inner)
    | some (.table origin inner) =>
      if byKey && origin == .header then none
      else
        (modify byKey change path origin inner).map fun inner =>
          entries.set key (.table origin inner)
    | some (.tables (newest :: older)) =>
      (modify byKey change path .header newest).map fun inner =>
        entries.set key (.tables (inner :: older))
    | some _ => none

/-- Adds a value under a dotted key. -/
def addValue (path : List Text) (key : Text) (v : Value) (origin : Origin) (entries : Entries) :
    Option Entries :=
  modify true
    (fun origin inner =>
      if !path.isEmpty && origin != .dotted then none
      else if inner.any (·.1 == key) then none
      else some (inner ++ [(key, .value v)]))
    path origin entries

/-- Adds a table that has a header. -/
def addTable (path : List Text) (key : Text) (entries : Entries) : Option Entries :=
  modify false
    (fun _ inner =>
      match inner.lookup key with
      | none => some (inner ++ [(key, .table .header [])])
      | some (.table .implicit body) => some (inner.set key (.table .header body))
      | some _ => none)
    path .header entries

/-- Adds a table to an array of tables. -/
def addElement (path : List Text) (key : Text) (entries : Entries) : Option Entries :=
  modify false
    (fun _ inner =>
      match inner.lookup key with
      | none => some (inner ++ [(key, .tables [[]])])
      | some (.tables elements) => some (inner.set key (.tables ([] :: elements)))
      | some _ => none)
    path .header entries

end Entries

mutual

/-- What a node gives. -/
def Node.toValue : Node → Value
  | .value v => v
  | .table _ entries => .table (Entries.toFields entries)
  | .tables _ => .list

/-- The keys of a table with what they give. -/
def Entries.toFields : List (Text × Node) → Fields
  | [] => .nil
  | (key, node) :: rest => .cons key node.toValue (Entries.toFields rest)

end

end Offside.Toml
