import Clearing.Settings.Node

/-!
# The tree that a TOML document builds

A table comes into being in three ways: under a header of its own, on the way
to the header of another table, or on the way of a key with points.  A table of
the second kind may still get its header, once; a table of the third kind may
only be filled by further keys with points.  Arrays of tables grow by one table
with every header, and a path leads through their last table.
-/

namespace Clearing.Toml

/-- What stands under a key. -/
inductive Tree where
  | value (node : ConfigNode)
  /-- A table; whether it was made on the way to something else, and whether that was a key with
  points. -/
  | table (onTheWay dotted : Bool) (entries : List (String × Tree))
  /-- An array of tables. -/
  | tables (elements : List (List (String × Tree)))

/-- The entries of a table. -/
abbrev Entries := List (String × Tree)

namespace Entries

/-- The entries with another tree under a key, at its place or at the end. -/
def put (entries : Entries) (key : String) (tree : Tree) : Entries :=
  if entries.any fun entry => entry.1 = key then
    entries.map fun entry => if entry.1 = key then (key, tree) else entry
  else entries ++ [(key, tree)]

/-- Changes the table that a path leads to, making tables on the way.  `change` is told whether the
table belongs to keys with points.  Keys with points do not lead through a table that has a
header. -/
def changeAt (dotted : Bool) (change : Bool → Entries → Option Entries) :
    List String → Bool → Entries → Option Entries
  | [], isDotted, entries => change isDotted entries
  | key :: path, _, entries =>
    match entries.lookup key with
    | none =>
      (changeAt dotted change path dotted []).map fun inner =>
        entries.put key (.table true dotted inner)
    | some (.value _) => none
    | some (.table onTheWay isDotted inner) =>
      if dotted ∧ ¬onTheWay then none
      else
        (changeAt dotted change path isDotted inner).map fun inner =>
          entries.put key (.table onTheWay isDotted inner)
    | some (.tables elements) =>
      (changeAt dotted change path false (elements.getLastD [])).map fun last =>
        entries.put key (.tables (elements.dropLast ++ [last]))

/-- A value under a key, which may have points; a key is given once. -/
def give (entries : Entries) (path : List String) (node : ConfigNode) : Option Entries :=
  match path.getLast? with
  | none => none
  | some key =>
    let way := path.dropLast
    changeAt true
      (fun isDotted inner =>
        if isDotted = way.isEmpty ∨ (inner.lookup key).isSome then none
        else some (inner ++ [(key, .value node)]))
      way false entries

/-- Several values under their keys, one after the other. -/
def giveAll (entries : Entries) (values : List (List String × ConfigNode)) : Option Entries :=
  values.foldlM (fun entries (path, node) => entries.give path node) entries

/-- A table with a header of its own. -/
def openTable (entries : Entries) (path : List String) (values : List (List String × ConfigNode)) :
    Option Entries :=
  match path.getLast? with
  | none => none
  | some key =>
    changeAt false
      (fun _ inner =>
        match inner.lookup key with
        | none => (giveAll [] values).map fun body => inner.put key (.table false false body)
        | some (.table true false body) =>
          (giveAll body values).map fun body => inner.put key (.table false false body)
        | _ => none)
      path.dropLast false entries

/-- One more table of an array of tables. -/
def openElement (entries : Entries) (path : List String)
    (values : List (List String × ConfigNode)) : Option Entries :=
  match path.getLast? with
  | none => none
  | some key =>
    changeAt false
      (fun _ inner =>
        match inner.lookup key with
        | none => (giveAll [] values).map fun body => inner.put key (.tables [body])
        | some (.tables elements) =>
          (giveAll [] values).map fun body => inner.put key (.tables (elements ++ [body]))
        | _ => none)
      path.dropLast false entries

end Entries

/-! ## As a tree of settings -/

mutual

/-- A tree without the traces of how it was written. -/
def Tree.toNode : Tree → ConfigNode
  | .value node => node
  | .table _ _ entries => .table (entriesToNodes entries)
  | .tables elements => .array (elementsToNodes elements)

/-- The entries of a table without the traces of how they were written. -/
def entriesToNodes : List (String × Tree) → List (String × ConfigNode)
  | [] => []
  | (key, tree) :: rest => (key, tree.toNode) :: entriesToNodes rest

/-- The elements of an array of tables. -/
def elementsToNodes : List (List (String × Tree)) → List ConfigNode
  | [] => []
  | entries :: rest => .table (entriesToNodes entries) :: elementsToNodes rest

end

end Clearing.Toml
