import Clearing.Number.Power
import Clearing.Payload.Value
import Clearing.Settings

/-!
# Trees of settings

Settings are read from a tree of tables, whatever it was written in.  A table
gives fields by name and must not give any other; an array gives the fields in
their order.

Two things depend on what the tree was written in: whether an array may have
more items than there are fields, and what stands under the name of a variant
that is written as a table with this name alone.
-/

namespace Clearing

/-- A tree that settings are read from. -/
inductive ConfigNode where
  | null
  | bool (value : Bool)
  | int (value : Int)
  | float (value : Binary64)
  | string (value : String)
  | time
  | array (items : List ConfigNode)
  | table (entries : List (String × ConfigNode))

/-- How a tree is read, depending on what it was written in. -/
structure ConfigDialect where
  /-- The items of an array beyond the fields are ignored. -/
  ignoresSurplus : Bool
  /-- What may stand under the name of a variant. -/
  isBare : ConfigNode → Bool

namespace ConfigDialect

/-- Trees that were written in JSON: there is a null, and nothing is ignored. -/
def json : ConfigDialect where
  ignoresSurplus := false
  isBare
    | .null => true
    | _ => false

/-- Trees that were written in TOML: there is no null, and a container without content takes its
place. -/
def toml : ConfigDialect where
  ignoresSurplus := true
  isBare
    | .array items => items.isEmpty
    | .table entries => entries.isEmpty
    | _ => false

end ConfigDialect

namespace ConfigNode

/-- The fields of a table or an array in the order of their names. -/
def fields? (dialect : ConfigDialect) (names : List String) :
    ConfigNode → Option (List (Option ConfigNode))
  | .table entries =>
    if entries.all fun entry => names.contains entry.1 then
      some (names.map fun name => entries.lookup name)
    else none
  | .array items =>
    if items.length ≤ names.length ∨ dialect.ignoresSurplus then
      some ((List.range names.length).map fun position => items[position]?)
    else none
  | _ => none

/-- A field that may be left out. -/
def orDefault? {α : Type} (read : ConfigNode → Option α) (default : α) :
    Option ConfigNode → Option α
  | none => some default
  | some node => read node

/-- A natural number below a bound. -/
def natBelow? (bound : Nat) : ConfigNode → Option Nat
  | .int n => if 0 ≤ n ∧ n < bound then some n.toNat else none
  | _ => none

/-- A natural number of 64 bits. -/
def count? : ConfigNode → Option Nat := natBelow? (twoTo 64)

/-- A natural number of 32 bits. -/
def smallCount? : ConfigNode → Option Nat := natBelow? (twoTo 32)

/-- A floating-point number, or the one nearest to an integer. -/
def number? : ConfigNode → Option Binary64
  | .float x => some x
  | .int n => some (Binary64.ofInt n)
  | _ => none

/-- A log format: its name, or a table with its name alone. -/
def logFormat? (dialect : ConfigDialect) : ConfigNode → Option LogFormat
  | .string name => LogFormat.ofName? name
  | .table [(name, node)] => if dialect.isBare node then LogFormat.ofName? name else none
  | _ => none

mutual

/-- The tree of a JSON value. -/
def ofValue : Value → ConfigNode
  | .null => .null
  | .bool value => .bool value
  | .int n => .int n.val
  | .float x => .float x.number
  | .string text => .string text
  | .array items => .array (ofItems items)
  | .object members => .table (ofMembers members)

/-- The trees of the items of an array. -/
def ofItems : List Value → List ConfigNode
  | [] => []
  | item :: rest => ofValue item :: ofItems rest

/-- The named trees of the members of an object. -/
def ofMembers : List (String × Value) → List (String × ConfigNode)
  | [] => []
  | (name, value) :: rest => (name, ofValue value) :: ofMembers rest

end

end ConfigNode

end Clearing
