import Clearing.Number.DecimalReader
import Clearing.Payload.Value

/-!
# Customers and products

Reference data is consulted by the rules and never changed by the pipeline.  A
product can be bought while its status is `ACTIVE`, in exactly this spelling.

Reference data is read from JSON: an object with named fields, where fields that
are not known are ignored, or an array of the fields in a fixed order.  A field
that occurs twice is refused, unless the tree was settled before.
-/

namespace Clearing

/-- Someone who buys. -/
structure Customer where
  id : Int
  firstName : String
  lastName : String
  age : Option Int
  email : Option String
  location : Option String
  deriving DecidableEq, Repr

/-- Something to buy. -/
structure Product where
  code : String
  cost : Decimal
  status : String
  deriving DecidableEq

namespace Product

/-- The status of a product that can be bought. -/
def activeStatus : String := "ACTIVE"

/-- The product can be bought. -/
def isActive (product : Product) : Bool :=
  product.status = activeStatus

end Product

/-! ## Reading -/

namespace Json

/-- The tree with the last value of every repeated name, if every part of it can be used: strings
are texts, numbers are finite, and containers nest no deeper than in a payload. -/
def settled? (json : Json) : Option Json := do
  let _ ← Value.ofJson? Value.maxDepth json
  match json.members? with
  | some members =>
    pure (.object ((Payload.ofMembers members).map fun (name, value) => (name, value)))
  | none => pure json

/-- Puts values into the slots of their names; a slot is filled once and names without a slot are
ignored. -/
def fillSlots (slots : List (String × Option Json)) :
    List (Option String × Json) → Option (List (String × Option Json))
  | [] => some slots
  | (none, _) :: _ => none
  | (some name, value) :: rest =>
    match slots.lookup name with
    | none => fillSlots slots rest
    | some (some _) => none
    | some none =>
      fillSlots (slots.map fun slot => if slot.1 = name then (name, some value) else slot) rest

/-- The values of named fields, from an object by name or from an array by position. -/
def fields? (names : List String) : Json → Option (List (Option Json))
  | .object members =>
    (fillSlots (names.map fun name => (name, none)) members).map fun slots => slots.map (·.2)
  | .array items =>
    if items.length ≤ names.length then
      some (items.map some ++ List.replicate (names.length - items.length) none)
    else none
  | _ => none

/-- An integer between two bounds. -/
def intWithin? (least greatest : Int) : Json → Option Int
  | .number numeral =>
    match Value.ofNumeral? numeral with
    | some (.int n) => if least ≤ n.val ∧ n.val ≤ greatest then some n.val else none
    | _ => none
  | _ => none

/-- An integer of 32 bits. -/
def int32? : Json → Option Int :=
  intWithin? (-2147483648) 2147483647

/-- A text. -/
def text? : Json → Option String
  | .string content => content
  | _ => none

/-- A field that may be null or absent. -/
def optional? {α : Type} (read : Json → Option α) : Option Json → Option (Option α)
  | none => some none
  | some .null => some none
  | some json => (read json).map some

/-- An amount: a text that writes one, an integer, or the shortest text of a floating-point
number. -/
def amount? : Json → Option Decimal
  | .string (some text) => Decimal.ofText? text
  | .number numeral =>
    match Value.ofNumeral? numeral with
    | some (.int n) => Decimal.ofParts? (n.val < 0) n.val.natAbs 0
    | some (.float x) => Decimal.ofBinary64? x.number
    | _ => none
  | _ => none

end Json

namespace Customer

/-- The fields in order. -/
def fieldNames : List String :=
  ["customerId", "firstName", "lastName", "age", "email", "location"]

/-- The customer that a JSON tree describes. -/
def ofJson? (json : Json) : Option Customer := do
  match ← json.fields? fieldNames with
  | [some id, some firstName, some lastName, age, email, location] =>
    pure
      { id := ← id.int32?
        firstName := ← firstName.text?
        lastName := ← lastName.text?
        age := ← Json.optional? Json.int32? age
        email := ← Json.optional? Json.text? email
        location := ← Json.optional? Json.text? location }
  | _ => none

end Customer

namespace Product

/-- The fields in order. -/
def fieldNames : List String := ["productCode", "cost", "status"]

/-- The product that a JSON tree describes. -/
def ofJson? (json : Json) : Option Product := do
  match ← json.fields? fieldNames with
  | [some code, some cost, some status] =>
    pure { code := ← code.text?, cost := ← cost.amount?, status := ← status.text? }
  | _ => none

end Product

end Clearing
