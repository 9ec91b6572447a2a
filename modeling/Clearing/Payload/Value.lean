import Clearing.Json
import Clearing.Number.Shortest

/-!
# Payload values

A payload is an ordered map from names to values.  Its numbers are of two
kinds, integers of 64 bits (signed or unsigned) and finite floating-point
numbers, and the two never mix: `1` and `1.0` are different values.

A name occurs once in a map.  Giving a value to a name that is there already
replaces the value in place, so the map keeps the order in which its names first
came; `Value.WellFormed` says that this holds at every level.
-/

namespace Clearing

/-- An integer that fits 64 bits, signed or unsigned. -/
structure WideInt where
  val : Int
  lower : -9223372036854775808 ≤ val
  upper : val < 18446744073709551616
  deriving DecidableEq

namespace WideInt

/-- An integer, if it fits. -/
def ofInt? (n : Int) : Option WideInt :=
  if h : -9223372036854775808 ≤ n ∧ n < 18446744073709551616 then some ⟨n, h.1, h.2⟩ else none

/-- The integer fits the signed form. -/
def isSigned (n : WideInt) : Bool :=
  n.val < 9223372036854775808

theorem ofInt?_val (n : WideInt) : ofInt? n.val = some n :=
  dif_pos ⟨n.lower, n.upper⟩

end WideInt

/-- A floating-point number that is neither infinite nor NaN. -/
structure FiniteFloat where
  number : Binary64
  finite : number.isFinite = true
  deriving DecidableEq

namespace FiniteFloat

/-- A floating-point number, if it is finite. -/
def ofBinary64? (x : Binary64) : Option FiniteFloat :=
  if h : x.isFinite = true then some ⟨x, h⟩ else none

theorem ofBinary64?_number (x : FiniteFloat) : ofBinary64? x.number = some x :=
  dif_pos x.finite

end FiniteFloat

/-- A value inside a payload. -/
inductive Value where
  | null
  | bool (value : Bool)
  | int (value : WideInt)
  | float (value : FiniteFloat)
  | string (value : String)
  | array (items : List Value)
  | object (members : List (String × Value))

/-- A payload: named values in order. -/
abbrev Payload := List (String × Value)

namespace Payload

/-- The value of a name. -/
def get? {α : Type} (members : List (String × α)) (name : String) : Option α :=
  members.lookup name

/-- Gives a value to a name, in place if the name is there and at the end if not. -/
def insert {α : Type} (members : List (String × α)) (name : String) (value : α) :
    List (String × α) :=
  match members with
  | [] => [(name, value)]
  | (other, old) :: rest =>
    if other = name then (name, value) :: rest else (other, old) :: insert rest name value

/-- All members in order; of a repeated name the last value at the first place. -/
def ofMembers {α : Type} (members : List (String × α)) : List (String × α) :=
  members.foldl (fun map member => insert map member.1 member.2) []

/-- The names in order. -/
def names {α : Type} (members : List (String × α)) : List String :=
  members.map (·.1)

theorem insert_of_not_mem {α : Type} {members : List (String × α)} {name : String} {value : α}
    (h : name ∉ names members) : insert members name value = members ++ [(name, value)] := by
  induction members with
  | nil => rfl
  | cons member rest ih =>
    simp only [names, List.map_cons, List.mem_cons, not_or] at h
    rw [insert, if_neg (Ne.symm h.1), ih h.2, List.cons_append]

theorem names_insert {α : Type} (members : List (String × α)) (name : String) (value : α) :
    names (insert members name value) =
      if name ∈ names members then names members else names members ++ [name] := by
  induction members with
  | nil => simp [names, insert]
  | cons member rest ih =>
    rw [insert]
    by_cases h : member.1 = name
    · simp [names, h]
    · simp only [names] at ih
      simp only [names, h, if_false, List.map_cons, List.mem_cons, Ne.symm h, false_or, ih]
      by_cases hmem : name ∈ rest.map (·.1) <;> simp [hmem]

/-- Insertion keeps names distinct. -/
theorem nodup_names_insert {α : Type} {members : List (String × α)} (name : String) (value : α)
    (h : (names members).Nodup) : (names (insert members name value)).Nodup := by
  rw [names_insert]
  split
  · exact h
  · rename_i hnew
    rw [List.nodup_append]
    refine ⟨h, by simp, ?_⟩
    intro a ha b hb
    rw [List.mem_singleton] at hb
    subst hb
    exact fun hab => hnew (hab ▸ ha)

private theorem nodup_names_foldl {α : Type} (members start : List (String × α))
    (h : (names start).Nodup) :
    (names (members.foldl (fun map member => insert map member.1 member.2) start)).Nodup := by
  induction members generalizing start with
  | nil => exact h
  | cons member rest ih => exact ih _ (nodup_names_insert _ _ h)

/-- However names repeat, the map has each of them once. -/
theorem nodup_names_ofMembers {α : Type} (members : List (String × α)) :
    (names (ofMembers members)).Nodup :=
  nodup_names_foldl members [] List.nodup_nil

private theorem foldl_insert_of_nodup {α : Type} (members start : List (String × α))
    (h : (names (start ++ members)).Nodup) :
    members.foldl (fun map member => insert map member.1 member.2) start = start ++ members := by
  induction members generalizing start with
  | nil => simp
  | cons member rest ih =>
    have hnew : member.1 ∉ names start := by
      intro hold
      rw [names, List.map_append, List.nodup_append] at h
      exact h.2.2 member.1 hold member.1 (by simp) rfl
    rw [List.foldl_cons, insert_of_not_mem hnew, ih]
    · simp
    · simpa using h

/-- Members with distinct names are their own map. -/
theorem ofMembers_of_nodup {α : Type} {members : List (String × α)} (h : (names members).Nodup) :
    ofMembers members = members := by
  simpa [ofMembers] using foldl_insert_of_nodup members [] (by simpa using h)

end Payload

namespace Value

mutual

/-- Every map inside the value has distinct names. -/
def WellFormed : Value → Prop
  | .array items => WellFormedItems items
  | .object members => (Payload.names members).Nodup ∧ WellFormedMembers members
  | _ => True

/-- Every item is well formed. -/
def WellFormedItems : List Value → Prop
  | [] => True
  | item :: rest => item.WellFormed ∧ WellFormedItems rest

/-- Every member's value is well formed. -/
def WellFormedMembers : List (String × Value) → Prop
  | [] => True
  | (_, value) :: rest => value.WellFormed ∧ WellFormedMembers rest

end

mutual

/-- Equal up to the order of names; the two floating-point zeros are equal. -/
def same : Value → Value → Bool
  | .null, .null => true
  | .bool a, .bool b => a == b
  | .int a, .int b => a.val == b.val
  | .float a, .float b => a.number.same b.number
  | .string a, .string b => a == b
  | .array a, .array b => sameItems a b
  | .object a, .object b => a.length == b.length && sameMembers a b
  | _, _ => false

/-- Equal item by item. -/
def sameItems : List Value → List Value → Bool
  | [], [] => true
  | a :: rest, b :: others => a.same b && sameItems rest others
  | _, _ => false

/-- Every member on the left has an equal one of the same name on the right. -/
def sameMembers : List (String × Value) → List (String × Value) → Bool
  | [], _ => true
  | (name, value) :: rest, others =>
    (match Payload.get? others name with
      | some other => value.same other
      | none => false) && sameMembers rest others

end

/-! ## Reading numbers -/

/-- The value of a numeral: an integer if it is written as one and fits 64 bits, and otherwise the
nearest floating-point number, if that is finite.  Minus zero is no integer. -/
def ofNumeral? (numeral : Numeral) : Option Value :=
  let asFloat := (FiniteFloat.ofBinary64? (Binary64.ofNumeral numeral)).map Value.float
  if numeral.plain ∧ ¬(numeral.negative ∧ numeral.coefficient = 0) then
    match WideInt.ofInt? numeral.toInt with
    | some n => some (.int n)
    | none => asFloat
  else asFloat

/-! ## Reading JSON -/

mutual

/-- The value of a JSON tree with at most `depth` nested containers; repeated names take their last
value. -/
def ofJson? (depth : Nat) : Json → Option Value
  | .null => some .null
  | .bool value => some (.bool value)
  | .number numeral => ofNumeral? numeral
  | .string content => content.map .string
  | .array items =>
    if depth = 0 then none else (ofItems? (depth - 1) items).map .array
  | .object members =>
    if depth = 0 then none
    else (ofMembers? (depth - 1) members).map fun members => .object (Payload.ofMembers members)

/-- The values of the items of an array. -/
def ofItems? (depth : Nat) : List Json → Option (List Value)
  | [] => some []
  | item :: rest => do
    let value ← ofJson? depth item
    let values ← ofItems? depth rest
    pure (value :: values)

/-- The named values of the members of an object, repeated names included. -/
def ofMembers? (depth : Nat) : List (Option String × Json) → Option (List (String × Value))
  | [] => some []
  | (name, item) :: rest => do
    let name ← name
    let value ← ofJson? depth item
    let values ← ofMembers? depth rest
    pure ((name, value) :: values)

end

/-- The deepest nesting of containers in a text payload. -/
def maxDepth : Nat := 127

end Value

/-- The payload that a JSON text holds at its top level. -/
def Payload.ofJsonBytes? (bytes : Bytes) : Option Payload := do
  let json ← Json.ofBytes? bytes
  match ← Value.ofJson? Value.maxDepth json with
  | .object members => pure members
  | _ => none

end Clearing
