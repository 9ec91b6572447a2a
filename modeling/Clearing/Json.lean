import Clearing.Json.Token

/-!
# JSON texts as trees

A `Json` is a text as it was written: numbers keep their numeral, objects keep
every member in order, repeated names included, and a string that stands for no
text stays in place.  What a reader makes of it is decided later, so that a part
nobody asks for can be ignored whatever it holds.

The tree is built from tokens with an explicit stack of open containers.  Each
token is consumed once, so no bound on the nesting is needed.
-/

namespace Clearing

/-- A JSON text as it was written. -/
inductive Json where
  | null
  | bool (value : Bool)
  | number (numeral : Numeral)
  | string (content : Option String)
  | array (items : List Json)
  | object (members : List (Option String × Json))
  deriving Repr

namespace Json

/-- A container that is still open, with what it holds so far, the last first. -/
inductive Frame where
  | array (reversed : List Json)
  | object (reversed : List (Option String × Json)) (name : Option String)
  deriving Repr

/-- What may come next. -/
inductive Expect where
  /-- A value; `closing` says that the array just opened may end instead. -/
  | value (closing : Bool)
  /-- A member's name in an object with these members; `closing` says that it may end instead. -/
  | name (reversed : List (Option String × Json)) (closing : Bool)
  /-- The colon after a name. -/
  | colon (reversed : List (Option String × Json)) (name : Option String)
  /-- A comma or the end of the innermost container, after this value. -/
  | after (value : Json)
  deriving Repr

/-- The state of the builder: what may come next inside which open containers. -/
structure Builder where
  expect : Expect
  frames : List Frame
  deriving Repr

namespace Builder

/-- Nothing was read yet. -/
def initial : Builder :=
  ⟨.value false, []⟩

/-- One token. -/
def step (builder : Builder) (token : Token) : Option Builder :=
  match builder.expect, token with
  | .value _, .null => some ⟨.after .null, builder.frames⟩
  | .value _, .bool value => some ⟨.after (.bool value), builder.frames⟩
  | .value _, .number numeral => some ⟨.after (.number numeral), builder.frames⟩
  | .value _, .string content => some ⟨.after (.string content), builder.frames⟩
  | .value _, .openBracket => some ⟨.value true, .array [] :: builder.frames⟩
  | .value _, .openBrace => some ⟨.name [] true, builder.frames⟩
  | .value true, .closeBracket =>
    match builder.frames with
    | .array reversed :: outer => some ⟨.after (.array reversed.reverse), outer⟩
    | _ => none
  | .name reversed _, .string content => some ⟨.colon reversed content, builder.frames⟩
  | .name reversed true, .closeBrace =>
    some ⟨.after (.object reversed.reverse), builder.frames⟩
  | .colon reversed name, .colon => some ⟨.value false, .object reversed name :: builder.frames⟩
  | .after value, .comma =>
    match builder.frames with
    | .array reversed :: outer => some ⟨.value false, .array (value :: reversed) :: outer⟩
    | .object reversed name :: outer => some ⟨.name ((name, value) :: reversed) false, outer⟩
    | [] => none
  | .after value, .closeBracket =>
    match builder.frames with
    | .array reversed :: outer => some ⟨.after (.array (value :: reversed).reverse), outer⟩
    | _ => none
  | .after value, .closeBrace =>
    match builder.frames with
    | .object reversed name :: outer =>
      some ⟨.after (.object ((name, value) :: reversed).reverse), outer⟩
    | _ => none
  | _, _ => none

/-- All tokens of a list, one after the other. -/
def run (builder : Builder) : List Token → Option Builder
  | [] => some builder
  | token :: rest => (builder.step token).bind fun next => next.run rest

/-- The tree, once the outermost value is complete. -/
def result? (builder : Builder) : Option Json :=
  match builder.expect, builder.frames with
  | .after value, [] => some value
  | _, _ => none

theorem run_append (builder : Builder) (first second : List Token) :
    builder.run (first ++ second) = (builder.run first).bind (·.run second) := by
  induction first generalizing builder with
  | nil => rfl
  | cons token rest ih =>
    simp only [List.cons_append, run]
    cases builder.step token with
    | none => rfl
    | some next => exact ih next

end Builder

/-- The tree of a JSON text. -/
def ofBytes? (bytes : Bytes) : Option Json := do
  let tokens ← tokens? bytes
  let builder ← Builder.initial.run tokens
  builder.result?

/-! ## Reading members -/

/-- The members of an object in order, if every name is a text. -/
def members? : Json → Option (List (String × Json))
  | .object members => members.mapM fun (name, value) => name.map (·, value)
  | _ => none

end Json

end Clearing
