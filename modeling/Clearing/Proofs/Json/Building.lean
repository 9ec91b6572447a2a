import Clearing.Proofs.Json.Reading

/-!
# A tree is built from its tokens

The builder keeps the open containers on a stack and never looks below the innermost one.
So the tokens of a tree make it expect what comes after the tree, whatever containers are
open around it (`run_tokens`).  Inside a container the same holds for the values that are
still to come, behind those that are there already.
-/

namespace Clearing.Json

mutual

/-- The tokens of a tree. -/
def tokens : Json → List Token
  | .null => [.null]
  | .bool value => [.bool value]
  | .number numeral => [.number numeral]
  | .string content => [.string content]
  | .array items => .openBracket :: itemTokens items
  | .object members => .openBrace :: memberTokens members

/-- The tokens of the items of an array, commas between them and the bracket behind them. -/
def itemTokens : List Json → List Token
  | [] => [.closeBracket]
  | [item] => item.tokens ++ [.closeBracket]
  | item :: next :: rest => item.tokens ++ .comma :: itemTokens (next :: rest)

/-- The tokens of the members of an object, commas between them and the brace behind them. -/
def memberTokens : List (Option String × Json) → List Token
  | [] => [.closeBrace]
  | [(name, value)] => .string name :: .colon :: (value.tokens ++ [.closeBrace])
  | (name, value) :: next :: rest =>
    .string name :: .colon :: (value.tokens ++ .comma :: memberTokens (next :: rest))

end

theorem itemTokens_cons (item : Json) {items : List Json} (hitems : items ≠ []) :
    itemTokens (item :: items) = item.tokens ++ [.comma] ++ itemTokens items := by
  obtain ⟨next, rest, rfl⟩ := List.exists_cons_of_ne_nil hitems
  rw [itemTokens, List.append_assoc]
  rfl

theorem memberTokens_cons (name : Option String) (value : Json)
    {members : List (Option String × Json)} (hmembers : members ≠ []) :
    memberTokens ((name, value) :: members) =
      [.string name] ++ ([.colon] ++ (value.tokens ++ [.comma] ++ memberTokens members)) := by
  obtain ⟨next, rest, rfl⟩ := List.exists_cons_of_ne_nil hmembers
  rw [memberTokens, List.append_assoc]
  rfl

namespace Builder

theorem run_cons {builder next : Builder} {token : Token} (hstep : builder.step token = some next)
    (rest : List Token) : builder.run (token :: rest) = next.run rest := by
  rw [run, hstep, Option.bind_some]

theorem run_append_of_some {builder next : Builder} {first : List Token}
    (hfirst : builder.run first = some next) (second : List Token) :
    builder.run (first ++ second) = next.run second := by
  rw [run_append, hfirst, Option.bind_some]

/-- The name of a member and the colon behind it. -/
theorem run_name (reversed : List (Option String × Json)) (closing : Bool) (frames : List Frame)
    (name : Option String) (rest : List Token) :
    run ⟨.name reversed closing, frames⟩ (.string name :: .colon :: rest) =
      run ⟨.value false, .object reversed name :: frames⟩ rest := by
  have hname : step ⟨.name reversed closing, frames⟩ (.string name) =
      some ⟨.colon reversed name, frames⟩ := by
    cases closing <;> rfl
  have hcolon : step ⟨.colon reversed name, frames⟩ .colon =
      some ⟨.value false, .object reversed name :: frames⟩ := rfl
  rw [run_cons hname, run_cons hcolon]

mutual

/-- **A tree is built from its tokens**, inside whatever containers are open. -/
theorem run_tokens (json : Json) (closing : Bool) (frames : List Frame) :
    run ⟨.value closing, frames⟩ json.tokens = some ⟨.after json, frames⟩ := by
  cases json with
  | null => cases closing <;> rfl
  | bool value => cases closing <;> rfl
  | number numeral => cases closing <;> rfl
  | string content => cases closing <;> rfl
  | array items =>
      have hopen : step ⟨.value closing, frames⟩ .openBracket =
          some ⟨.value true, .array [] :: frames⟩ := by
        cases closing <;> rfl
      rw [tokens, run_cons hopen]
      exact run_itemTokens items true [] frames fun _ => rfl
  | object members =>
      have hopen : step ⟨.value closing, frames⟩ .openBrace = some ⟨.name [] true, frames⟩ := by
        cases closing <;> rfl
      rw [tokens, run_cons hopen]
      exact run_memberTokens members true [] frames fun _ => rfl

/-- Behind a comma an array does not end. -/
theorem run_itemTokens (items : List Json) (closing : Bool) (reversed : List Json)
    (frames : List Frame) (hclosing : items = [] → closing = true) :
    run ⟨.value closing, .array reversed :: frames⟩ (itemTokens items) =
      some ⟨.after (.array (reversed.reverse ++ items)), frames⟩ := by
  match items with
  | [] =>
      rw [hclosing rfl, itemTokens, List.append_nil]
      rfl
  | [item] =>
      rw [itemTokens, run_append_of_some (run_tokens item closing _), ← List.reverse_cons]
      rfl
  | item :: next :: rest =>
      have hcomma : step ⟨.after item, .array reversed :: frames⟩ .comma =
          some ⟨.value false, .array (item :: reversed) :: frames⟩ := rfl
      rw [itemTokens, run_append_of_some (run_tokens item closing _), run_cons hcomma,
        run_itemTokens (next :: rest) false _ frames nofun, List.reverse_cons, List.append_assoc]
      rfl

/-- Behind a comma an object does not end. -/
theorem run_memberTokens (members : List (Option String × Json)) (closing : Bool)
    (reversed : List (Option String × Json)) (frames : List Frame)
    (hclosing : members = [] → closing = true) :
    run ⟨.name reversed closing, frames⟩ (memberTokens members) =
      some ⟨.after (.object (reversed.reverse ++ members)), frames⟩ := by
  match members with
  | [] =>
      rw [hclosing rfl, memberTokens, List.append_nil]
      rfl
  | [(name, value)] =>
      rw [memberTokens, run_name, run_append_of_some (run_tokens value false _),
        ← List.reverse_cons]
      rfl
  | (name, value) :: next :: rest =>
      have hcomma : step ⟨.after value, .object reversed name :: frames⟩ .comma =
          some ⟨.name ((name, value) :: reversed) false, frames⟩ := rfl
      rw [memberTokens, run_name, run_append_of_some (run_tokens value false _), run_cons hcomma,
        run_memberTokens (next :: rest) false _ frames nofun, List.reverse_cons,
        List.append_assoc]
      rfl

end

end Builder

/-- **A text that is read as the tokens of a tree is read as the tree.** -/
theorem ofBytes?_of_reads {bytes : Bytes} {json : Json} (hreads : Reads bytes json.tokens) :
    ofBytes? bytes = some json := by
  rw [ofBytes?, hreads.tokens?]
  show (Builder.initial.run json.tokens).bind _ = _
  rw [Builder.initial, Builder.run_tokens]
  rfl

end Clearing.Json
