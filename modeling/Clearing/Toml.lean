import Clearing.Settings.Reading
import Clearing.Toml.Scalar
import Clearing.Toml.Tree

/-!
# TOML documents

A document is a sequence of lines.  The lines before the first header give
values of the top table; every header starts a section, whose lines give values
of the table of the header.  `ofText?` reads a document as a tree of settings.
-/

namespace Clearing.Toml

/-! ## Values -/

/-- The items of an array after its bracket, up to and with the closing one. -/
def items? (value : List Char → Option (ConfigNode × List Char)) :
    Nat → List Char → Option (List ConfigNode × List Char)
  | 0, _ => none
  | fuel + 1, chars =>
    match skipSpace chars with
    | ']' :: rest => some ([], rest)
    | chars => do
      let (item, rest) ← value chars
      match skipSpace rest with
      | ',' :: rest => do
        let (items, rest) ← items? value fuel rest
        pure (item :: items, rest)
      | ']' :: rest => pure ([item], rest)
      | _ => none

/-- A key and its value. -/
def pair? (value : List Char → Option (ConfigNode × List Char)) (chars : List Char) :
    Option ((List String × ConfigNode) × List Char) := do
  let (path, rest) ← key? chars
  match rest with
  | '=' :: rest => do
    let (node, rest) ← value (skipBlanks rest)
    pure ((path, node), skipBlanks rest)
  | _ => none

/-- The pairs of a table in one line after its first pair. -/
def morePairs? (value : List Char → Option (ConfigNode × List Char)) :
    Nat → List Char → Option (List (List String × ConfigNode) × List Char)
  | 0, _ => none
  | fuel + 1, chars =>
    match chars with
    | '}' :: rest => some ([], rest)
    | ',' :: rest => do
      let (pair, rest) ← pair? value rest
      let (pairs, rest) ← morePairs? value fuel rest
      pure (pair :: pairs, rest)
    | _ => none

/-- The pairs of a table in one line after its brace, up to and with the closing one. -/
def pairs? (value : List Char → Option (ConfigNode × List Char)) (chars : List Char) :
    Option (List (List String × ConfigNode) × List Char) :=
  match skipBlanks chars with
  | '}' :: rest => some ([], rest)
  | chars => do
    let (pair, rest) ← pair? value chars
    let (pairs, rest) ← morePairs? value (rest.length + 1) rest
    pure (pair :: pairs, rest)

/-- A value with at most `depth` nested containers. -/
def value? : Nat → List Char → Option (ConfigNode × List Char)
  | depth, chars =>
    match depth, chars with
    | 0, '[' :: _ => none
    | 0, '{' :: _ => none
    | depth + 1, '[' :: rest =>
      (items? (value? depth) (rest.length + 1) rest).map fun (items, rest) => (.array items, rest)
    | depth + 1, '{' :: rest => do
      let (pairs, rest) ← pairs? (value? depth) rest
      let entries ← Entries.giveAll [] pairs
      pure (.table (entriesToNodes entries), rest)
    | _, chars => scalar? chars

/-! ## Documents -/

/-- The lines up to the next header: the values they give, and what follows. -/
def body? : Nat → List Char → Option (List (List String × ConfigNode) × List Char)
  | 0, _ => none
  | fuel + 1, chars =>
    match skipSpace chars with
    | [] => some ([], [])
    | '[' :: rest => some ([], '[' :: rest)
    | chars => do
      let (pair, rest) ← pair? (value? maxDepth) chars
      let (pairs, rest) ← body? fuel (← endOfLine? rest)
      pure (pair :: pairs, rest)

/-- A header: whether it is one of an array of tables, its key, and the lines after it. -/
def header? (chars : List Char) : Option (Bool × List String × List Char) :=
  match chars with
  | '[' :: '[' :: rest => do
    let (path, rest) ← key? rest
    match rest with
    | ']' :: ']' :: rest => pure (true, path, ← endOfLine? rest)
    | _ => none
  | '[' :: rest => do
    let (path, rest) ← key? rest
    match rest with
    | ']' :: rest => pure (false, path, ← endOfLine? rest)
    | _ => none
  | _ => none

/-- The sections of a document, added to what came before them. -/
def sections? : Nat → Entries → List Char → Option Entries
  | 0, _, _ => none
  | fuel + 1, entries, chars =>
    if chars.isEmpty then some entries
    else do
      let (isElement, path, rest) ← header? chars
      let (values, rest) ← body? (rest.length + 1) rest
      let entries ←
        if isElement then entries.openElement path values else entries.openTable path values
      sections? fuel entries rest

/-- The tree of a document; a byte order mark may stand at its front. -/
def ofText? (text : String) : Option ConfigNode := do
  let chars := match text.toList with
    | '\uFEFF' :: rest => rest
    | chars => chars
  let (values, rest) ← body? (chars.length + 1) chars
  let entries ← sections? (rest.length + 1) (← Entries.giveAll [] values) rest
  pure (.table (entriesToNodes entries))

end Clearing.Toml

namespace Clearing

/-- Checked settings from a TOML document. -/
def Settings.ofToml (text : String) : Except SettingsError Settings :=
  match Toml.ofText? text with
  | some node => ofNode .toml node
  | none => .error .unreadable

end Clearing
