import Clearing.Text.Hex

/-!
# Blanks, comments, strings and keys of TOML

A reader takes the characters in front of it and returns what it read with the
characters that follow.  Lines end with a line feed, with or without a carriage
return before it.
-/

namespace Clearing.Toml

/-- A blank inside a line. -/
def isBlank (c : Char) : Bool :=
  c = ' ' || c = '\t'

/-- A character that may stand in a comment or, quotes apart, in a string. -/
def isText (c : Char) : Bool :=
  c = '\t' || (32 ≤ c.toNat && c.toNat ≠ 127)

/-- Without the blanks at the front. -/
def skipBlanks (chars : List Char) : List Char :=
  chars.dropWhile isBlank

/-- The end of a line. -/
def newline? : List Char → Option (List Char)
  | '\n' :: rest => some rest
  | '\r' :: '\n' :: rest => some rest
  | _ => none

/-- An optional comment, up to the end of its line. -/
def skipComment : List Char → List Char
  | '#' :: rest => rest.dropWhile isText
  | chars => chars

/-- The rest of a line on which nothing but a comment follows, and the end of the line. -/
def endOfLine? (chars : List Char) : Option (List Char) :=
  match skipComment (skipBlanks chars) with
  | [] => some []
  | rest => newline? rest

/-- Without blanks, comments and empty lines at the front; `fuel` bounds the number of lines. -/
def skipLines : Nat → List Char → List Char
  | 0, chars => chars
  | fuel + 1, chars =>
    let rest := skipComment (skipBlanks chars)
    match newline? rest with
    | some next => skipLines fuel next
    | none => rest

/-- Without blanks, comments and empty lines at the front. -/
def skipSpace (chars : List Char) : List Char :=
  skipLines chars.length chars

/-! ## Strings -/

/-- The number that exactly `count` hexadecimal digits stand for. -/
def hexNumber? (count : Nat) (chars : List Char) : Option (Nat × List Char) := do
  let digits := chars.take count
  if digits.length = count then
    let values ← digits.mapM Text.hexValue?
    pure (values.foldl (fun number value => 16 * number + value) 0, chars.drop count)
  else none

/-- The character that was named by its number. -/
def named? (number : Nat × List Char) : Option (Char × List Char) :=
  if number.1.isValidChar then some (Char.ofNat number.1, number.2) else none

/-- The character that follows a backslash. -/
def escape? : List Char → Option (Char × List Char)
  | 'b' :: rest => some ('\x08', rest)
  | 't' :: rest => some ('\t', rest)
  | 'n' :: rest => some ('\n', rest)
  | 'f' :: rest => some ('\x0c', rest)
  | 'r' :: rest => some ('\r', rest)
  | '"' :: rest => some ('"', rest)
  | '\\' :: rest => some ('\\', rest)
  | 'u' :: rest => (hexNumber? 4 rest).bind named?
  | 'U' :: rest => (hexNumber? 8 rest).bind named?
  | _ => none

/-- The rest of a string in one line, with escapes if `escapes`. -/
def line? (quote : Char) (escapes : Bool) : Nat → List Char → Option (List Char × List Char)
  | 0, _ => none
  | fuel + 1, chars =>
    match chars with
    | [] => none
    | c :: rest =>
      if c = quote then some ([], rest)
      else if escapes ∧ c = '\\' then do
        let (escaped, rest) ← escape? rest
        let (text, rest) ← line? quote escapes fuel rest
        pure (escaped :: text, rest)
      else if isText c then do
        let (text, rest) ← line? quote escapes fuel rest
        pure (c :: text, rest)
      else none

/-- Without blanks and empty lines at the front; `fuel` bounds the number of lines. -/
def skipEmptyLines : Nat → List Char → List Char
  | 0, chars => chars
  | fuel + 1, chars =>
    let rest := skipBlanks chars
    match newline? rest with
    | some next => skipEmptyLines fuel next
    | none => rest

/-- A line break that a backslash removes, together with all blanks and line breaks after it. -/
def brokenLine? (chars : List Char) : Option (List Char) :=
  (newline? (skipBlanks chars)).map fun rest => skipEmptyLines rest.length rest

/-- The rest of a string of several lines, with escapes if `escapes`.  Up to two quotes may stand
before the three that end it. -/
def lines? (quote : Char) (escapes : Bool) : Nat → List Char → Option (List Char × List Char)
  | 0, _ => none
  | fuel + 1, chars =>
    let after (text : List Char) (rest : List Char) : Option (List Char × List Char) :=
      (lines? quote escapes fuel rest).map fun (more, rest) => (text ++ more, rest)
    match chars with
    | [] => none
    | c :: rest =>
      if c = quote then
        let quotes := min 5 (chars.takeWhile (· = quote)).length
        if 3 ≤ quotes then some (List.replicate (quotes - 3) quote, chars.drop quotes)
        else after (List.replicate quotes quote) (chars.drop quotes)
      else if escapes ∧ c = '\\' then
        match brokenLine? rest with
        | some rest => after [] rest
        | none => (escape? rest).bind fun (escaped, rest) => after [escaped] rest
      else
        match newline? chars with
        | some rest => after ['\n'] rest
        | none => if isText c then after [c] rest else none

/-- A string in one line, from its first quote on. -/
def lineString? : List Char → Option (List Char × List Char)
  | '"' :: rest => line? '"' true (rest.length + 1) rest
  | '\'' :: rest => line? '\'' false (rest.length + 1) rest
  | _ => none

/-- A string of several lines after its three quotes; a line break right there is not part of it. -/
def linesString? (quote : Char) (escapes : Bool) (chars : List Char) :
    Option (List Char × List Char) :=
  let rest := (newline? chars).getD chars
  lines? quote escapes (rest.length + 1) rest

/-- A string of any kind, from its first quote on. -/
def string? : List Char → Option (List Char × List Char)
  | '"' :: '"' :: '"' :: rest => linesString? '"' true rest
  | '\'' :: '\'' :: '\'' :: rest => linesString? '\'' false rest
  | chars => lineString? chars

/-! ## Keys -/

/-- A character of a key without quotes. -/
def isKeyChar (c : Char) : Bool :=
  c.isAlphanum || c = '-' || c = '_'

/-- One part of a key. -/
def keyPart? (chars : List Char) : Option (String × List Char) :=
  match chars with
  | '"' :: _ => (lineString? chars).map fun (text, rest) => (String.ofList text, rest)
  | '\'' :: _ => (lineString? chars).map fun (text, rest) => (String.ofList text, rest)
  | _ =>
    let part := chars.takeWhile isKeyChar
    if part.isEmpty then none else some (String.ofList part, chars.dropWhile isKeyChar)

/-- The parts of a key, with points between them and blanks around them; at most `limit` parts. -/
def parts? : Nat → List Char → Option (List String × List Char)
  | 0, _ => none
  | limit + 1, chars => do
    let (part, rest) ← keyPart? (skipBlanks chars)
    match skipBlanks rest with
    | '.' :: rest => do
      let (parts, rest) ← parts? limit rest
      pure (part :: parts, rest)
    | rest => pure ([part], rest)

/-- The deepest nesting, of containers in a value and of tables in a key. -/
def maxDepth : Nat := 79

/-- A key. -/
def key? (chars : List Char) : Option (List String × List Char) :=
  parts? maxDepth chars

end Clearing.Toml
