import Clearing.Number.Numeral
import Clearing.Text.Hex

/-!
# The tokens of a JSON text

The scanner reads one byte at a time.  Its state says what the byte belongs to:
nothing yet, a word, a number, or a string with what of it was read so far.
`step` is total on states and bytes and refuses by `none`; `scan` is its
iteration over a byte string.

A string token keeps the text it stands for only if there is one.  Escapes can
name half of a surrogate pair and the bytes need not be UTF-8, so the content
may stand for no text; whether that matters is left to the reader of the token.
-/

namespace Clearing.Json

/-- A token.  The content of a string is absent if no text has it. -/
inductive Token where
  | openBrace
  | closeBrace
  | openBracket
  | closeBracket
  | comma
  | colon
  | null
  | bool (value : Bool)
  | number (numeral : Numeral)
  | string (content : Option String)
  deriving DecidableEq, Repr

/-- What was read of a string. -/
structure Content where
  /-- The bytes read so far, the last one first. -/
  reversed : Bytes
  /-- A leading surrogate that waits for its partner. -/
  leading : Option Nat
  /-- Some surrogate stood without a partner. -/
  broken : Bool
  deriving DecidableEq, Repr

namespace Content

/-- Nothing was read yet. -/
def empty : Content :=
  ⟨[], none, false⟩

/-- One more byte as it is. -/
def push (content : Content) (byte : UInt8) : Content :=
  { content with
    reversed := byte :: content.reversed
    leading := none
    broken := content.broken || content.leading.isSome }

/-- One more code unit given by its number.  A leading surrogate waits for its partner. -/
def pushUnit (content : Content) (unit : Nat) : Content :=
  match content.leading with
  | some high =>
    if 0xDC00 ≤ unit ∧ unit ≤ 0xDFFF then
      let code := 0x10000 + (high - 0xD800) * 0x400 + (unit - 0xDC00)
      { content with
        reversed := (String.utf8EncodeChar (Char.ofNat code)).reverse ++ content.reversed
        leading := none }
    else if 0xD800 ≤ unit ∧ unit ≤ 0xDBFF then
      { content with leading := some unit, broken := true }
    else
      { content with
        reversed := (String.utf8EncodeChar (Char.ofNat unit)).reverse ++ content.reversed
        leading := none
        broken := true }
  | none =>
    if 0xDC00 ≤ unit ∧ unit ≤ 0xDFFF then { content with broken := true }
    else if 0xD800 ≤ unit ∧ unit ≤ 0xDBFF then { content with leading := some unit }
    else
      { content with
        reversed := (String.utf8EncodeChar (Char.ofNat unit)).reverse ++ content.reversed }

/-- The text that the content stands for. -/
def text? (content : Content) : Option String :=
  if content.broken || content.leading.isSome then none
  else Text.decode? content.reversed.reverse

end Content

/-- What the next byte belongs to. -/
inductive Scan where
  /-- Between tokens. -/
  | between
  /-- In a row of letters, the last one first. -/
  | word (reversed : Bytes)
  /-- In a number, the last byte first. -/
  | number (reversed : Bytes)
  /-- In a string. -/
  | string (content : Content)
  /-- In a string, after a backslash. -/
  | escape (content : Content)
  /-- In a string, inside the four digits of a code unit. -/
  | unit (content : Content) (digits : Nat) (value : Nat)
  deriving DecidableEq, Repr

/-- The four blanks of JSON. -/
def isBlank (byte : UInt8) : Bool :=
  byte = 32 || byte = 9 || byte = 10 || byte = 13

/-- A lower-case letter. -/
def isLetter (byte : UInt8) : Bool :=
  97 ≤ byte.toNat && byte.toNat ≤ 122

/-- A byte that can continue a number. -/
def isNumberByte (byte : UInt8) : Bool :=
  Numeral.isDigit byte || byte = 43 || byte = 45 || byte = 46 || byte = 69 || byte = 101

/-- The token that a row of letters spells. -/
def wordToken? (word : Bytes) : Option Token :=
  if word = [110, 117, 108, 108] then some .null
  else if word = [116, 114, 117, 101] then some (.bool true)
  else if word = [102, 97, 108, 115, 101] then some (.bool false)
  else none

/-- The byte that a one-letter escape stands for. -/
def escaped? (byte : UInt8) : Option UInt8 :=
  if byte = 34 ∨ byte = 92 ∨ byte = 47 then some byte
  else if byte = 98 then some 8
  else if byte = 102 then some 12
  else if byte = 110 then some 10
  else if byte = 114 then some 13
  else if byte = 116 then some 9
  else none

/-- A byte between tokens: the token it is, or the beginning of one. -/
def start (byte : UInt8) : Option (List Token × Scan) :=
  if isBlank byte then some ([], .between)
  else if byte = 123 then some ([.openBrace], .between)
  else if byte = 125 then some ([.closeBrace], .between)
  else if byte = 91 then some ([.openBracket], .between)
  else if byte = 93 then some ([.closeBracket], .between)
  else if byte = 44 then some ([.comma], .between)
  else if byte = 58 then some ([.colon], .between)
  else if byte = 34 then some ([], .string .empty)
  else if byte = 45 ∨ Numeral.isDigit byte then some ([], .number [byte])
  else if isLetter byte then some ([], .word [byte])
  else none

/-- The tokens that end where the text ends. -/
def finish : Scan → Option (List Token)
  | .between => some []
  | .word reversed => (wordToken? reversed.reverse).map ([·])
  | .number reversed => (Numeral.ofBytes? reversed.reverse).map ([.number ·])
  | _ => none

/-- One byte: the tokens that end with it or before it, and the state after it. -/
def step : Scan → UInt8 → Option (List Token × Scan)
  | .between, byte => start byte
  | .word reversed, byte =>
    if isLetter byte then some ([], .word (byte :: reversed))
    else do
      let ended ← finish (.word reversed)
      let (tokens, next) ← start byte
      pure (ended ++ tokens, next)
  | .number reversed, byte =>
    if isNumberByte byte then some ([], .number (byte :: reversed))
    else do
      let ended ← finish (.number reversed)
      let (tokens, next) ← start byte
      pure (ended ++ tokens, next)
  | .string content, byte =>
    if byte = 34 then some ([.string content.text?], .between)
    else if byte = 92 then some ([], .escape content)
    else if byte < 32 then none
    else some ([], .string (content.push byte))
  | .escape content, byte =>
    if byte = 117 then some ([], .unit content 4 0)
    else (escaped? byte).map fun plain => ([], .string (content.push plain))
  | .unit content digits value, byte =>
    (Text.hexValue? (Char.ofNat byte.toNat)).map fun digit =>
      if digits ≤ 1 then ([], .string (content.pushUnit (16 * value + digit)))
      else ([], .unit content (digits - 1) (16 * value + digit))

/-- The tokens of a byte string that is read in a given state. -/
def scan (state : Scan) : Bytes → Option (List Token)
  | [] => finish state
  | byte :: rest => (step state byte).bind fun next => (scan next.2 rest).map (next.1 ++ ·)

/-- The tokens of a JSON text. -/
def tokens? (bytes : Bytes) : Option (List Token) :=
  scan .between bytes

@[simp] theorem scan_nil (state : Scan) : scan state [] = finish state := rfl

theorem scan_cons (state : Scan) (byte : UInt8) (rest : Bytes) :
    scan state (byte :: rest) =
      (step state byte).bind fun next => (scan next.2 rest).map (next.1 ++ ·) := rfl

end Clearing.Json
