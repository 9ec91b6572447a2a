import Clearing.Payload.Value

/-!
# Payloads as JSON text

The text form of a payload is compact JSON: names in map order, no blanks, and
only those characters escaped that must be.  Floating-point numbers use the
layout `Layout.payload`, which always shows a fraction or an exponent and so
keeps them apart from integers.
-/

namespace Clearing

namespace Json

/-- A character inside a JSON string. -/
def escapedChar (c : Char) : List Char :=
  if c = '"' then ['\\', '"']
  else if c = '\\' then ['\\', '\\']
  else if c.toNat = 8 then ['\\', 'b']
  else if c.toNat = 9 then ['\\', 't']
  else if c.toNat = 10 then ['\\', 'n']
  else if c.toNat = 12 then ['\\', 'f']
  else if c.toNat = 13 then ['\\', 'r']
  else if c.toNat < 32 then
    ['\\', 'u', '0', '0', Text.hexDigit (c.toNat / 16), Text.hexDigit (c.toNat % 16)]
  else [c]

/-- A text as a JSON string. -/
def stringChars (text : String) : List Char :=
  '"' :: text.toList.flatMap escapedChar ++ ['"']

/-- The decimal digits of an integer. -/
def intChars (n : Int) : List Char :=
  if n < 0 then '-' :: Nat.toDigits 10 n.natAbs else Nat.toDigits 10 n.natAbs

end Json

namespace Value

mutual

/-- The JSON text of a value. -/
def chars : Value → List Char
  | .null => ['n', 'u', 'l', 'l']
  | .bool true => ['t', 'r', 'u', 'e']
  | .bool false => ['f', 'a', 'l', 's', 'e']
  | .int n => Json.intChars n.val
  | .float x => (Layout.payload.text x.number).toList
  | .string text => Json.stringChars text
  | .array items => '[' :: itemChars items ++ [']']
  | .object members => '\x7b' :: memberChars members ++ ['\x7d']

/-- The items of an array with commas between them. -/
def itemChars : List Value → List Char
  | [] => []
  | [item] => item.chars
  | item :: next :: rest => item.chars ++ ',' :: itemChars (next :: rest)

/-- The members of an object with commas between them. -/
def memberChars : List (String × Value) → List Char
  | [] => []
  | [(name, value)] => Json.stringChars name ++ ':' :: value.chars
  | (name, value) :: next :: rest =>
    Json.stringChars name ++ ':' :: value.chars ++ ',' :: memberChars (next :: rest)

end

end Value

/-- The compact JSON text of a payload. -/
def Payload.text (payload : Payload) : String :=
  String.ofList (Value.object payload).chars

end Clearing
