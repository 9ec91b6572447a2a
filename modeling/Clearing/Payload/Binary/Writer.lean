import Clearing.Number.Power
import Clearing.Payload.Binary.Element
import Clearing.Payload.Value

/-!
# Writing binary documents

Every integer is written with 64 signed bits and every floating-point number
bit for bit; the items of an array are named by their position.  Two things
cannot be written: an integer that needs the unsigned range, and a name with a
zero byte in it, because names end at the first zero byte.
-/

namespace Clearing.BinaryDocument

/-- A row of elements with the length before it and a zero byte after it. -/
def frame (elements : Bytes) : Bytes :=
  littleEndian 4 (elements.length + 5) ++ elements ++ [0]

/-- A text with its length before it and a zero byte after it. -/
def stringBody (text : String) : Bytes :=
  let bytes := Text.encode text
  littleEndian 4 (bytes.length + 1) ++ bytes ++ [0]

/-- An element with a body. -/
def elementBytes (tag : UInt8) (name : Bytes) (body : Bytes) : Bytes :=
  tag :: name ++ 0 :: body

/-- The name of the item at a position of an array. -/
def indexName (index : Nat) : Bytes :=
  Text.encode (toString index)

mutual

/-- The tag and the body of a value. -/
def encodeValue? : Value → Option (UInt8 × Bytes)
  | .null => some (0x0A, [])
  | .bool value => some (0x08, [if value then 1 else 0])
  | .int n =>
    if n.isSigned then some (0x12, littleEndian 8 (n.val % twoTo 64).toNat) else none
  | .float x => some (0x01, littleEndian 8 x.number.bits.toNat)
  | .string text => some (0x02, stringBody text)
  | .array items => (encodeItems? 0 items).map fun elements => (0x04, frame elements)
  | .object members => (encodeMembers? members).map fun elements => (0x03, frame elements)

/-- The elements of an array from a position on. -/
def encodeItems? (index : Nat) : List Value → Option Bytes
  | [] => some []
  | item :: rest => do
    let (tag, body) ← encodeValue? item
    let more ← encodeItems? (index + 1) rest
    pure (elementBytes tag (indexName index) body ++ more)

/-- The elements of a map. -/
def encodeMembers? : List (String × Value) → Option Bytes
  | [] => some []
  | (name, value) :: rest => do
    let nameBytes := Text.encode name
    if nameBytes.contains 0 then none
    let (tag, body) ← encodeValue? value
    let more ← encodeMembers? rest
    pure (elementBytes tag nameBytes body ++ more)

end

/-- The binary document of a payload. -/
def encode? (payload : Payload) : Option Bytes :=
  (encodeMembers? payload).map frame

end Clearing.BinaryDocument
