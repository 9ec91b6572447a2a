import Clearing.Number.Power
import Clearing.Payload.Binary.Element
import Clearing.Payload.Value
import Clearing.Text.Base64

/-!
# Reading binary documents

Values with a counterpart in payloads are read as such: floating-point numbers
(a NaN or an infinity becomes null), strings, documents, arrays, booleans, null
and the two sizes of integers.  The other kinds become small maps with a
dollar-marked name, so that nothing of them is lost.  Plain binary data and
128-bit decimals have no form in a payload and are refused.

Every read is exact: a length that does not fit its surroundings, a missing
zero byte or a text that is not UTF-8 refuses the whole document.
-/

namespace Clearing.BinaryDocument

/-- The signed number whose two's complement is given, the least significant byte first. -/
def signed (bytes : Bytes) : Int :=
  let value := ofLittleEndian bytes
  let modulus := twoTo (8 * bytes.length)
  if 2 * value < modulus then value else (value : Int) - modulus

/-- The text of a body that holds a length, a text and a zero byte. -/
def string? (body : Bytes) : Option String :=
  if length? body = some (body.length - 4) ∧ 5 ≤ body.length ∧ body.getLast? = some 0 then
    Text.decode? (body.drop 4).dropLast
  else none

/-- An integer as a value. -/
def intValue? (n : Int) : Option Value :=
  (WideInt.ofInt? n).map .int

/-- A map with one name. -/
def single (name : String) (value : Value) : Value :=
  .object [(name, value)]

/-- An object identifier. -/
def identifier (body : Bytes) : Value :=
  single "$oid" (.string (Text.hexOfBytes body))

/-- A floating-point number; what is not finite becomes null. -/
def floatValue (body : Bytes) : Value :=
  match FiniteFloat.ofBinary64? ⟨UInt64.ofNat (ofLittleEndian body)⟩ with
  | some x => .float x
  | none => .null

/-- Binary data with its subtype.  The old form of subtype two repeats the length inside. -/
def binaryValue? (body : Bytes) : Option Value :=
  match body.drop 4 with
  | [] => none
  | subtype :: data =>
    let content? : Option Bytes :=
      if subtype = 2 then
        if length? data = some (data.length - 4) ∧ 4 ≤ data.length then some (data.drop 4) else none
      else if subtype = 0 then none
      else some data
    content?.map fun content =>
      single "$binary" (.object [
        ("subType", .string (Text.hexOfBytes [subtype])),
        ("base64", .string (String.ofList ((Text.Base64.encode content).map
          fun byte => Char.ofNat byte.toNat)))])

/-- A regular expression. -/
def patternValue? (body : Bytes) : Option Value := do
  let (pattern, rest) ← untilZero? body
  let (options, _) ← untilZero? rest
  let pattern ← Text.decode? pattern
  let options ← Text.decode? options
  pure (single "$regularExpression"
    (.object [("pattern", .string pattern), ("options", .string options)]))

/-- A time stamp of two unsigned halves, the increment first. -/
def stampValue? (body : Bytes) : Option Value := do
  let increment ← intValue? (ofLittleEndian (body.take 4))
  let time ← intValue? (ofLittleEndian (body.drop 4))
  pure (single "$timestamp" (.object [("t", time), ("i", increment)]))

/-- A value without documents inside, by tag. -/
def leafValue? (tag : Nat) (body : Bytes) : Option Value :=
  match tag with
  | 0x01 => some (floatValue body)
  | 0x02 => (string? body).map .string
  | 0x05 => binaryValue? body
  | 0x06 => some (single "$undefined" (.bool true))
  | 0x07 => some (identifier body)
  | 0x08 =>
    if body = [0] then some (.bool false) else if body = [1] then some (.bool true) else none
  | 0x09 =>
    some (single "$date" (single "$numberLong" (.string (toString (signed body)))))
  | 0x0A => some .null
  | 0x0B => patternValue? body
  | 0x0C => do
    let namespaceText ← string? (body.take (body.length - 12))
    pure (single "$dbPointer"
      (.object [("$ref", .string namespaceText), ("$id", identifier (body.drop (body.length - 12)))]))
  | 0x0D => (string? body).map fun code => single "$code" (.string code)
  | 0x0E => (string? body).map fun name => single "$symbol" (.string name)
  | 0x10 => intValue? (signed body)
  | 0x11 => stampValue? body
  | 0x12 => intValue? (signed body)
  | 0x7F => (intValue? 1).map (single "$maxKey")
  | 0xFF => (intValue? 1).map (single "$minKey")
  | _ => none

/-- The parts of code with a scope: the code and the bytes of the scope's document. -/
def scopedCode? (body : Bytes) : Option (String × Bytes) :=
  if 8 ≤ body.length then
    match length? (body.drop 4) with
    | some size =>
      (string? ((body.drop 4).take (4 + size))).map fun code => (code, body.drop (8 + size))
    | none => none
  else none

theorem scopedCode?_length {body scope : Bytes} {code : String}
    (h : scopedCode? body = some (code, scope)) : scope.length < body.length := by
  rw [scopedCode?] at h
  split at h
  · rename_i hlong
    split at h
    · obtain ⟨text, _, hsame⟩ := Option.map_eq_some_iff.1 h
      cases hsame
      simp only [List.length_drop]
      omega
    · cases h
  · cases h

mutual

/-- The named values of a row of elements, repeated names included. -/
def members? (bytes : Bytes) : Option (List (String × Value)) :=
  if bytes.isEmpty then some []
  else
    match hsplit : Element.split? bytes with
    | none => none
    | some (element, rest) =>
      have := split?_length hsplit
      match Text.decode? element.name, value? element.tag element.body, members? rest with
      | some name, some value, some more => some ((name, value) :: more)
      | _, _, _ => none
termination_by bytes.length

/-- The value of a body. -/
def value? (tag : Nat) (body : Bytes) : Option Value :=
  if tag = 0x03 ∨ tag = 0x04 then
    match hcontent : content? body with
    | none => none
    | some content =>
      have := content?_length hcontent
      (members? content).map fun members =>
        if tag = 0x03 then .object (Payload.ofMembers members) else .array (members.map (·.2))
  else if tag = 0x0F then
    match hcode : scopedCode? body with
    | none => none
    | some (code, scope) =>
      have := scopedCode?_length hcode
      match hcontent : content? scope with
      | none => none
      | some content =>
        have := content?_length hcontent
        (members? content).map fun members =>
          .object [("$code", .string code), ("$scope", .object (Payload.ofMembers members))]
  else leafValue? tag body
termination_by body.length

end

/-- The payload that a binary document of exactly these bytes holds. -/
def decode? (bytes : Bytes) : Option Payload := do
  let content ← content? bytes
  let members ← members? content
  pure (Payload.ofMembers members)

end Clearing.BinaryDocument
