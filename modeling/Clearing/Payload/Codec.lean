import Clearing.Failure
import Clearing.Payload.Binary.Reader
import Clearing.Payload.Binary.Writer
import Clearing.Payload.Text
import Clearing.Text.Base64
import Clearing.Text.Blank

/-!
# Encoding and decoding payloads

A text payload is a JSON object.  A binary payload is a binary document, either
as it is or inside a text envelope: the prefix `BINARY:` and the Base64 form of
the document.  Older senders put JSON text where a binary document belongs; the
policy `textFirst` reads it, the policy `binaryOnly` does not.
-/

namespace Clearing

/-- Whether JSON text is accepted in place of a binary document. -/
inductive LegacyPolicy where
  | textFirst
  | binaryOnly
  deriving DecidableEq, Repr

namespace Envelope

/-- What an envelope starts with: `BINARY:`. -/
def marker : Bytes := [66, 73, 78, 65, 82, 89, 58]

/-- A document in its envelope. -/
def wrap (document : Bytes) : Bytes :=
  marker ++ Text.Base64.encode document

/-- The Base64 part of an envelope without the blanks around it; absent if there is no envelope. -/
def content? (bytes : Bytes) : Option Bytes :=
  if marker.isPrefixOf bytes then
    some (Text.strip Text.isEnvelopeBlank (bytes.drop marker.length))
  else none

/-- The document that bytes carry, in an envelope or not. -/
def unwrap (bytes : Bytes) : Except CodecCause Bytes :=
  match content? bytes with
  | none => .ok bytes
  | some content =>
    match Text.Base64.decode? content with
    | some document => .ok document
    | none => .error .badEnvelope

end Envelope

namespace Payload

/-- The payload that a binary document holds, or the legacy JSON text in its place. -/
def ofDocument (policy : LegacyPolicy) (document : Bytes) : Except CodecCause Payload :=
  let legacy? := if policy = .textFirst then ofJsonBytes? document else none
  match legacy? with
  | some payload => .ok payload
  | none =>
    match BinaryDocument.decode? document with
    | some payload => .ok payload
    | none => .error .malformed

/-- The payload that a binary record holds. -/
def decodeBinary (policy : LegacyPolicy) (bytes : Bytes) : Except CodecCause Payload :=
  if bytes.isEmpty then .error .empty
  else do ofDocument policy (← Envelope.unwrap bytes)

/-- The payload that a text record holds. -/
def decodeText (bytes : Bytes) : Except CodecCause Payload :=
  if bytes.isEmpty then .error .empty
  else
    match ofJsonBytes? bytes with
    | some payload => .ok payload
    | none => .error .malformed

/-- A cause with the format and the size of what could not be read. -/
def codecFailure {α : Type} (format : WireFormat) (length : Nat) :
    Except CodecCause α → Except Failure α
  | .ok value => .ok value
  | .error cause => .error (.codec format length cause)

/-- The payload that bytes hold in a given format, under a given policy. -/
def decodeWith (policy : LegacyPolicy) (format : WireFormat) (bytes : Bytes) :
    Except Failure Payload :=
  codecFailure format bytes.length <|
    match format with
    | .text => decodeText bytes
    | .binary => decodeBinary policy bytes

/-- The payload that bytes hold in a given format. -/
def decode (format : WireFormat) (bytes : Bytes) : Except Failure Payload :=
  decodeWith .textFirst format bytes

end Payload

/-- A payload in one of its encodings. -/
inductive EncodedPayload where
  | text (content : String)
  | binary (content : Bytes)
  deriving DecidableEq, Repr

namespace EncodedPayload

/-- The encoding that is used. -/
def format : EncodedPayload → WireFormat
  | .text _ => .text
  | .binary _ => .binary

/-- The encoded form as bytes. -/
def bytes : EncodedPayload → Bytes
  | .text content => Text.encode content
  | .binary content => content

/-- A payload in a given encoding.  Some payloads have no binary form. -/
def encode (format : WireFormat) (payload : Payload) : Except Failure EncodedPayload :=
  match format with
  | .text => .ok (.text payload.text)
  | .binary =>
    match BinaryDocument.encode? payload with
    | some document => .ok (.binary document)
    | none => .error (.codec .binary 0 .malformed)

/-- The payload that was encoded. -/
def decode (encoded : EncodedPayload) : Except Failure Payload :=
  Payload.decode encoded.format encoded.bytes

theorem format_of_encode {format : WireFormat} {payload : Payload} {encoded : EncodedPayload}
    (h : encode format payload = .ok encoded) : encoded.format = format := by
  cases format with
  | text =>
    cases h
    rfl
  | binary =>
    rw [encode] at h
    split at h
    · cases h
      rfl
    · cases h

end EncodedPayload

end Clearing
