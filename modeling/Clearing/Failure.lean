import Clearing.Number.Decimal
import Clearing.Payload.Value
import Clearing.Text.Blank
import Clearing.Text.Quoted
import Clearing.Time.Span

/-!
# Why a transaction is not processed

A `Failure` names the cause; its wording is in one place, `Failure.message`.
Six kinds are told apart, and two of them, an elapsed deadline and trouble with
the ledger, are worth another attempt.

A payload that cannot be read is reported with its size and a reason.  Reasons
that a sender can act on are spelled out; what a malformed document violates is
not, it is reported as `*`.
-/

namespace Clearing

/-- The two encodings a record can arrive in. -/
inductive WireFormat where
  | text
  | binary
  deriving DecidableEq, Repr

namespace WireFormat

/-- The name of the encoding. -/
def name : WireFormat → String
  | .text => "TEXT"
  | .binary => "BINARY"

/-- The encoding with a name in upper case; each has an alias. -/
def ofUpperName? (name : String) : Option WireFormat :=
  if name = "TEXT" ∨ name = "JSON" then some .text
  else if name = "BINARY" ∨ name = "BSON" then some .binary
  else none

/-- The encoding that a person named, in any case and with blanks around the name, or the name that
is not known. -/
def ofName (name : String) : Except String WireFormat :=
  let normal := Text.upper (Text.trim name)
  match ofUpperName? normal with
  | some format => .ok format
  | none => .error normal

/-- What is said about a name that is not known. -/
def unknownMessage (name : String) : String :=
  "unknown data format: " ++ name

end WireFormat

/-! ## What is wrong with a document -/

/-- A value of the wrong type, as it is shown. -/
inductive FoundValue where
  | null
  | bool (value : Bool)
  | int (value : Int)
  | float (value : Binary64)
  | string (text : String)
  | sequence
  | map
  deriving DecidableEq, Repr

/-- A value as it is shown when it has the wrong type. -/
def FoundValue.ofValue : Value → FoundValue
  | .null => .null
  | .bool value => .bool value
  | .int n => .int n.val
  | .float x => .float x.number
  | .string text => .string text
  | .array _ => .sequence
  | .object _ => .map

/-- A value between single back quotes. -/
def backquoted (text : String) : String :=
  "\x60" ++ text ++ "\x60"

/-- The description of a value of the wrong type. -/
def FoundValue.text : FoundValue → String
  | .null => "null"
  | .bool value => "boolean " ++ backquoted (if value then "true" else "false")
  | .int n => "integer " ++ backquoted (toString n)
  | .float x => "floating point " ++ backquoted (Layout.payload.text x)
  | .string text => "string " ++ Text.quoted text
  | .sequence => "sequence"
  | .map => "map"

/-- The type a field must have. -/
inductive FieldType where
  | int32
  | int64
  | string
  | map
  | time
  deriving DecidableEq, Repr

/-- The name of a type in messages. -/
def FieldType.text : FieldType → String
  | .int32 => "i32"
  | .int64 => "i64"
  | .string => "a string"
  | .map => "a map"
  | .time => "an RFC 3339 formatted date and time string"

/-- What keeps a document from being a transaction. -/
inductive FieldFault where
  /-- A required field is not there. -/
  | missing (field : String)
  /-- A field has another type. -/
  | wrongType (found : FoundValue) (expected : FieldType)
  /-- An integer does not fit its field. -/
  | outOfRange (value : Int) (expected : FieldType)
  /-- A text does not name a point in time. -/
  | unreadableTime
  deriving DecidableEq, Repr

/-- The wording of a fault. -/
def FieldFault.text : FieldFault → String
  | .missing field => "missing field " ++ backquoted field
  | .wrongType found expected => "invalid type: " ++ found.text ++ ", expected " ++ expected.text
  | .outOfRange value expected =>
    "invalid value: integer " ++ backquoted (toString value) ++ ", expected " ++ expected.text
  | .unreadableTime => "*"

/-- Why a payload could not be read or written. -/
inductive CodecCause where
  /-- There were no bytes. -/
  | empty
  /-- The text envelope does not hold Base64. -/
  | badEnvelope
  /-- The document violates its format, or a value has no form in it. -/
  | malformed
  /-- The document is well formed but no transaction. -/
  | notTransaction (fault : FieldFault)
  /-- A cause stated by someone else. -/
  | stated (text : String)
  deriving DecidableEq, Repr

/-- The wording of a cause. -/
def CodecCause.text : CodecCause → String
  | .empty => "empty payload"
  | .badEnvelope => "invalid Base64 after BINARY: prefix: *"
  | .malformed => "*"
  | .notTransaction fault => "not a transaction document: " ++ fault.text
  | .stated text => text

/-! ## What is wrong with a transaction -/

/-- The most that one transaction may cost. -/
def costCeiling : Decimal := Decimal.ofInt 5000 (by decide)

/-- A rule that a transaction violates. -/
inductive Violation where
  | missingTransaction
  | unknownCustomer (id : Int)
  | unknownProduct (code : String)
  | inactiveProduct (code : String)
  | costExceeded (total : Decimal)
  | costOverflow (cost : Decimal) (quantity : Int)
  | quantityNotPositive
  | timeInPast
  /-- A violation stated by someone else. -/
  | stated (text : String)
  deriving DecidableEq

/-- The wording of a violation of the cost rule. -/
def costMessage (total : String) : String :=
  "Total cost cannot exceed " ++ costCeiling.text ++ ". Current total: " ++ total

/-- The wording of a violation. -/
def Violation.text : Violation → String
  | .missingTransaction => "Transaction cannot be null"
  | .unknownCustomer id => "Invalid customer: " ++ toString id
  | .unknownProduct code => "Product not found: " ++ code
  | .inactiveProduct code => "Product is not active: " ++ code
  | .costExceeded total => costMessage total.text
  | .costOverflow cost quantity => costMessage (cost.text ++ " x " ++ toString quantity)
  | .quantityNotPositive => "Quantity must be greater than 0"
  | .timeInPast => "Transaction date cannot be in the past"
  | .stated text => text

/-! ## Failures -/

/-- Why a transaction is not processed. -/
inductive Failure where
  | codec (format : WireFormat) (length : Nat) (cause : CodecCause)
  | validation (violation : Violation)
  | timeout (stage : String) (after : Span)
  | bulkheadFull (guard : String) (waited : Span)
  | circuitOpen (guard : String)
  | persistence (text : String)
  deriving DecidableEq

/-- The kind of a failure. -/
inductive FailureKind where
  | codec
  | validation
  | timeout
  | bulkheadFull
  | circuitOpen
  | persistence
  deriving DecidableEq, Repr

/-- All kinds. -/
def FailureKind.all : List FailureKind :=
  [.codec, .validation, .timeout, .bulkheadFull, .circuitOpen, .persistence]

/-- The name of a kind. -/
def FailureKind.name : FailureKind → String
  | .codec => "codec"
  | .validation => "validation"
  | .timeout => "timeout"
  | .bulkheadFull => "bulkhead_full"
  | .circuitOpen => "circuit_open"
  | .persistence => "persistence"

/-- The kind with a name. -/
def FailureKind.ofName? (name : String) : Option FailureKind :=
  FailureKind.all.find? fun kind => kind.name = name

namespace Failure

/-- The kind of a failure. -/
def kind : Failure → FailureKind
  | .codec .. => .codec
  | .validation _ => .validation
  | .timeout .. => .timeout
  | .bulkheadFull .. => .bulkheadFull
  | .circuitOpen _ => .circuitOpen
  | .persistence _ => .persistence

/-- The wording of a failure. -/
def message : Failure → String
  | .codec format length cause =>
    format.name ++ " payload of " ++ toString length ++ " bytes could not be decoded: " ++ cause.text
  | .validation violation => violation.text
  | .timeout stage after => stage ++ " timed out after " ++ after.text
  | .bulkheadFull guard waited =>
    "bulkhead '" ++ guard ++ "' is full, no permit within " ++ waited.text
  | .circuitOpen guard => "circuit breaker '" ++ guard ++ "' is open, call not permitted"
  | .persistence text => "persistence failure: " ++ text

/-- Another attempt may succeed. -/
def isRetryable (failure : Failure) : Bool :=
  failure.kind = .timeout || failure.kind = .persistence

end Failure

end Clearing
