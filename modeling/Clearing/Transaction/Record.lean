import Clearing.Transaction

/-!
# Transactions from records

A record holds a document with the fields of a transaction.  Fields are checked
in the order of the document and the first bad one is reported; only then are
missing ones, in a fixed order.  Fields that are not known are ignored.
-/

namespace Clearing

/-- The fields of a transaction document that were read so far. -/
structure RecordFields where
  id : Option Int
  time : Option Timestamp
  customer : Option Int
  product : Option String
  quantity : Option Int
  data : Option Payload

namespace RecordFields

/-- No field was read. -/
def empty : RecordFields :=
  { id := none, time := none, customer := none, product := none, quantity := none, data := none }

/-- A fault about a value of the wrong type. -/
def mismatch {α : Type} (value : Value) (expected : FieldType) : Except FieldFault α :=
  .error (.wrongType (.ofValue value) expected)

/-- An integer between two bounds. -/
def readInt (least greatest : Int) (expected : FieldType) (value : Value) : Except FieldFault Int :=
  match value with
  | .int n =>
    if least ≤ n.val ∧ n.val ≤ greatest then .ok n.val else .error (.outOfRange n.val expected)
  | _ => mismatch value expected

/-- An integer of 32 bits. -/
def readInt32 : Value → Except FieldFault Int :=
  readInt (-2147483648) 2147483647 .int32

/-- An integer of 64 bits. -/
def readInt64 : Value → Except FieldFault Int :=
  readInt (-9223372036854775808) 9223372036854775807 .int64

/-- A text. -/
def readString : Value → Except FieldFault String
  | .string text => .ok text
  | value => mismatch value .string

/-- A point in time. -/
def readTime : Value → Except FieldFault Timestamp
  | .string text =>
    match Timestamp.ofText? text with
    | some time => .ok time
    | none => .error .unreadableTime
  | value => mismatch value .time

/-- A map. -/
def readMap : Value → Except FieldFault Payload
  | .object members => .ok members
  | value => mismatch value .map

/-- A field that may be null. -/
def readOptional {α : Type} (read : Value → Except FieldFault α) :
    Value → Except FieldFault (Option α)
  | .null => .ok none
  | value => (read value).map some

/-- One field of the document. -/
def readField (fields : RecordFields) (name : String) (value : Value) :
    Except FieldFault RecordFields :=
  if name = "id" then do pure { fields with id := ← readOptional readInt64 value }
  else if name = "transactionTime" then do
    pure { fields with time := ← readOptional readTime value }
  else if name = "customerId" then do pure { fields with customer := some (← readInt32 value) }
  else if name = "productCode" then do pure { fields with product := some (← readString value) }
  else if name = "quantity" then do pure { fields with quantity := some (← readInt32 value) }
  else if name = "data" then do pure { fields with data := ← readOptional readMap value }
  else .ok fields

/-- The fields of a document. -/
def ofDocument (document : Payload) : Except FieldFault RecordFields :=
  document.foldlM (fun fields member => fields.readField member.1 member.2) empty

/-- A field that must be there. -/
def required {α : Type} (name : String) : Option α → Except FieldFault α
  | some value => .ok value
  | none => .error (.missing name)

/-- The transaction without its payload, and the payload. -/
def toTransaction (fields : RecordFields) (format : WireFormat) :
    Except FieldFault (Transaction × Option Payload) := do
  let customer ← required "customerId" fields.customer
  let product ← required "productCode" fields.product
  let quantity ← required "quantity" fields.quantity
  let bare := Transaction.new customer product quantity format
  pure ({ bare with id := fields.id, time := fields.time }, fields.data)

end RecordFields

namespace Transaction

/-- The transaction that a document of a record of `length` bytes describes. -/
def ofDocument (document : Payload) (format : WireFormat) (length : Nat) :
    Except Failure Transaction :=
  let parts := do (← RecordFields.ofDocument document).toTransaction format
  match parts with
  | .error fault => .error (.codec format length (.notTransaction fault))
  | .ok (transaction, none) => .ok transaction
  | .ok (transaction, some data) => transaction.withPayload data

/-- The transaction that a record describes. -/
def ofRecord (bytes : Bytes) (format : WireFormat) : Except Failure Transaction := do
  let document ← Payload.decode format bytes
  ofDocument document format bytes.length

end Transaction

end Clearing
