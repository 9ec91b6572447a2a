import Clearing.Payload.Codec
import Clearing.Time.Timestamp

/-!
# Transactions

A transaction is a customer buying a quantity of a product.  It may carry an
identifier, a time and a payload, and it remembers in which encoding it arrived;
the payload is kept in that encoding.  A transaction is pending until the
pipeline marks it as processed.
-/

namespace Clearing

/-- Whether the pipeline is done with a transaction. -/
inductive TransactionStatus where
  | pending
  | processed
  deriving DecidableEq, Repr

/-- The name of a status. -/
def TransactionStatus.name : TransactionStatus → String
  | .pending => "PENDING"
  | .processed => "PROCESSED"

/-- The status of a transaction that nobody has touched. -/
def TransactionStatus.initial : TransactionStatus := .pending

/-- One purchase. -/
structure Transaction where
  id : Option Int
  time : Option Timestamp
  customer : Int
  product : String
  quantity : Int
  format : WireFormat
  payload : Option EncodedPayload
  processedTime : Option Timestamp
  status : TransactionStatus
  deriving DecidableEq

namespace Transaction

/-- A pending transaction with nothing but its subject. -/
def new (customer : Int) (product : String) (quantity : Int) (format : WireFormat) : Transaction :=
  { id := none
    time := none
    customer
    product
    quantity
    format
    payload := none
    processedTime := none
    status := .initial }

/-- The same purchase under an identifier. -/
def withId (transaction : Transaction) (id : Int) : Transaction :=
  { transaction with id := some id }

/-- The same purchase at a time. -/
def withTime (transaction : Transaction) (time : Timestamp) : Transaction :=
  { transaction with time := some time }

/-- The same purchase of another quantity. -/
def withQuantity (transaction : Transaction) (quantity : Int) : Transaction :=
  { transaction with quantity }

/-- The same purchase with a payload, kept in the encoding of the transaction. -/
def withPayload (transaction : Transaction) (payload : Payload) : Except Failure Transaction := do
  let encoded ← EncodedPayload.encode transaction.format payload
  pure { transaction with payload := some encoded }

/-- Puts a payload into a transaction, in place of the one that it has.  It is encoded before the
transaction is touched. -/
def setPayload (payload : Payload) : ExceptT Failure (StateM Transaction) Unit := do
  let transaction ← get
  let encoded ← EncodedPayload.encode transaction.format payload
  set { transaction with payload := some encoded }

/-- The payload, if there is one. -/
def decodedPayload (transaction : Transaction) : Except Failure (Option Payload) :=
  match transaction.payload with
  | none => .ok none
  | some encoded => encoded.decode.map some

/-- The same purchase in another encoding; its payload is encoded again. -/
def withFormat (transaction : Transaction) (format : WireFormat) : Except Failure Transaction :=
  if transaction.format = format then .ok transaction
  else do
    match ← transaction.decodedPayload with
    | none => pure { transaction with format }
    | some payload => withPayload { transaction with format } payload

/-- The transaction after the pipeline accepted it. -/
def markProcessed (transaction : Transaction) (time : Timestamp) : Transaction :=
  { transaction with processedTime := some time, status := .processed }

/-- The payload, if there is one, is in the encoding of the transaction. -/
def Consistent (transaction : Transaction) : Prop :=
  ∀ encoded ∈ transaction.payload, encoded.format = transaction.format

end Transaction

end Clearing
