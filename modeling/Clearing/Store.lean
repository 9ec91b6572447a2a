import Clearing.Ledger
import Clearing.Time.Rest

/-!
# The store

The store is the ledger as it is reached from outside.  A request takes the time
and meets the trouble that the store has for requests of its kind: as it arrives
it is counted, may be told to abort, and may be told to fail; then the delay
passes; then it fails or its work is done.  Requests for totals read their rows
as soon as they are counted, all others look at the ledger when their work is
done.
-/

namespace Clearing

/-- The kinds of requests. -/
inductive RequestKind where
  | customerLookup
  | productLookup
  | saving
  | customerTotals
  | productTotals
  | counting
  deriving DecidableEq, Repr

/-- All kinds, in the order in which they are listed. -/
def RequestKind.all : List RequestKind :=
  [.customerLookup, .productLookup, .saving, .customerTotals, .productTotals, .counting]

/-- What requests of one kind meet. -/
structure Condition where
  delayMillis : Nat
  /-- The number of requests that will fail. -/
  failures : Nat
  /-- The number of requests that will abort; they do so before any fails. -/
  aborts : Nat
  /-- The number of requests so far. -/
  calls : Nat
  /-- The failure of those that fail. -/
  refusal : Failure
  deriving DecidableEq

namespace Condition

/-- Nothing is in the way. -/
def fair : Condition :=
  { delayMillis := 0
    failures := 0
    aborts := 0
    calls := 0
    refusal := .persistence "connection refused" }

/-- Another delay, which is a rest of the store, and other numbers of failures and aborts; the count
goes on. -/
def replan (condition : Condition) (delayMillis failures aborts : Nat) : Condition :=
  { condition with delayMillis := restMillis delayMillis, failures, aborts }

end Condition

/-- What requests meet, by their kind. -/
structure Conditions where
  customerLookup : Condition
  productLookup : Condition
  saving : Condition
  customerTotals : Condition
  productTotals : Condition
  counting : Condition
  deriving DecidableEq

namespace Conditions

/-- Nothing is in the way of any request. -/
def fair : Conditions :=
  { customerLookup := .fair
    productLookup := .fair
    saving := .fair
    customerTotals := .fair
    productTotals := .fair
    counting := .fair }

/-- What requests of a kind meet. -/
def of (conditions : Conditions) : RequestKind → Condition
  | .customerLookup => conditions.customerLookup
  | .productLookup => conditions.productLookup
  | .saving => conditions.saving
  | .customerTotals => conditions.customerTotals
  | .productTotals => conditions.productTotals
  | .counting => conditions.counting

/-- The conditions with others for one kind. -/
def set (conditions : Conditions) (kind : RequestKind) (condition : Condition) : Conditions :=
  match kind with
  | .customerLookup => { conditions with customerLookup := condition }
  | .productLookup => { conditions with productLookup := condition }
  | .saving => { conditions with saving := condition }
  | .customerTotals => { conditions with customerTotals := condition }
  | .productTotals => { conditions with productTotals := condition }
  | .counting => { conditions with counting := condition }

@[simp] theorem of_set (conditions : Conditions) (kind other : RequestKind)
    (condition : Condition) :
    (conditions.set kind condition).of other =
      if other = kind then condition else conditions.of other := by
  cases kind <;> cases other <;> rfl

end Conditions

/-- A ledger as it is reached from outside. -/
structure Store where
  ledger : Ledger
  conditions : Conditions

namespace Store

/-- A ledger that is reached at once. -/
def of (ledger : Ledger) : Store :=
  { ledger, conditions := .fair }

/-- The numbers of requests so far, by kind. -/
def calls (store : Store) : List Nat :=
  RequestKind.all.map fun kind => (store.conditions.of kind).calls

/-- The store with another condition for one kind of requests. -/
def withCondition (store : Store) (kind : RequestKind) (condition : Condition) : Store :=
  { store with conditions := store.conditions.set kind condition }

end Store

/-- A request: what it reads as it arrives, and what it does at the end. -/
structure Request (β α : Type) where
  kind : RequestKind
  read : Ledger → Except Abort β
  perform : β → Ledger → α × Ledger

/-- Where a request stands. -/
inductive RequestState (β α : Type) where
  | arriving
  /-- The delay passes. -/
  | waiting (read : β) (wakes : Nat) (fails : Bool)
  /-- There is no delay. -/
  | concluding (read : β) (fails : Bool)
  | answered (ending : Ending α)

/-- What a request waits for. -/
def RequestState.wait? {β α : Type} : RequestState β α → Option Wait
  | .waiting _ wakes _ => some (.time wakes)
  | _ => none

namespace Request

variable {β α : Type}

/-- A request arrives. -/
def arrive (request : Request β α) (now : Nat) (store : Store) : Store × RequestState β α :=
  let condition := store.conditions.of request.kind
  let counted := { condition with calls := condition.calls + 1 }
  match request.read store.ledger with
  | .error cause => (store.withCondition request.kind counted, .answered (.aborted cause))
  | .ok read =>
    if 0 < condition.aborts then
      (store.withCondition request.kind { counted with aborts := condition.aborts - 1 },
        .answered (.aborted .requested))
    else
      let fails := 0 < condition.failures
      (store.withCondition request.kind { counted with failures := condition.failures - 1 },
        if condition.delayMillis = 0 then .concluding read fails
        else .waiting read (now + condition.delayMillis) fails)

/-- A request fails or does its work. -/
def conclude (request : Request β α) (store : Store) (read : β) (fails : Bool) :
    Store × RequestState β α :=
  if fails then (store, .answered (.returned (.error (store.conditions.of request.kind).refusal)))
  else
    let (answer, ledger) := request.perform read store.ledger
    ({ store with ledger }, .answered (.returned (.ok answer)))

/-- A request as an operation on the store. -/
def operation (request : Request β α) : Operation Store (RequestState β α) α where
  step? now store
    | .arriving => some (request.arrive now store)
    | .waiting read wakes fails =>
      if wakes ≤ now then some (request.conclude store read fails) else none
    | .concluding read fails => some (request.conclude store read fails)
    | .answered _ => none
  ending?
    | .answered ending => some ending
    | _ => none
  wait? := RequestState.wait?
  effort
    | .arriving => 2
    | .waiting .. => 1
    | .concluding .. => 1
    | .answered _ => 0

/-- A request that looks at the ledger when its work is done and leaves it as it is. -/
def look (kind : RequestKind) (answer : Ledger → α) : Request Unit α where
  kind
  read _ := .ok ()
  perform _ ledger := (answer ledger, ledger)

/-- Whether a customer is known. -/
def customerExists (id : Int) : Request Unit Bool :=
  look .customerLookup fun ledger => ledger.hasCustomer id

/-- The product with a code. -/
def product (code : String) : Request Unit (Option Product) :=
  look .productLookup fun ledger => ledger.product? code

/-- The number of transactions of customers at a location. -/
def countAt (location : String) : Request Unit Nat :=
  look .counting fun ledger => ledger.countAt location

/-- Saves a transaction. -/
def save (transaction : Transaction) : Request Unit Transaction where
  kind := .saving
  read _ := .ok ()
  perform _ ledger := ledger.save transaction

/-- The totals of the customers. -/
def customerTotals : Request (List CustomerTotal) (List CustomerTotal) where
  kind := .customerTotals
  read ledger := ledger.customerTotals
  perform rows ledger := (rows, ledger)

/-- The totals of the products. -/
def productTotals : Request (List ProductTotal) (List ProductTotal) where
  kind := .productTotals
  read ledger := ledger.productTotals
  perform rows ledger := (rows, ledger)

end Request

end Clearing
