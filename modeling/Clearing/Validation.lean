import Clearing.Operation.Deadline
import Clearing.Resources
import Clearing.Rules

/-!
# Validation

To check a transaction, its customer and then its product are looked up.  The
product is only looked up if the customer is known, and a lookup that fails ends
the check with its own failure.
-/

namespace Clearing

/-- Where the check of a transaction stands. -/
inductive CheckState where
  | starting
  | customer (state : LookupState Bool)
  | product (state : LookupState (Option Product))
  | done (ending : Ending Unit)

namespace CheckState

/-- The check ends with a violation. -/
def violated (violation : Violation) : CheckState :=
  .done (.returned (.error (.validation violation)))

/-- The check after it was heard whether the customer is known. -/
def afterCustomer (transaction : Transaction) : Ending Bool → CheckState
  | .returned (.ok true) => .product .looking
  | .returned (.ok false) => .violated (.unknownCustomer transaction.customer)
  | .returned (.error failure) => .done (.returned (.error failure))
  | .aborted cause => .done (.aborted cause)

/-- The check after it was heard what the product is. -/
def afterProduct (transaction : Transaction) (clock : Timestamp) :
    Ending (Option Product) → CheckState
  | .returned (.ok found) =>
    .done (.returned ((transaction.checkAgainst found clock).mapError .validation))
  | .returned (.error failure) => .done (.returned (.error failure))
  | .aborted cause => .done (.aborted cause)

end CheckState

/-- The check of a transaction as an operation; `clock` is the time of day. -/
def validation (clock : Nat → Timestamp) (transaction : Option Transaction) :
    Operation Resources CheckState Unit where
  step? now resources state :=
    match transaction with
    | none =>
      match state with
      | .starting => some (resources, .violated .missingTransaction)
      | _ => none
    | some transaction =>
      let customer := (Lookup.customerExists transaction.customer).operation
      let product := (Lookup.product transaction.product).operation
      match state with
      | .starting => some (resources, .customer .looking)
      | .customer state =>
        match customer.step? now resources state with
        | some (resources, state) => some (resources, .customer state)
        | none => (customer.ending? state).map fun ending =>
          (resources, .afterCustomer transaction ending)
      | .product state =>
        match product.step? now resources state with
        | some (resources, state) => some (resources, .product state)
        | none => (product.ending? state).map fun ending =>
          (resources, .afterProduct transaction (clock now) ending)
      | .done _ => none
  ending?
    | .done ending => some ending
    | _ => none
  wait?
    | .customer state => state.wait?
    | .product state => state.wait?
    | _ => none
  effort
    | .starting => 9
    | .customer state => (Lookup.customerExists 0).operation.effort state + 5
    | .product state => (Lookup.product "").operation.effort state + 1
    | .done _ => 0

/-- The name of the check when its deadline elapses. -/
def validationStage : String := "validation"

/-- The check of a transaction under a deadline. -/
def timedValidation (clock : Nat → Timestamp) (limitMillis : Nat)
    (transaction : Option Transaction) : Operation Resources (Timed CheckState) Unit :=
  (validation clock transaction).timed validationStage limitMillis

end Clearing
