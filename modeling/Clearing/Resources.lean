import Clearing.Cache.References
import Clearing.Cache.Summaries
import Clearing.Store

/-!
# Resources

What all operations of a pipeline work on: the store, the cache of reference
data and the cache of summaries.  The store is asked only for what the caches do
not have.
-/

namespace Clearing

/-- The store and the caches in front of it. -/
structure Resources where
  store : Store
  references : ReferenceCache
  summaries : SummaryCache

namespace Resources

/-- Resources with empty caches. -/
def new (ledger : Ledger) (lifetimeMillis : Nat) : Resources :=
  { store := .of ledger
    references := .empty lifetimeMillis
    summaries := .empty lifetimeMillis }

/-- The resources after a change of the ledger that does not go through the store. -/
def mapLedger (resources : Resources) (change : Ledger → Ledger) : Resources :=
  { resources with
    store := { resources.store with ledger := change resources.store.ledger } }

/-- The resources after the summaries were invalidated. -/
def invalidateSummaries (resources : Resources) : Resources :=
  { resources with summaries := resources.summaries.invalidate }

end Resources

/-! ## Looking up reference data -/

/-- A question about reference data, for the cache and for the store. -/
structure Lookup (α : Type) where
  cached : ReferenceCache → Nat → Option α × ReferenceCache
  request : Request Unit α
  remember : ReferenceCache → Nat → α → ReferenceCache

/-- Where a lookup stands. -/
inductive LookupState (α : Type) where
  /-- About to look into the cache. -/
  | looking
  /-- The store was asked. -/
  | asking (request : RequestState Unit α)
  | done (ending : Ending α)

/-- What a lookup waits for. -/
def LookupState.wait? {α : Type} : LookupState α → Option Wait
  | .asking request => request.wait?
  | _ => none

namespace Lookup

variable {α : Type}

/-- The store was asked and the request has come to a state; an answer is remembered at once. -/
def heard (lookup : Lookup α) (now : Nat) (resources : Resources) (store : Store)
    (state : RequestState Unit α) : Resources × LookupState α :=
  let resources := { resources with store }
  match state with
  | .answered (.returned (.ok answer)) =>
    ({ resources with references := lookup.remember resources.references now answer },
      .done (.returned (.ok answer)))
  | .answered ending => (resources, .done ending)
  | state => (resources, .asking state)

/-- A lookup as an operation. -/
def operation (lookup : Lookup α) : Operation Resources (LookupState α) α where
  step? now resources
    | .looking =>
      let (found, references) := lookup.cached resources.references now
      let resources := { resources with references }
      match found with
      | some answer => some (resources, .done (.returned (.ok answer)))
      | none => some (resources, .asking .arriving)
    | .asking state =>
      (lookup.request.operation.step? now resources.store state).map fun (store, state) =>
        lookup.heard now resources store state
    | .done _ => none
  ending?
    | .done ending => some ending
    | _ => none
  wait? := LookupState.wait?
  effort
    | .looking => 3
    | .asking state => lookup.request.operation.effort state
    | .done _ => 0

/-- Whether a customer is known. -/
def customerExists (id : Int) : Lookup Bool where
  cached references now := references.getCustomer now id
  request := .customerExists id
  remember references now known := references.putCustomer now id known

/-- The product with a code. -/
def product (code : String) : Lookup (Option Product) where
  cached references now := references.getProduct now code
  request := .product code
  remember references now answer := references.putProduct now code answer

end Lookup

end Clearing
