import Clearing.Resources

/-!
# Asking for summaries

A summary is taken from the cache if it is there.  Otherwise the generation of
the cache is noted, the store is asked for the totals, and the rows, with their
amounts as they are shown, are handed to the cache together with the generation
that was noted.
-/

namespace Clearing

/-- One of the two summaries, for the cache and for the store. -/
structure SummaryKind (ρ : Type) where
  cached : SummaryCache → Nat → Option (List ρ)
  request : Request (List ρ) (List ρ)
  shown : ρ → ρ
  keep : SummaryCache → Nat → Nat → List ρ → Bool × SummaryCache

namespace SummaryKind

/-- The summary of the customers. -/
def customers : SummaryKind CustomerTotal where
  cached := SummaryCache.customers?
  request := .customerTotals
  shown := CustomerTotal.normalized
  keep := SummaryCache.storeCustomers

/-- The summary of the products. -/
def products : SummaryKind ProductTotal where
  cached := SummaryCache.products?
  request := .productTotals
  shown := ProductTotal.normalized
  keep := SummaryCache.storeProducts

end SummaryKind

/-- Where a query for a summary stands. -/
inductive SummaryState (ρ : Type) where
  /-- About to look into the cache. -/
  | looking
  /-- About to note the generation. -/
  | noting
  /-- The store was asked for the totals. -/
  | asking (generation : Nat) (request : RequestState (List ρ) (List ρ))
  /-- About to hand the rows to the cache. -/
  | keeping (generation : Nat) (rows : List ρ)
  | done (ending : Ending (List ρ))

/-- A query for a summary as an operation. -/
def SummaryKind.query {ρ : Type} (kind : SummaryKind ρ) :
    Operation Resources (SummaryState ρ) (List ρ) where
  step? now resources
    | .looking =>
      match kind.cached resources.summaries now with
      | some rows => some (resources, .done (.returned (.ok rows)))
      | none => some (resources, .noting)
    | .noting => some (resources, .asking resources.summaries.generation .arriving)
    | .asking generation state =>
      match kind.request.operation.step? now resources.store state with
      | some (store, state) => some ({ resources with store }, .asking generation state)
      | none =>
        match kind.request.operation.ending? state with
        | some (.returned (.ok rows)) =>
          some (resources, .keeping generation (rows.map kind.shown))
        | some ending => some (resources, .done ending)
        | none => none
    | .keeping generation rows =>
      let (_, summaries) := kind.keep resources.summaries now generation rows
      some ({ resources with summaries }, .done (.returned (.ok rows)))
    | .done _ => none
  ending?
    | .done ending => some ending
    | _ => none
  wait?
    | .asking _ state => state.wait?
    | _ => none
  effort
    | .looking => 6
    | .noting => 5
    | .asking _ state => kind.request.operation.effort state + 2
    | .keeping .. => 1
    | .done _ => 0

end Clearing
