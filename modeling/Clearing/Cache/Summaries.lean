import Clearing.Cache.Expiring
import Clearing.Summary

/-!
# The cache of summaries

The two summaries are kept until they expire or are invalidated, both at once.
Every invalidation starts a new generation.  A summary is only kept if it was
computed in the present generation: whoever computes one notes the generation
before asking for the totals and hands it in with the result, so that totals
from before an invalidation are never kept after it.
-/

namespace Clearing

/-- The cache of the two summaries. -/
structure SummaryCache where
  lifetimeMillis : Nat
  generation : Nat
  customers : Option (Aged (List CustomerTotal))
  products : Option (Aged (List ProductTotal))

namespace SummaryCache

/-- A cache without summaries, in its first generation. -/
def empty (lifetimeMillis : Nat) : SummaryCache :=
  { lifetimeMillis, generation := 0, customers := none, products := none }

/-- A value that has not expired. -/
def fresh? {ν : Type} (cache : SummaryCache) (now : Nat) (slot : Option (Aged ν)) : Option ν :=
  match slot with
  | some entry => if entry.isFresh cache.lifetimeMillis now then some entry.value else none
  | none => none

/-- The summary of the customers, if there is one. -/
def customers? (cache : SummaryCache) (now : Nat) : Option (List CustomerTotal) :=
  cache.fresh? now cache.customers

/-- The summary of the products, if there is one. -/
def products? (cache : SummaryCache) (now : Nat) : Option (List ProductTotal) :=
  cache.fresh? now cache.products

/-- Whether a summary of the customers is kept, and the cache after that. -/
def storeCustomers (cache : SummaryCache) (now generation : Nat) (rows : List CustomerTotal) :
    Bool × SummaryCache :=
  if cache.generation = generation then
    (true, { cache with customers := some { value := rows, since := now } })
  else (false, cache)

/-- Whether a summary of the products is kept, and the cache after that. -/
def storeProducts (cache : SummaryCache) (now generation : Nat) (rows : List ProductTotal) :
    Bool × SummaryCache :=
  if cache.generation = generation then
    (true, { cache with products := some { value := rows, since := now } })
  else (false, cache)

/-- Both summaries are removed and a new generation starts. -/
def invalidate (cache : SummaryCache) : SummaryCache :=
  { cache with generation := cache.generation + 1, customers := none, products := none }

@[simp] theorem customers?_invalidate (cache : SummaryCache) (now : Nat) :
    cache.invalidate.customers? now = none := rfl

@[simp] theorem products?_invalidate (cache : SummaryCache) (now : Nat) :
    cache.invalidate.products? now = none := rfl

end SummaryCache

end Clearing
