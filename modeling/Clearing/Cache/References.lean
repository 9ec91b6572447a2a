import Clearing.Cache.Expiring
import Clearing.Reference

/-!
# The cache of reference data

What is remembered about a customer is whether it is known, yes or no; products
are remembered only if they were found.
-/

namespace Clearing

/-- What was last heard about customers and products. -/
structure ReferenceCache where
  customers : ExpiringCache Int Bool
  products : ExpiringCache String Product

namespace ReferenceCache

/-- Nothing was heard yet. -/
def empty (lifetimeMillis : Nat) : ReferenceCache :=
  { customers := .empty lifetimeMillis, products := .empty lifetimeMillis }

/-- Whether a customer is known, if that was heard lately. -/
def getCustomer (cache : ReferenceCache) (now : Nat) (id : Int) : Option Bool × ReferenceCache :=
  let (found, customers) := cache.customers.get now id
  (found, { cache with customers })

/-- The product with a code, if it was heard of lately. -/
def getProduct (cache : ReferenceCache) (now : Nat) (code : String) :
    Option (Option Product) × ReferenceCache :=
  let (found, products) := cache.products.get now code
  (found.map some, { cache with products })

/-- It was heard whether a customer is known. -/
def putCustomer (cache : ReferenceCache) (now : Nat) (id : Int) (known : Bool) : ReferenceCache :=
  { cache with customers := cache.customers.insert now id known }

/-- It was heard what the product with a code is, or that there is none, which is not remembered. -/
def putProduct (cache : ReferenceCache) (now : Nat) (code : String) :
    Option Product → ReferenceCache
  | some product => { cache with products := cache.products.insert now code product }
  | none => cache

end ReferenceCache

end Clearing
