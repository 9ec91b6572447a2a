import Clearing.Cache.References
import Clearing.Proofs.Table

/-!
# Laws of expiring caches

A cache hands out only what is in it and has not expired, and an operation on a
cache brings in nothing but the entry that it inserts.
-/

namespace Clearing

namespace ExpiringCache

variable {κ ν : Type} [Ord κ] {cache : ExpiringCache κ ν} {now : Nat} {key : κ} {value : ν}
  {row : κ × Aged ν}

/-- What is handed out is in the cache and younger than its lifetime. -/
theorem exists_of_look? [Std.LawfulEqOrd κ] (hlook : cache.look? now key = some value) :
    ∃ since, (key, ⟨value, since⟩) ∈ cache.entries ∧ now < since + cache.lifetimeMillis := by
  unfold look? at hlook
  split at hlook
  · rename_i entry hfound
    obtain ⟨hfresh, hvalue⟩ := Option.ite_none_right_eq_some.mp hlook
    cases hvalue
    have hage : now - entry.since < cache.lifetimeMillis := of_decide_eq_true hfresh
    exact ⟨entry.since, Table.mem_of_find? hfound, by omega⟩
  · cases hlook

theorem mem_of_mem_dropExpired (hrow : row ∈ (cache.dropExpired now key).entries) :
    row ∈ cache.entries := by
  unfold dropExpired at hrow
  split at hrow
  · split at hrow
    · exact hrow
    · exact (List.mem_filter.mp hrow).1
  · exact hrow

@[simp] theorem lifetimeMillis_dropExpired (cache : ExpiringCache κ ν) (now : Nat) (key : κ) :
    (cache.dropExpired now key).lifetimeMillis = cache.lifetimeMillis := by
  unfold dropExpired
  split
  · split <;> rfl
  · rfl

theorem mem_of_mem_insert (hrow : row ∈ (cache.insert now key value).entries) :
    row = (key, ⟨value, now⟩) ∨ row ∈ cache.entries :=
  Table.mem_of_mem_insert hrow

end ExpiringCache

/-! ## The cache of reference data -/

namespace ReferenceCache

/-- All entries are backed by something, which may depend on when they were put there. -/
structure Backed (cache : ReferenceCache) (lifetimeMillis : Nat)
    (customer : Int → Bool → Nat → Prop) (product : String → Product → Nat → Prop) : Prop where
  customers {id : Int} {entry : Aged Bool} (hentry : (id, entry) ∈ cache.customers.entries) :
    customer id entry.value entry.since
  products {code : String} {entry : Aged Product}
    (hentry : (code, entry) ∈ cache.products.entries) : product code entry.value entry.since
  customersLifetime : cache.customers.lifetimeMillis = lifetimeMillis
  productsLifetime : cache.products.lifetimeMillis = lifetimeMillis

variable {cache : ReferenceCache} {lifetimeMillis now : Nat}
  {customer : Int → Bool → Nat → Prop} {product : String → Product → Nat → Prop}

theorem backed_empty (lifetimeMillis : Nat) (customer : Int → Bool → Nat → Prop)
    (product : String → Product → Nat → Prop) :
    (empty lifetimeMillis).Backed lifetimeMillis customer product :=
  ⟨nofun, nofun, rfl, rfl⟩

namespace Backed

theorem mono {customer' : Int → Bool → Nat → Prop} {product' : String → Product → Nat → Prop}
    (hbacked : cache.Backed lifetimeMillis customer product)
    (hcustomer : ∀ id known since, customer id known since → customer' id known since)
    (hproduct : ∀ code found since, product code found since → product' code found since) :
    cache.Backed lifetimeMillis customer' product' where
  customers hentry := hcustomer _ _ _ (hbacked.customers hentry)
  products hentry := hproduct _ _ _ (hbacked.products hentry)
  customersLifetime := hbacked.customersLifetime
  productsLifetime := hbacked.productsLifetime

variable (hbacked : cache.Backed lifetimeMillis customer product)

include hbacked

/-- An answer about a customer was backed less than a lifetime ago. -/
theorem getCustomer {id : Int} {known : Bool}
    (hanswer : (cache.getCustomer now id).1 = some known) :
    ∃ since, customer id known since ∧ now < since + lifetimeMillis := by
  obtain ⟨since, hentry, hfresh⟩ := ExpiringCache.exists_of_look? hanswer
  exact ⟨since, hbacked.customers hentry, hbacked.customersLifetime ▸ hfresh⟩

/-- So was an answer about a product; that there is none is never answered. -/
theorem getProduct {code : String} {answer : Option Product}
    (hanswer : (cache.getProduct now code).1 = some answer) :
    ∃ found since, answer = some found ∧ product code found since ∧
      now < since + lifetimeMillis := by
  obtain ⟨found, hlook, rfl⟩ := Option.map_eq_some_iff.mp hanswer
  obtain ⟨since, hentry, hfresh⟩ := ExpiringCache.exists_of_look? hlook
  exact ⟨found, since, rfl, hbacked.products hentry, hbacked.productsLifetime ▸ hfresh⟩

theorem forgetCustomer (id : Int) :
    (cache.getCustomer now id).2.Backed lifetimeMillis customer product where
  customers hentry := hbacked.customers (ExpiringCache.mem_of_mem_dropExpired hentry)
  products hentry := hbacked.products hentry
  customersLifetime := (ExpiringCache.lifetimeMillis_dropExpired ..).trans
    hbacked.customersLifetime
  productsLifetime := hbacked.productsLifetime

theorem forgetProduct (code : String) :
    (cache.getProduct now code).2.Backed lifetimeMillis customer product where
  customers hentry := hbacked.customers hentry
  products hentry := hbacked.products (ExpiringCache.mem_of_mem_dropExpired hentry)
  customersLifetime := hbacked.customersLifetime
  productsLifetime := (ExpiringCache.lifetimeMillis_dropExpired ..).trans
    hbacked.productsLifetime

theorem putCustomer {id : Int} {known : Bool} (hcustomer : customer id known now) :
    (cache.putCustomer now id known).Backed lifetimeMillis customer product where
  customers hentry := by
    rcases ExpiringCache.mem_of_mem_insert hentry with hnew | hold
    · cases hnew
      exact hcustomer
    · exact hbacked.customers hold
  products hentry := hbacked.products hentry
  customersLifetime := hbacked.customersLifetime
  productsLifetime := hbacked.productsLifetime

theorem putProduct {code : String} {answer : Option Product}
    (hproduct : ∀ found, answer = some found → product code found now) :
    (cache.putProduct now code answer).Backed lifetimeMillis customer product := by
  cases answer with
  | none => exact hbacked
  | some found =>
      refine ⟨fun hentry => hbacked.customers hentry, ?_, hbacked.customersLifetime,
        hbacked.productsLifetime⟩
      intro code entry hentry
      rcases ExpiringCache.mem_of_mem_insert hentry with hnew | hold
      · cases hnew
        exact hproduct found rfl
      · exact hbacked.products hold

end Backed

end ReferenceCache

end Clearing
