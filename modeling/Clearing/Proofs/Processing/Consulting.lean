import Clearing.Proofs.Cache.Lookups
import Clearing.Proofs.Processing.Hearing
import Clearing.Proofs.Transaction.RuleOrder

/-!
# What a check consults

A check consults the cache and the store: first about the customer and then, if the customer
is known, about the product (`Consultation.of`).  How long that takes and what is heard is
settled when the check begins.  A lookup that fails ends the check in its own way; otherwise
the rules decide (`Consultation.ending`).

What a check leaves behind are the counts of the requests that it made, and what it heard in
time (`Consultation.Leaves`).
-/

namespace Clearing

/-! ## What one lookup leaves behind -/

namespace Lookup

variable {α : Type} {lookup : Lookup α} {now limitMillis : Nat} {resources : Resources}

/-- The resources after a lookup that was given up once it had taken too long. -/
def left (lookup : Lookup α) (now limitMillis : Nat) (resources : Resources) : Resources :=
  if (lookup.hearing now resources).millis ≤ limitMillis then lookup.informed now resources
  else lookup.inquired now resources

theorem store_left (lookup : Lookup α) (now limitMillis : Nat) (resources : Resources) :
    (lookup.left now limitMillis resources).store =
      if (lookup.hearing now resources).asked then resources.store.meet lookup.request.kind
      else resources.store := by
  unfold left informed
  split
  · dsimp only
    split <;> rfl
  · rfl

theorem summaries_left (lookup : Lookup α) (now limitMillis : Nat) (resources : Resources) :
    (lookup.left now limitMillis resources).summaries = resources.summaries := by
  unfold left informed
  split
  · dsimp only
    split <;> rfl
  · rfl

theorem left_of_le (htime : (lookup.hearing now resources).millis ≤ limitMillis) :
    lookup.left now limitMillis resources = lookup.informed now resources :=
  if_pos htime

theorem left_of_lt (htime : limitMillis < (lookup.hearing now resources).millis) :
    lookup.left now limitMillis resources = lookup.inquired now resources :=
  if_neg (Nat.not_le_of_lt htime)

theorem books_left (lookup : Lookup α) (now limitMillis : Nat) (resources : Resources) :
    (lookup.left now limitMillis resources).books = resources.books := by
  have hledger : (lookup.left now limitMillis resources).store.ledger =
      resources.store.ledger := by
    rw [store_left]
    split <;> rfl
  rw [Resources.books, Resources.books, hledger, summaries_left]

/-- Requests of other kinds meet what they met before. -/
theorem conditions_left (lookup : Lookup α) {kind : RequestKind}
    (hkind : kind ≠ lookup.request.kind) (now limitMillis : Nat) (resources : Resources) :
    (lookup.left now limitMillis resources).store.conditions.of kind =
      resources.store.conditions.of kind := by
  rw [store_left]
  split
  · rw [Store.of_meet, if_neg hkind]
  · rfl

theorem calls_left (lookup : Lookup α) (now limitMillis : Nat) (resources : Resources) :
    ((lookup.left now limitMillis resources).store.conditions.of lookup.request.kind).calls =
      (resources.store.conditions.of lookup.request.kind).calls +
        (lookup.hearing now resources).asked.toNat := by
  rw [store_left]
  cases (lookup.hearing now resources).asked <;> simp

/-- Nothing is remembered of what the cache had. -/
theorem references_left_of_cached {found : α}
    (hfound : (lookup.cached resources.references now).1 = some found) :
    (lookup.left now limitMillis resources).references =
      (lookup.cached resources.references now).2 := by
  rw [left, informed, inquired, hearing_of_cached hfound]
  rfl

/-- What the store says in time is remembered. -/
theorem references_left_of_not_cached
    (hnone : (lookup.cached resources.references now).1 = none) :
    (lookup.left now limitMillis resources).references =
      match (lookup.hearing now resources).kept? now limitMillis with
      | some entry =>
        lookup.remember (lookup.cached resources.references now).2 entry.since entry.value
      | none => (lookup.cached resources.references now).2 := by
  have hasked := asked_eq_true_iff.mpr hnone
  unfold left Hearing.kept?
  by_cases htime : (lookup.hearing now resources).millis ≤ limitMillis
  · rw [if_pos htime, if_pos htime, informed, if_pos hasked]
    cases (lookup.hearing now resources).ending.value? <;> rfl
  · rw [if_neg htime, if_neg htime]
    rfl

/-- A view of the cache that the lookup does not change. -/
theorem keeps_left {β : Type} (view : ReferenceCache → β)
    (hcached : ∀ cache, view (lookup.cached cache now).2 = view cache)
    (hremember : ∀ cache time answer, view (lookup.remember cache time answer) = view cache) :
    view (lookup.left now limitMillis resources).references = view resources.references := by
  cases hfound : (lookup.cached resources.references now).1 with
  | some found => rw [references_left_of_cached hfound, hcached]
  | none =>
      rw [references_left_of_not_cached hfound]
      split
      · rw [hremember, hcached]
      · rw [hcached]

theorem products_left_customerExists (id : Int) (now limitMillis : Nat) (resources : Resources) :
    ((customerExists id).left now limitMillis resources).references.products =
      resources.references.products :=
  keeps_left ReferenceCache.products (fun _ => rfl) fun _ _ _ => rfl

theorem customers_left_product (code : String) (now limitMillis : Nat) (resources : Resources) :
    ((product code).left now limitMillis resources).references.customers =
      resources.references.customers := by
  refine keeps_left ReferenceCache.customers (fun _ => rfl) fun cache time answer => ?_
  cases answer <;> rfl

end Lookup

/-- The entry for something that was found. -/
def Aged.found? {ν : Type} (entry : Aged (Option ν)) : Option (Aged ν) :=
  entry.value.map fun value => ⟨value, entry.since⟩

/-- What a lookup of a key, made or not, leaves in a cache and in the counts of the store: one
request if the store was asked, and then nothing about the key but the entry that was made of
the answer, if there is one. -/
structure Resources.Inquired {κ ν : Type} [Ord κ] (kind : RequestKind)
    (cache : Resources → ExpiringCache κ ν) (key : κ) (asked : Bool) (kept? : Option (Aged ν))
    (before after : Resources) : Prop where
  calls : (after.store.conditions.of kind).calls =
    (before.store.conditions.of kind).calls + asked.toNat
  silent (hasked : asked = false) : cache after = cache before
  heard (hasked : asked = true) : ExpiringCache.LookedUp key kept? (cache before) (cache after)

namespace Lookup

variable {now limitMillis : Nat} {resources : Resources}

theorem exists_cached {α : Type} {lookup : Lookup α}
    (hasked : (lookup.hearing now resources).asked = false) :
    ∃ found, (lookup.cached resources.references now).1 = some found := by
  cases hcached : (lookup.cached resources.references now).1 with
  | none =>
      rw [asked_eq_true_iff.mpr hcached] at hasked
      cases hasked
  | some found => exact ⟨found, rfl⟩

/-- **What the lookup of a customer leaves behind.** -/
theorem inquired_customerExists (id : Int) (now limitMillis : Nat) (resources : Resources) :
    resources.Inquired .customerLookup (·.references.customers) id
      ((customerExists id).hearing now resources).asked
      (((customerExists id).hearing now resources).kept? now limitMillis)
      ((customerExists id).left now limitMillis resources) where
  calls := calls_left (customerExists id) now limitMillis resources
  silent hasked := by
    obtain ⟨found, hfound⟩ := exists_cached hasked
    rw [references_left_of_cached hfound]
    exact ExpiringCache.dropExpired_of_look?_isSome (Option.isSome_of_eq_some hfound)
  heard hasked := by
    have hnone := asked_eq_true_iff.mp hasked
    have hdropped : ExpiringCache.LookedUp id none resources.references.customers
        (resources.references.customers.dropExpired now id) :=
      ExpiringCache.lookedUp_dropExpired hnone
    rw [references_left_of_not_cached hnone]
    cases ((customerExists id).hearing now resources).kept? now limitMillis with
    | none => exact hdropped
    | some entry => exact hdropped.insert entry.since entry.value

/-- **What the lookup of a product leaves behind**: that there is none is not kept. -/
theorem inquired_product (code : String) (now limitMillis : Nat) (resources : Resources) :
    resources.Inquired .productLookup (·.references.products) code
      ((product code).hearing now resources).asked
      ((((product code).hearing now resources).kept? now limitMillis).bind Aged.found?)
      ((product code).left now limitMillis resources) where
  calls := calls_left (product code) now limitMillis resources
  silent hasked := by
    obtain ⟨found, hfound⟩ := exists_cached hasked
    rw [references_left_of_cached hfound]
    obtain ⟨known, hknown, -⟩ := Option.map_eq_some_iff.mp hfound
    exact ExpiringCache.dropExpired_of_look?_isSome (Option.isSome_of_eq_some hknown)
  heard hasked := by
    have hnone := asked_eq_true_iff.mp hasked
    have hdropped : ExpiringCache.LookedUp code none resources.references.products
        (resources.references.products.dropExpired now code) :=
      ExpiringCache.lookedUp_dropExpired (Option.map_eq_none_iff.mp hnone)
    rw [references_left_of_not_cached hnone]
    cases ((product code).hearing now resources).kept? now limitMillis with
    | none => exact hdropped
    | some entry =>
        obtain ⟨found, since⟩ := entry
        cases found with
        | none => exact hdropped
        | some found => exact hdropped.insert since found

end Lookup

/-! ## What a check consults -/

/-- The lookups that a check makes. -/
structure Consultation where
  customer? : Option (Hearing Bool)
  product? : Option (Hearing (Option Product))

namespace Consultation

/-- Without a transaction there is nothing to look up.  The product is looked up as soon as the
customer is known, and only then. -/
def of (transaction : Option Transaction) (now : Nat) (resources : Resources) : Consultation :=
  match transaction with
  | none => { customer? := none, product? := none }
  | some transaction =>
    let customer := (Lookup.customerExists transaction.customer).hearing now resources
    { customer? := some customer
      product? :=
        if customer.ending.value? = some true then
          some ((Lookup.product transaction.product).hearing (now + customer.millis) resources)
        else none }

/-- The time that the lookups take. -/
def millis (consultation : Consultation) : Nat :=
  (consultation.customer?.elim 0 Hearing.millis) + consultation.product?.elim 0 Hearing.millis

/-- The ending of the first lookup that was not answered. -/
def failure? (consultation : Consultation) : Option (Ending Unit) :=
  (consultation.customer?.bind fun hearing => hearing.ending.failure?).or
    (consultation.product?.bind fun hearing => hearing.ending.failure?)

/-- The product that is heard of. -/
def found? (consultation : Consultation) : Option Product :=
  consultation.product?.bind fun hearing => hearing.ending.value?.join

/-- What there is to know, at a given time of day. -/
def findings (consultation : Consultation) (clock : Timestamp) : Findings :=
  { known := consultation.customer?.any fun hearing => hearing.ending.value? = some true
    product := consultation.found?
    clock }

/-- What the check comes to: the failure of a lookup, or else what the rules say. -/
def ending (consultation : Consultation) (transaction : Option Transaction) (clock : Timestamp) :
    Ending Unit :=
  match consultation.failure? with
  | some ending => ending
  | none =>
    .returned ((Rule.verdict transaction (consultation.findings clock)).mapError .validation)

/-- What the check comes to under a deadline. -/
def timedEnding (consultation : Consultation) (transaction : Option Transaction)
    (clock : Nat → Timestamp) (now limitMillis : Nat) : Ending Unit :=
  if consultation.millis ≤ limitMillis then
    consultation.ending transaction (clock (now + consultation.millis))
  else .returned (.error (.timeout validationStage (.ofMillis limitMillis)))

/-- The store is asked about the customer. -/
def asksCustomer (consultation : Consultation) : Bool :=
  consultation.customer?.any Hearing.asked

/-- The store is asked about the product, which takes that the customer was heard of in time. -/
def asksProduct (consultation : Consultation) (limitMillis : Nat) : Bool :=
  consultation.product?.any Hearing.asked &&
    consultation.customer?.any fun hearing => hearing.millis ≤ limitMillis

/-- The entry that is made of what is heard of the customer, if that is in time. -/
def keptCustomer? (consultation : Consultation) (now limitMillis : Nat) : Option (Aged Bool) :=
  consultation.customer?.bind fun hearing => hearing.kept? now limitMillis

/-- The entry that is made of the product that is heard of, if that is in time. -/
def keptProduct? (consultation : Consultation) (now limitMillis : Nat) : Option (Aged Product) :=
  if consultation.millis ≤ limitMillis then
    consultation.found?.map fun product => ⟨product, now + consultation.millis⟩
  else none

/-- The resources after the check, which is given up once it has taken too long. -/
def left (transaction : Option Transaction) (now limitMillis : Nat) (resources : Resources) :
    Resources :=
  match transaction with
  | none => resources
  | some transaction =>
    let customer := Lookup.customerExists transaction.customer
    let hearing := customer.hearing now resources
    let told := customer.left now limitMillis resources
    if hearing.millis ≤ limitMillis ∧ hearing.ending.value? = some true then
      (Lookup.product transaction.product).left (now + hearing.millis)
        (limitMillis - hearing.millis) told
    else told

end Consultation

section Parts

variable {transaction : Transaction} {now limitMillis : Nat} {resources : Resources}

theorem Lookup.hearing_product_congr {code : String} {later : Nat} {other : Resources}
    (hproducts : other.references.products = resources.references.products)
    (hbooks : other.books = resources.books)
    (hcondition : other.store.conditions.of .productLookup =
      resources.store.conditions.of .productLookup) :
    (product code).hearing later other = (product code).hearing later resources := by
  have hledger : other.store.ledger = resources.store.ledger := congrArg Prod.fst hbooks
  simp only [hearing, product, ReferenceCache.getProduct, Request.product, Request.look,
    hproducts, hledger, hcondition]

/-- What is heard of a product does not depend on what was asked about a customer. -/
theorem Lookup.hearing_product_informed (code : String) (id : Int) (now later : Nat)
    (resources : Resources) :
    (product code).hearing later ((customerExists id).informed now resources) =
      (product code).hearing later resources := by
  rw [← left_of_le (Nat.le_refl _)]
  exact hearing_product_congr (products_left_customerExists ..) (books_left ..)
    (conditions_left _ (show RequestKind.productLookup ≠ .customerLookup by decide) ..)

namespace Consultation

theorem millis_pair (customer : Hearing Bool) (product : Hearing (Option Product)) :
    (Consultation.mk (some customer) (some product)).millis = customer.millis + product.millis :=
  rfl

/-- Whether the store is asked about the product that is looked up behind a customer. -/
theorem asksProduct_of_le {customer : Hearing Bool} (product? : Option (Hearing (Option Product)))
    (htime : customer.millis ≤ limitMillis) :
    (Consultation.mk (some customer) product?).asksProduct limitMillis =
      product?.any Hearing.asked := by
  simp [asksProduct, htime]

theorem asksProduct_of_lt {customer : Hearing Bool} (product? : Option (Hearing (Option Product)))
    (htime : limitMillis < customer.millis) :
    (Consultation.mk (some customer) product?).asksProduct limitMillis = false := by
  simp [asksProduct, htime]

theorem of_of_unknown
    (hunknown : ((Lookup.customerExists transaction.customer).hearing now
      resources).ending.value? ≠ some true) :
    of (some transaction) now resources =
      { customer? := some ((Lookup.customerExists transaction.customer).hearing now resources)
        product? := none } := by
  simp only [of, if_neg hunknown]

theorem of_of_known
    (hknown : ((Lookup.customerExists transaction.customer).hearing now
      resources).ending.value? = some true) :
    of (some transaction) now resources =
      { customer? := some ((Lookup.customerExists transaction.customer).hearing now resources)
        product? := some ((Lookup.product transaction.product).hearing
          (now + ((Lookup.customerExists transaction.customer).hearing now resources).millis)
          resources) } := by
  simp only [of, if_pos hknown]

theorem left_of_unknown
    (hunknown : ((Lookup.customerExists transaction.customer).hearing now
      resources).ending.value? ≠ some true) :
    left (some transaction) now limitMillis resources =
      (Lookup.customerExists transaction.customer).left now limitMillis resources :=
  if_neg fun hknown => hunknown hknown.2

theorem left_of_known
    (hknown : ((Lookup.customerExists transaction.customer).hearing now
      resources).ending.value? = some true)
    (htime : ((Lookup.customerExists transaction.customer).hearing now resources).millis ≤
      limitMillis) :
    left (some transaction) now limitMillis resources =
      (Lookup.product transaction.product).left
        (now + ((Lookup.customerExists transaction.customer).hearing now resources).millis)
        (limitMillis - ((Lookup.customerExists transaction.customer).hearing now resources).millis)
        ((Lookup.customerExists transaction.customer).informed now resources) := by
  rw [← Lookup.left_of_le htime]
  exact if_pos ⟨htime, hknown⟩

/-- The product is not looked up when the time is over. -/
theorem left_of_lt
    (htime : limitMillis <
      ((Lookup.customerExists transaction.customer).hearing now resources).millis) :
    left (some transaction) now limitMillis resources =
      (Lookup.customerExists transaction.customer).inquired now resources := by
  rw [← Lookup.left_of_lt htime]
  exact if_neg fun hheard => Nat.not_le_of_lt htime hheard.1

end Consultation

end Parts

/-! ## What a check leaves behind -/

/-- What a check that may take so long leaves behind: the counts of the requests that it made, and
entries for what it heard in time. -/
structure Consultation.Leaves (transaction : Option Transaction) (now limitMillis : Nat)
    (before after : Resources) : Prop where
  books : after.books = before.books
  conditions {kind : RequestKind} (hcustomer : kind ≠ .customerLookup)
    (hproduct : kind ≠ .productLookup) :
    after.store.conditions.of kind = before.store.conditions.of kind
  nothing (hnone : transaction = none) : after = before
  customer : ∀ purchase ∈ transaction,
    before.Inquired .customerLookup (·.references.customers) purchase.customer
      (of transaction now before).asksCustomer
      ((of transaction now before).keptCustomer? now limitMillis) after
  product : ∀ purchase ∈ transaction,
    before.Inquired .productLookup (·.references.products) purchase.product
      ((of transaction now before).asksProduct limitMillis)
      ((of transaction now before).keptProduct? now limitMillis) after

section Leaves

variable {transaction : Transaction} {now limitMillis : Nat} {resources : Resources}

/-- The lookup of a product leaves what is known about customers alone. -/
theorem Resources.Inquired.left_product {asked : Bool} {id : Int} {kept? : Option (Aged Bool)}
    {after : Resources}
    (hinquired : resources.Inquired .customerLookup (·.references.customers) id asked kept? after)
    (code : String) (time allowed : Nat) :
    resources.Inquired .customerLookup (·.references.customers) id asked kept?
      ((Lookup.product code).left time allowed after) where
  calls := by
    rw [Lookup.conditions_left (Lookup.product code)
      (show RequestKind.customerLookup ≠ .productLookup by decide)]
    exact hinquired.calls
  silent hasked := (Lookup.customers_left_product ..).trans (hinquired.silent hasked)
  heard hasked := by
    have hheard := hinquired.heard hasked
    rw [← Lookup.customers_left_product code time allowed after] at hheard
    exact hheard

/-- The lookup of a customer leaves what is known about products alone. -/
theorem Resources.Inquired.of_customer {id : Int} {asked : Bool} {code : String}
    {kept? : Option (Aged Product)} {after : Resources}
    (hinquired : ((Lookup.customerExists id).left now limitMillis resources).Inquired
      .productLookup (·.references.products) code asked kept? after) :
    resources.Inquired .productLookup (·.references.products) code asked kept? after where
  calls := by
    rw [hinquired.calls, Lookup.conditions_left (Lookup.customerExists id)
      (show RequestKind.productLookup ≠ .customerLookup by decide)]
  silent hasked := (hinquired.silent hasked).trans (Lookup.products_left_customerExists ..)
  heard hasked := by
    have hheard := hinquired.heard hasked
    rw [Lookup.products_left_customerExists id now limitMillis resources] at hheard
    exact hheard

/-- A product that is not looked up is left alone. -/
theorem Resources.inquired_product_of_not_asked (id : Int) (code : String) (now limitMillis : Nat)
    (kept? : Option (Aged Product)) (resources : Resources) :
    resources.Inquired .productLookup (·.references.products) code false kept?
      ((Lookup.customerExists id).left now limitMillis resources) where
  calls := congrArg Condition.calls
    (Lookup.conditions_left _ (show RequestKind.productLookup ≠ .customerLookup by decide) ..)
  silent _ := Lookup.products_left_customerExists ..
  heard := nofun

namespace Consultation

/-- What is kept of a product is what was found of it in time. -/
theorem keptProduct?_pair (customer : Hearing Bool) (product : Hearing (Option Product))
    (now : Nat) (htime : customer.millis ≤ limitMillis) :
    (product.kept? (now + customer.millis) (limitMillis - customer.millis)).bind Aged.found? =
      (Consultation.mk (some customer) (some product)).keptProduct? now limitMillis := by
  have hwithin : product.millis ≤ limitMillis - customer.millis ↔
      (Consultation.mk (some customer) (some product)).millis ≤ limitMillis := by
    rw [millis_pair]
    omega
  rw [Hearing.kept?, keptProduct?]
  by_cases hall : (Consultation.mk (some customer) (some product)).millis ≤ limitMillis
  · rw [if_pos (hwithin.mpr hall), if_pos hall, found?, Option.bind_some, millis_pair,
      ← Nat.add_assoc]
    rcases product.ending.value? with _ | _ | found <;> rfl
  · rw [if_neg fun hproduct => hall (hwithin.mp hproduct), if_neg hall]
    rfl

/-- A product that is not looked up. -/
private theorem leaves_customer
    (hleft : left (some transaction) now limitMillis resources =
      (Lookup.customerExists transaction.customer).left now limitMillis resources)
    (hsilent : (of (some transaction) now resources).asksProduct limitMillis = false) :
    Leaves (some transaction) now limitMillis resources
      (left (some transaction) now limitMillis resources) := by
  rw [hleft]
  refine ⟨Lookup.books_left .., fun hcustomer _ => Lookup.conditions_left _ hcustomer .., nofun,
    ?_, ?_⟩
  · rintro purchase ⟨⟩
    exact Lookup.inquired_customerExists transaction.customer now limitMillis resources
  · rintro purchase ⟨⟩
    rw [hsilent]
    exact Resources.inquired_product_of_not_asked ..

/-- A product that is looked up, behind a customer that was heard of in time. -/
private theorem leaves_product
    (hknown : ((Lookup.customerExists transaction.customer).hearing now
      resources).ending.value? = some true)
    (htime : ((Lookup.customerExists transaction.customer).hearing now resources).millis ≤
      limitMillis) :
    Leaves (some transaction) now limitMillis resources
      (left (some transaction) now limitMillis resources) := by
  have hcustomer := Lookup.inquired_customerExists transaction.customer now limitMillis resources
  have hbooks := Lookup.books_left (Lookup.customerExists transaction.customer) now limitMillis
    resources
  have hproduct := Lookup.inquired_product transaction.product
    (now + ((Lookup.customerExists transaction.customer).hearing now resources).millis)
    (limitMillis - ((Lookup.customerExists transaction.customer).hearing now resources).millis)
    ((Lookup.customerExists transaction.customer).informed now resources)
  rw [Lookup.hearing_product_informed, keptProduct?_pair _ _ _ htime, ← of_of_known hknown,
    ← Lookup.left_of_le htime] at hproduct
  rw [left_of_known hknown htime, ← Lookup.left_of_le htime]
  refine ⟨(Lookup.books_left ..).trans hbooks, ?_, nofun, ?_, ?_⟩
  · intro kind hcustomers hproducts
    rw [Lookup.conditions_left _ hproducts, Lookup.conditions_left _ hcustomers]
  · rintro purchase ⟨⟩
    exact hcustomer.left_product ..
  · rintro purchase ⟨⟩
    have hasked : (of (some transaction) now resources).asksProduct limitMillis =
        ((Lookup.product transaction.product).hearing
          (now + ((Lookup.customerExists transaction.customer).hearing now resources).millis)
          resources).asked := by
      rw [of_of_known hknown, asksProduct_of_le _ htime, Option.any_some]
    rw [hasked]
    exact hproduct.of_customer

theorem leaves_left (transaction : Option Transaction) (now limitMillis : Nat)
    (resources : Resources) :
    Leaves transaction now limitMillis resources (left transaction now limitMillis resources) := by
  cases transaction with
  | none =>
      exact ⟨rfl, fun _ _ => rfl, fun _ => rfl,
        fun _ hpurchase => absurd hpurchase (Option.not_mem_none _),
        fun _ hpurchase => absurd hpurchase (Option.not_mem_none _)⟩
  | some transaction =>
      by_cases hlate : limitMillis <
          ((Lookup.customerExists transaction.customer).hearing now resources).millis
      · apply leaves_customer
        · rw [left_of_lt hlate, Lookup.left_of_lt hlate]
        · exact asksProduct_of_lt _ hlate
      · by_cases hknown : ((Lookup.customerExists transaction.customer).hearing now
            resources).ending.value? = some true
        · exact leaves_product hknown (Nat.le_of_not_lt hlate)
        · apply leaves_customer
          · rw [left_of_unknown hknown]
          · rw [of_of_unknown hknown]
            rfl

/-- The store is asked about the customer exactly if the cache has no valid answer. -/
theorem asksCustomer_iff {purchase : Transaction} :
    (of (some purchase) now resources).asksCustomer = true ↔
      resources.references.customers.look? now purchase.customer = none :=
  Lookup.asked_eq_true_iff

/-- The store is asked about the product exactly if the customer is heard to be known, in time, and
the cache has no valid answer then. -/
theorem asksProduct_iff {purchase : Transaction} :
    (of (some purchase) now resources).asksProduct limitMillis = true ↔
      ∃ customer, (of (some purchase) now resources).customer? = some customer ∧
        customer.ending.value? = some true ∧ customer.millis ≤ limitMillis ∧
        resources.references.products.look? (now + customer.millis) purchase.product = none := by
  by_cases hknown : ((Lookup.customerExists purchase.customer).hearing now
      resources).ending.value? = some true
  · rw [of_of_known hknown, asksProduct, Bool.and_eq_true]
    have hasked := @Lookup.asked_eq_true_iff _ (Lookup.product purchase.product) resources
      (now + ((Lookup.customerExists purchase.customer).hearing now resources).millis)
    constructor
    · rintro ⟨hproduct, hcustomer⟩
      exact ⟨_, rfl, hknown, of_decide_eq_true hcustomer,
        Option.map_eq_none_iff.mp (hasked.mp hproduct)⟩
    · rintro ⟨customer, hcustomer, -, htime, hnone⟩
      cases hcustomer
      exact ⟨hasked.mpr (Option.map_eq_none_iff.mpr hnone), decide_eq_true htime⟩
  · rw [of_of_unknown hknown]
    refine iff_of_false nofun ?_
    rintro ⟨customer, hcustomer, hheard, -⟩
    cases hcustomer
    exact hknown hheard

end Consultation

end Leaves

end Clearing
