import Clearing.Proofs.Crowd.References
import Clearing.Proofs.Operation.Proceeding
import Clearing.Proofs.Transaction.Rules

/-!
# Processing when nothing is in the way

The resources are settled if the store answers at once and never fails, and if
the caches say what the reference data says (`Resources.Settled`).  Whatever
operations do leaves them settled.  Then a transaction is processed without
waiting: it is saved if it satisfies the rules by the reference data and the time
of day (`Ledger.accepts`), and otherwise it fails with the rule that it violates
(`timedProcessing_leads`).
-/

namespace Clearing

/-! ## Verdicts -/

namespace Ledger

/-- By the reference data and the time of day a transaction satisfies all rules. -/
def accepts (reference : Ledger) (clock : Timestamp) (transaction : Transaction) : Bool :=
  reference.hasCustomer transaction.customer &&
    match reference.product? transaction.product with
    | none => false
    | some product =>
      product.isActive && (checkCost product.cost transaction.quantity).isOk &&
        decide (0 < transaction.quantity) && !isPast clock transaction.time

/-- What is said about a transaction by the reference data and the time of day. -/
def verdict (reference : Ledger) (clock : Timestamp) (transaction : Transaction) :
    Except Violation Unit :=
  if reference.hasCustomer transaction.customer then
    transaction.checkAgainst (reference.product? transaction.product) clock
  else .error (.unknownCustomer transaction.customer)

variable {reference : Ledger} {clock : Timestamp} {transaction : Transaction}

/-- The transactions that satisfy the rules are those about which nothing is said. -/
theorem verdict_eq_ok_iff :
    reference.verdict clock transaction = .ok () ↔ reference.accepts clock transaction = true := by
  unfold verdict accepts
  cases reference.hasCustomer transaction.customer with
  | false => simp
  | true =>
      cases reference.product? transaction.product with
      | none => simp [Transaction.checkAgainst, throw, throwThe, MonadExceptOf.throw]
      | some product =>
          rw [if_pos rfl, Transaction.checkAgainst_some_eq_ok_iff]
          cases hcost : checkCost product.cost transaction.quantity <;>
            simp [hcost, Except.isOk, Except.toBool, and_assoc]

end Ledger

/-! ## Settled resources -/

/-- Requests are answered at once, and the ledger and the caches say what the reference data
says. -/
structure Resources.Settled (reference : Ledger) (resources : Resources) : Prop where
  fair : resources.IsFair
  customer (id : Int) : resources.store.ledger.hasCustomer id = reference.hasCustomer id
  product (code : String) : resources.store.ledger.product? code = reference.product? code
  backed : ∃ lifetimeMillis, resources.references.Backed lifetimeMillis
    (fun id known _ => reference.hasCustomer id = known)
    fun code found _ => reference.product? code = some found

variable {reference : Ledger} {resources : Resources} {now : Nat}

theorem Resources.settled_new (ledger : Ledger) (lifetimeMillis : Nat) :
    (Resources.new ledger lifetimeMillis).Settled ledger :=
  ⟨isFair_new ledger lifetimeMillis, fun _ => rfl, fun _ => rfl,
    ⟨lifetimeMillis, ReferenceCache.backed_empty ..⟩⟩

/-- What operations do leaves the resources settled. -/
theorem Resources.Change.settled {next : Resources} (hchange : resources.Change now next)
    (hsettled : resources.Settled reference) : next.Settled reference where
  fair := hchange.isFair hsettled.fair
  customer id := by
    cases hchange with
    | save transaction =>
        obtain ⟨_, _, -, hsave⟩ := resources.store.ledger.save_eq transaction
        simp only [mapLedger, hsave]
        exact hsettled.customer id
    | _ => exact hsettled.customer id
  product code := by
    cases hchange with
    | save transaction =>
        obtain ⟨_, _, -, hsave⟩ := resources.store.ledger.save_eq transaction
        simp only [mapLedger, hsave]
        exact hsettled.product code
    | _ => exact hsettled.product code
  backed := by
    obtain ⟨lifetimeMillis, hbacked⟩ := hsettled.backed
    refine ⟨lifetimeMillis, hchange.backed hbacked (fun id => (hsettled.customer id).symm) ?_⟩
    intro code found hfound
    rw [← hsettled.product, hfound]

/-- Where operations lead the resources are settled. -/
theorem Operation.Leads.settled {ω α : Type} {operation : Operation Resources ω α}
    (hchanges : operation.Changes) {before after : Resources × ω}
    (hleads : operation.Leads now before after) (hsettled : before.1.Settled reference) :
    after.1.Settled reference := by
  induction hleads with
  | refl => exact hsettled
  | tail _ hlast ih => exact (hchanges hlast.step).settled ih

/-! ## Requests and lookups -/

namespace Request

variable {α β : Type} {request : Request β α} {store : Store} {read : β}

/-- A request that meets no trouble is let in at once. -/
theorem arrive_of_isFair (hfair : (store.conditions.of request.kind).IsFair)
    (hread : request.read store.ledger = .ok read) (now : Nat) :
    ∃ counted : Store, counted.ledger = store.ledger ∧
      request.arrive now store = (counted, .concluding read false) := by
  obtain ⟨hdelay, hfailures, haborts⟩ := hfair
  have hstate : (request.arrive now store).2 = .concluding read false := by
    simp [arrive, hread, hdelay, hfailures, haborts]
  exact ⟨_, ledger_arrive request now store, Prod.ext rfl hstate⟩

theorem conclude_false (request : Request β α) (store : Store) (read : β) :
    request.conclude store read false =
      ({ store with ledger := (request.perform read store.ledger).2 },
        .answered (.returned (.ok (request.perform read store.ledger).1))) := rfl

/-- A request that meets no trouble is answered without waiting. -/
theorem leads (hfair : (store.conditions.of request.kind).IsFair)
    (hread : request.read store.ledger = .ok read) :
    ∃ later : Store,
      request.operation.Leads now (store, .arriving)
        (later, .answered (.returned (.ok (request.perform read store.ledger).1))) := by
  obtain ⟨counted, hledger, harrive⟩ := arrive_of_isFair hfair hread now
  have hfirst : request.operation.Proceeds now (store, .arriving)
      (counted, .concluding read false) :=
    ⟨rfl, congrArg some harrive, Nat.lt_succ_self _⟩
  have hlast : request.operation.Proceeds now (counted, .concluding read false)
      (request.conclude counted read false) := ⟨rfl, rfl, Nat.one_pos⟩
  rw [conclude_false, hledger] at hlast
  exact ⟨_, .head hfirst (.single hlast)⟩

end Request

namespace Lookup

variable {α : Type} {lookup : Lookup α} {kind : RequestKind} {answer : Ledger → α}

/-- **A lookup is told what the reference data says**, by the cache or by the store. -/
theorem Laws.leads (hlaws : lookup.Laws kind answer) (hsettled : resources.Settled reference)
    (hcached : ∀ found, (lookup.cached resources.references now).1 = some found →
      found = answer resources.store.ledger) :
    ∃ later, lookup.operation.Leads now (resources, .looking)
      (later, .done (.returned (.ok (answer resources.store.ledger)))) := by
  obtain ⟨cached, request, remember⟩ := lookup
  obtain rfl : request = .look kind answer := hlaws.request
  cases hfound : (cached resources.references now).1 with
  | some found =>
      rw [← hcached found hfound]
      refine ⟨{ resources with references := (cached resources.references now).2 },
        .single ⟨rfl, ?_, Nat.succ_pos 2⟩⟩
      simp only [operation, hfound]
  | none =>
      obtain ⟨counted, hledger, harrive⟩ :
          ∃ counted : Store, counted.ledger = resources.store.ledger ∧
            (Request.look kind answer).arrive now resources.store =
              (counted, .concluding () false) :=
        Request.arrive_of_isFair (hsettled.fair kind) rfl now
      have hlook : (operation ⟨cached, .look kind answer, remember⟩).Proceeds now
          (resources, .looking)
          ({ resources with references := (cached resources.references now).2 },
            .asking .arriving) := by
        refine ⟨rfl, ?_, Nat.lt_succ_self 2⟩
        simp only [operation, hfound]
      have hask : (operation ⟨cached, .look kind answer, remember⟩).Proceeds now
          ({ resources with references := (cached resources.references now).2 },
            .asking .arriving)
          ({ resources with
              references := (cached resources.references now).2
              store := counted },
            .asking (.concluding () false)) := by
        refine ⟨rfl, ?_, Nat.lt_succ_self 1⟩
        simp only [operation, Request.operation, harrive]
        rfl
      rw [← hledger]
      exact ⟨_, .head hlook (.head hask (.single ⟨rfl, rfl, Nat.one_pos⟩))⟩

theorem customerExists_leads (hsettled : resources.Settled reference) (now : Nat) (id : Int) :
    ∃ later, (customerExists id).operation.Leads now (resources, .looking)
      (later, .done (.returned (.ok (reference.hasCustomer id)))) ∧ later.Settled reference := by
  obtain ⟨lifetimeMillis, hbacked⟩ := hsettled.backed
  have hcached : ∀ known, (resources.references.getCustomer now id).1 = some known →
      known = resources.store.ledger.hasCustomer id := by
    intro known hknown
    obtain ⟨since, htrue, -⟩ := hbacked.getCustomer hknown
    rw [hsettled.customer, htrue]
  obtain ⟨later, hleads⟩ := (laws_customerExists id).leads hsettled hcached
  rw [hsettled.customer] at hleads
  exact ⟨later, hleads, hleads.settled (laws_customerExists id).changes hsettled⟩

theorem product_leads (hsettled : resources.Settled reference) (now : Nat) (code : String) :
    ∃ later, (product code).operation.Leads now (resources, .looking)
      (later, .done (.returned (.ok (reference.product? code)))) ∧ later.Settled reference := by
  obtain ⟨lifetimeMillis, hbacked⟩ := hsettled.backed
  have hcached : ∀ answer, (resources.references.getProduct now code).1 = some answer →
      answer = resources.store.ledger.product? code := by
    intro answer hanswer
    obtain ⟨found, since, rfl, htrue, -⟩ := hbacked.getProduct hanswer
    rw [hsettled.product, htrue]
  obtain ⟨later, hleads⟩ := (laws_product code).leads hsettled hcached
  rw [hsettled.product] at hleads
  exact ⟨later, hleads, hleads.settled (laws_product code).changes hsettled⟩

end Lookup

/-! ## Checks -/

section Check

variable {clock : Nat → Timestamp} {transaction : Transaction}

private theorem CheckState.proceeds_customer {before after : Resources × LookupState Bool}
    (hproceeds : (Lookup.customerExists transaction.customer).operation.Proceeds now before after) :
    (validation clock (some transaction)).Proceeds now (before.1, .customer before.2)
      (after.1, .customer after.2) :=
  ⟨hproceeds.wait, by simp only [validation, hproceeds.step],
    Nat.add_lt_add_right hproceeds.less 5⟩

private theorem CheckState.proceeds_product
    {before after : Resources × LookupState (Option Product)}
    (hproceeds : (Lookup.product transaction.product).operation.Proceeds now before after) :
    (validation clock (some transaction)).Proceeds now (before.1, .product before.2)
      (after.1, .product after.2) :=
  ⟨hproceeds.wait, by simp only [validation, hproceeds.step],
    Nat.add_lt_add_right hproceeds.less 1⟩

/-- **A check comes to its verdict without waiting.** -/
theorem validation_leads (hsettled : resources.Settled reference) (now : Nat)
    (clock : Nat → Timestamp) (transaction : Transaction) :
    ∃ later, (validation clock (some transaction)).Leads now (resources, .starting)
      (later, .done (.returned ((reference.verdict (clock now) transaction).mapError
        .validation))) := by
  have hstart : (validation clock (some transaction)).Proceeds now (resources, .starting)
      (resources, .customer .looking) := ⟨rfl, rfl, Nat.lt_succ_self 8⟩
  obtain ⟨heard, hcustomer, hheard⟩ :=
    Lookup.customerExists_leads hsettled now transaction.customer
  have hasked : (validation clock (some transaction)).Leads now (resources, .starting)
      (heard, .customer (.done (.returned (.ok (reference.hasCustomer transaction.customer))))) :=
    .head hstart (hcustomer.lift (fun point => (point.1, CheckState.customer point.2))
      CheckState.proceeds_customer)
  unfold Ledger.verdict
  cases hknown : reference.hasCustomer transaction.customer with
  | false =>
      rw [hknown] at hasked
      exact ⟨heard, hasked.tail ⟨rfl, rfl, Nat.succ_pos 4⟩⟩
  | true =>
      rw [hknown] at hasked
      have hlook : (validation clock (some transaction)).Proceeds now
          (heard, .customer (.done (.returned (.ok true)))) (heard, .product .looking) :=
        ⟨rfl, rfl, Nat.lt_succ_self 4⟩
      obtain ⟨told, hproduct, -⟩ := Lookup.product_leads hheard now transaction.product
      have htold : (validation clock (some transaction)).Leads now (heard, .product .looking)
          (told, .product (.done (.returned (.ok (reference.product? transaction.product))))) :=
        hproduct.lift (fun point => (point.1, CheckState.product point.2))
          CheckState.proceeds_product
      exact ⟨told, ((hasked.tail hlook).trans htold).tail ⟨rfl, rfl, Nat.one_pos⟩⟩

/-! ## Processing -/

/-- The row of a transaction that was saved at some time: it is marked as processed and has an
identifier, its own if it came with one. -/
structure Transaction.SavedAs (transaction : Transaction) (time : Timestamp) (row : Transaction) :
    Prop where
  row : ∃ id, row = { transaction with
      id := some id, processedTime := some time, status := .processed } ∧
    ∀ own, transaction.id = some own → id = own

/-- What becomes of a transaction: it is saved if it satisfies the rules, and otherwise it fails
with a violation. -/
inductive Ledger.Settles (reference : Ledger) (time : Timestamp) (transaction : Transaction) :
    Except Failure Transaction → Prop
  | saved {row : Transaction} (haccepts : reference.accepts time transaction = true)
      (hsaved : transaction.SavedAs time row) : Settles reference time transaction (.ok row)
  | refused (hrefuses : reference.accepts time transaction = false) (violation : Violation) :
      Settles reference time transaction (.error (.validation violation))

private theorem ProcessState.proceeds_checking {limitMillis : Nat}
    {before after : Resources × Timed CheckState}
    (hproceeds : (timedValidation clock limitMillis (some transaction)).Proceeds now before after) :
    (processing clock limitMillis transaction).Proceeds now (before.1, .checking before.2)
      (after.1, .checking after.2) :=
  ⟨hproceeds.wait, by simp only [processing, hproceeds.step],
    Nat.add_lt_add_right hproceeds.less 6⟩

private theorem ProcessState.proceeds_saving {limitMillis : Nat} {marked : Transaction}
    {before after : Resources × Timed (RequestState Unit Transaction)}
    (hproceeds : (timedSaving limitMillis marked).Proceeds now before after) :
    (processing clock limitMillis transaction).Proceeds now (before.1, .saving marked before.2)
      (after.1, .saving marked after.2) :=
  ⟨hproceeds.wait, by simp only [processing, hproceeds.step],
    Nat.add_lt_add_right hproceeds.less 2⟩

/-- A transaction is saved without waiting. -/
private theorem timedSaving_leads (hsettled : resources.Settled reference)
    (now limitMillis latest : Nat) (marked : Transaction) :
    ∃ later, (timedSaving limitMillis marked).Leads now (resources, ⟨.arriving, latest, false⟩)
      (later, ⟨.answered (.returned (.ok (resources.store.ledger.save marked).1)), latest,
        false⟩) := by
  obtain ⟨store, hsaved⟩ : ∃ store, (Request.save marked).operation.Leads now
      (resources.store, .arriving)
      (store, .answered (.returned (.ok (resources.store.ledger.save marked).1))) :=
    Request.leads (hsettled.fair .saving) rfl
  refine ⟨{ resources with store }, ?_⟩
  refine hsaved.lift
    (fun point => ({ resources with store := point.1 },
      (⟨point.2, latest, false⟩ : Timed (RequestState Unit Transaction)))) ?_
  intro before after hproceeds
  refine ⟨hproceeds.wait, ?_, Nat.add_lt_add_right hproceeds.less 1⟩
  simp only [timedSaving, Operation.timed, Operation.within, hproceeds.step]
  rfl

/-- What is being saved is saved and published. -/
private theorem processing_leads_of_saving (hsettled : resources.Settled reference)
    (now limitMillis latest : Nat) (clock : Nat → Timestamp) (transaction marked : Transaction) :
    ∃ later id, (processing clock limitMillis transaction).Leads now
      (resources, .saving marked ⟨.arriving, latest, false⟩)
      (later, .done (.returned (.ok (marked.withId id)))) ∧
        ∀ own, marked.id = some own → id = own := by
  obtain ⟨saved, hsave⟩ := timedSaving_leads hsettled now limitMillis latest marked
  obtain ⟨id, ids, hown, hrow⟩ := resources.store.ledger.save_eq marked
  rw [hrow] at hsave
  have hpersist : (processing clock limitMillis transaction).Leads now
      (resources, .saving marked ⟨.arriving, latest, false⟩)
      (saved, .saving marked ⟨.answered (.returned (.ok (marked.withId id))), latest, false⟩) :=
    hsave.lift (fun point => (point.1, ProcessState.saving marked point.2))
      ProcessState.proceeds_saving
  have hkeep : (processing clock limitMillis transaction).Proceeds now
      (saved, .saving marked ⟨.answered (.returned (.ok (marked.withId id))), latest, false⟩)
      (saved, .saved (marked.withId id)) :=
    ⟨rfl, rfl, Nat.lt_add_of_pos_right (k := 2) Nat.two_pos⟩
  have hpublish : (processing clock limitMillis transaction).Proceeds now
      (saved, .saved (marked.withId id))
      (saved.invalidateSummaries, .done (.returned (.ok (marked.withId id)))) :=
    ⟨rfl, rfl, Nat.one_pos⟩
  exact ⟨_, id, (hpersist.tail hkeep).tail hpublish, hown⟩

private theorem processing_leads (hsettled : resources.Settled reference) (now limitMillis : Nat)
    (clock : Nat → Timestamp) (transaction : Transaction) :
    ∃ later result, (processing clock limitMillis transaction).Leads now
      (resources, .start now limitMillis) (later, .done (.returned result)) ∧
        reference.Settles (clock now) transaction result := by
  obtain ⟨checked, hcheck⟩ := validation_leads hsettled now clock transaction
  have hchecked : checked.Settled reference :=
    hcheck.settled (validation_changes clock (some transaction)) hsettled
  have hstart : (processing clock limitMillis transaction).Leads now
      (resources, .start now limitMillis)
      (checked, .checking ⟨.done (.returned ((reference.verdict (clock now) transaction).mapError
        .validation)), now + limitMillis, false⟩) :=
    (hcheck.timed validationStage limitMillis (now + limitMillis)).lift
      (fun point => (point.1, ProcessState.checking point.2)) ProcessState.proceeds_checking
  rcases hverdict : reference.verdict (clock now) transaction with violation | ⟨⟩
  · -- The check fails, and nothing else is done.
    rw [hverdict] at hstart
    have hrefuses : reference.accepts (clock now) transaction = false := by
      rw [Bool.eq_false_iff, Ne, ← Ledger.verdict_eq_ok_iff, hverdict]
      simp
    exact ⟨checked, _, hstart.tail ⟨rfl, rfl, Nat.succ_pos 6⟩, .refused hrefuses violation⟩
  · rw [hverdict] at hstart
    have hmark : (processing clock limitMillis transaction).Proceeds now
        (checked, .checking ⟨.done (.returned (.ok ())), now + limitMillis, false⟩)
        (checked, .saving (transaction.markProcessed (clock now))
          ⟨.arriving, now + limitMillis, false⟩) :=
      ⟨rfl, rfl, Nat.lt_add_of_pos_right (k := 2) Nat.two_pos⟩
    obtain ⟨later, id, hsave, hown⟩ := processing_leads_of_saving hchecked now limitMillis
      (now + limitMillis) clock transaction (transaction.markProcessed (clock now))
    exact ⟨later, _, (hstart.tail hmark).trans hsave,
      .saved (Ledger.verdict_eq_ok_iff.mp hverdict) ⟨id, rfl, hown⟩⟩

/-- **A transaction is processed without waiting**, and what becomes of it depends on the reference
data and the time of day alone. -/
theorem timedProcessing_leads (hsettled : resources.Settled reference)
    (now limitMillis : Nat) (clock : Nat → Timestamp) (transaction : Transaction) :
    ∃ later result, (timedProcessing clock limitMillis transaction).Leads now
      (resources, startProcessing now limitMillis)
      (later, ⟨.done (.returned result), now + limitMillis, false⟩) ∧
        reference.Settles (clock now) transaction result := by
  obtain ⟨later, result, hleads, hsettles⟩ :=
    processing_leads hsettled now limitMillis clock transaction
  exact ⟨later, result, hleads.timed processingStage limitMillis (now + limitMillis), hsettles⟩

end Check

end Clearing
