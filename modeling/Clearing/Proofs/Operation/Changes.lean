import Clearing.Proofs.Processing.Course
import Clearing.Proofs.Summaries.Query

/-!
# What operations do to the resources

`Resources.Change` lists what one step of a check, of the processing of a
transaction or of a query can do to the store and the caches: it counts a
request, drops what has expired, remembers an answer, saves a transaction, or
touches the summaries.  That it can do nothing else is shown for each operation,
up to the step of a submission (`Submission.change_of_step?`), so that whoever
follows the ledger or a cache through a run has to look at these changes alone.

What one step of a request can be is `Request.Act`.
-/

namespace Clearing

variable {ω α β : Type}

/-- A condition gets in the way no more than before. -/
structure Condition.Eases (condition later : Condition) : Prop where
  delay : later.delayMillis = condition.delayMillis
  failures : later.failures ≤ condition.failures
  aborts : later.aborts ≤ condition.aborts

/-- What one step can do to the resources. -/
inductive Resources.Change (now : Nat) (before : Resources) : Resources → Prop
  | rest : Change now before before
  | count (kind : RequestKind) {condition : Condition}
      (heases : (before.store.conditions.of kind).Eases condition) :
      Change now before { before with store := before.store.withCondition kind condition }
  | forgetCustomer (id : Int) :
      Change now before { before with references := (before.references.getCustomer now id).2 }
  | forgetProduct (code : String) :
      Change now before { before with references := (before.references.getProduct now code).2 }
  | hearCustomer (id : Int) :
      Change now before
        { before with
          references := before.references.putCustomer now id (before.store.ledger.hasCustomer id) }
  | hearProduct (code : String) :
      Change now before
        { before with
          references := before.references.putProduct now code
            (before.store.ledger.product? code) }
  | save (transaction : Transaction) :
      Change now before (before.mapLedger fun ledger => (ledger.save transaction).2)
  | summarize (summaries : SummaryCache) : Change now before { before with summaries }

/-- Every step of the operation makes one of these changes. -/
def Operation.Changes (operation : Operation Resources ω α) : Prop :=
  ∀ {now : Nat} {shared next : Resources} {state later : ω},
    operation.step? now shared state = some (next, later) → shared.Change now next

theorem Operation.Changes.timed {operation : Operation Resources ω α}
    (hchanges : operation.Changes) (stage : String) (limitMillis : Nat) :
    (operation.timed stage limitMillis).Changes := by
  intro now shared next state later hstep
  obtain ⟨-, ⟨inner, hinner, -⟩ | ⟨-, -, -, rfl, -⟩⟩ := timed_step?_cases hstep
  · exact hchanges hinner
  · exact .rest

/-! ## Requests -/

namespace Request

/-- What one step of a request can be, with the store after it. -/
inductive Act (request : Request β α) (now : Nat) (store : Store) :
    RequestState β α → Store → RequestState β α → Prop
  /-- It is counted and aborted. -/
  | aborted {condition : Condition} {cause : Abort}
      (heases : (store.conditions.of request.kind).Eases condition)
      (hcause : request.read store.ledger = .error cause ∨
        0 < (store.conditions.of request.kind).aborts) :
      Act request now store .arriving (store.withCondition request.kind condition)
        (.answered (.aborted cause))
  /-- It is counted and has to wait. -/
  | delayed {condition : Condition} {read : β} {wakes : Nat} {fails : Bool}
      (heases : (store.conditions.of request.kind).Eases condition)
      (hdelay : (store.conditions.of request.kind).delayMillis ≠ 0) :
      Act request now store .arriving (store.withCondition request.kind condition)
        (.waiting read wakes fails)
  /-- It is counted and goes on at once. -/
  | admitted {condition : Condition} {read : β} {fails : Bool}
      (heases : (store.conditions.of request.kind).Eases condition)
      (hread : request.read store.ledger = .ok read)
      (hfails : fails = true → 0 < (store.conditions.of request.kind).failures) :
      Act request now store .arriving (store.withCondition request.kind condition)
        (.concluding read fails)
  | refused {state : RequestState β α} :
      Act request now store state store
        (.answered (.returned (.error (store.conditions.of request.kind).refusal)))
  | performed {state : RequestState β α} {read : β}
      (hstate : (∃ wakes, state = .waiting read wakes false) ∨ state = .concluding read false) :
      Act request now store state
        { store with ledger := (request.perform read store.ledger).2 }
        (.answered (.returned (.ok (request.perform read store.ledger).1)))

variable {request : Request β α} {now : Nat} {store next : Store}
  {state later : RequestState β α}

private theorem act_arrive (request : Request β α) (now : Nat) (store : Store) :
    Act request now store .arriving (request.arrive now store).1
      (request.arrive now store).2 := by
  unfold arrive
  dsimp only
  split
  · rename_i cause hread
    exact .aborted ⟨rfl, Nat.le_refl _, Nat.le_refl _⟩ (.inl hread)
  · rename_i read hread
    split
    · rename_i haborts
      exact .aborted ⟨rfl, Nat.le_refl _, Nat.sub_le ..⟩ (.inr haborts)
    · have heases : (store.conditions.of request.kind).Eases
          { store.conditions.of request.kind with
            calls := (store.conditions.of request.kind).calls + 1
            failures := (store.conditions.of request.kind).failures - 1 } :=
        ⟨rfl, Nat.sub_le .., Nat.le_refl _⟩
      dsimp only
      split
      · exact .admitted heases hread of_decide_eq_true
      · rename_i hdelay
        exact .delayed heases hdelay

private theorem act_conclude (request : Request β α) (now : Nat) (store : Store)
    (read : β) (fails : Bool)
    (hstate : (∃ wakes, state = .waiting read wakes fails) ∨ state = .concluding read fails) :
    Act request now store state (request.conclude store read fails).1
      (request.conclude store read fails).2 := by
  cases fails with
  | true => exact .refused
  | false => exact .performed hstate

/-- A request does nothing but these steps. -/
theorem act_of_step? (hstep : request.operation.step? now store state = some (next, later)) :
    Act request now store state next later := by
  cases state with
  | arriving =>
      have hact := act_arrive request now store
      rwa [Option.some.inj hstep] at hact
  | waiting read wakes fails =>
      obtain ⟨-, hconclude⟩ := Option.ite_none_right_eq_some.mp hstep
      have hact := act_conclude request now store read fails (.inl ⟨wakes, rfl⟩)
      rwa [Option.some.inj hconclude] at hact
  | concluding read fails =>
      have hact := act_conclude request now store read fails (.inr rfl)
      rwa [Option.some.inj hstep] at hact
  | answered ending => cases hstep

/-- A request that leaves the ledger alone only counts. -/
theorem change_of_step? {resources : Resources}
    (hledger : ∀ read ledger, (request.perform read ledger).2 = ledger)
    (hstep : request.operation.step? now resources.store state = some (next, later)) :
    resources.Change now { resources with store := next } := by
  cases act_of_step? hstep with
  | aborted heases => exact .count _ heases
  | delayed heases => exact .count _ heases
  | admitted heases => exact .count _ heases
  | refused => exact .rest
  | performed =>
      rw [hledger]
      exact .rest

/-- A request whose work leaves the ledger alone does so. -/
theorem keeps_ledger (hledger : ∀ read ledger, (request.perform read ledger).2 = ledger) :
    request.operation.Keeps Store.ledger := by
  intro now store next state later hstep
  cases act_of_step? hstep with
  | performed => exact hledger ..
  | _ => rfl

end Request

/-! ## Lookups and checks -/

/-- What a lookup asks for, and that the cache of reference data does with it what it should. -/
structure Lookup.Laws (lookup : Lookup α) (kind : RequestKind) (answer : Ledger → α) : Prop where
  request : lookup.request = .look kind answer
  forget (now : Nat) (resources : Resources) :
    resources.Change now
      { resources with references := (lookup.cached resources.references now).2 }
  remember (now : Nat) (resources : Resources) :
    resources.Change now
      { resources with
        references := lookup.remember resources.references now (answer resources.store.ledger) }

namespace Lookup

theorem laws_customerExists (id : Int) :
    (customerExists id).Laws .customerLookup fun ledger => ledger.hasCustomer id :=
  ⟨rfl, fun _ _ => .forgetCustomer id, fun _ _ => .hearCustomer id⟩

theorem laws_product (code : String) :
    (product code).Laws .productLookup fun ledger => ledger.product? code :=
  ⟨rfl, fun _ _ => .forgetProduct code, fun _ _ => .hearProduct code⟩

theorem Laws.changes {lookup : Lookup α} {kind : RequestKind} {answer : Ledger → α}
    (hlaws : lookup.Laws kind answer) : lookup.operation.Changes := by
  intro now resources next state later hstep
  cases state with
  | looking =>
      simp only [operation] at hstep
      split at hstep <;> cases hstep <;> exact hlaws.forget now resources
  | asking request =>
      obtain ⟨⟨store, answered⟩, hasked, hheard⟩ := Option.map_eq_some_iff.mp hstep
      rw [hlaws.request] at hasked
      dsimp only at hheard
      cases Request.act_of_step? hasked with
      | aborted heases =>
          cases hheard
          exact .count _ heases
      | delayed heases =>
          cases hheard
          exact .count _ heases
      | admitted heases =>
          cases hheard
          exact .count _ heases
      | refused =>
          cases hheard
          exact .rest
      | performed =>
          cases hheard
          exact hlaws.remember now resources
  | done ending => cases hstep

end Lookup

theorem validation_changes (clock : Nat → Timestamp) (transaction : Option Transaction) :
    (validation clock transaction).Changes := by
  intro now resources next state later hstep
  cases transaction with
  | none =>
      cases state with
      | starting =>
          cases hstep
          exact .rest
      | _ => cases hstep
  | some transaction =>
      cases CheckState.act_of_step? hstep with
      | start hnext | hearCustomer _ hnext | hearProduct _ hnext =>
          rw [hnext]
          exact .rest
      | askCustomer hinner => exact (Lookup.laws_customerExists _).changes hinner
      | askProduct hinner => exact (Lookup.laws_product _).changes hinner

/-! ## Processing -/

theorem timedSaving_changes (limitMillis : Nat) (marked : Transaction) :
    (timedSaving limitMillis marked).Changes := by
  refine Operation.Changes.timed ?_ savingStage limitMillis
  intro now resources next state later hstep
  obtain ⟨⟨store, answered⟩, hasked, hafter⟩ := Option.map_eq_some_iff.mp hstep
  cases hafter
  cases Request.act_of_step? hasked with
  | aborted heases => exact .count _ heases
  | delayed heases => exact .count _ heases
  | admitted heases => exact .count _ heases
  | refused => exact .rest
  | performed => exact .save marked

theorem processing_changes (clock : Nat → Timestamp) (limitMillis : Nat)
    (transaction : Transaction) : (processing clock limitMillis transaction).Changes := by
  intro now resources next state later hstep
  cases ProcessState.act_of_step? hstep with
  | check hinner =>
      exact Operation.Changes.timed (validation_changes clock (some transaction)) _ _ hinner
  | checked _ hnext | answered _ _ hnext =>
      rw [hnext]
      exact .rest
  | save hinner => exact timedSaving_changes limitMillis _ hinner
  | publish hnext =>
      rw [hnext]
      exact .summarize _

/-- A guarded call does to the resources what its operation does. -/
theorem GuardedCall.Act.change {protection : Protection} {operation : Operation Resources ω α}
    {start : Nat → Nat → ω} (hchanges : operation.Changes) {now : Nat} {guards after : List Guard}
    {shared next : Resources} {call later : GuardedCall ω α}
    (hact : Act protection operation start now (guards, shared, call) (after, next, later)) :
    shared.Change now next := by
  cases hact with
  | operated hstep => exact hchanges hstep
  | _ => exact .rest

theorem Submission.change_of_step? {now : Nat} {before after : Pipeline}
    {submission later : Submission}
    (hstep : submission.step? now before = some (after, later)) :
    before.resources.Change now after.resources := by
  rcases step?_cases hstep with
    ⟨guards, resources, call, hact, rfl, rfl⟩ | ⟨result, -, -, rfl, rfl⟩
  · have hchanges : (submission.work before).Changes :=
      Operation.Changes.timed (processing_changes _ _ _) _ _
    exact hact.change hchanges
  · exact .rest

/-! ## Queries -/

namespace SummaryKind.Laws

variable {ρ : Type} {kind : SummaryKind ρ} {slot : SummaryCache → Option (Aged (List ρ))}

theorem query_changes (hlaws : kind.Laws slot) : kind.query.Changes := by
  intro now resources next state later hstep
  cases state with
  | looking =>
      simp only [query] at hstep
      split at hstep <;> cases hstep <;> exact .rest
  | noting =>
      cases hstep
      exact .rest
  | asking generation request =>
      simp only [query] at hstep
      split at hstep
      · rename_i store asked hasked
        cases hstep
        exact Request.change_of_step? (fun _ _ => by rw [hlaws.perform]) hasked
      · split at hstep <;> cases hstep <;> exact .rest
  | keeping generation rows =>
      cases hstep
      exact .summarize _
  | done ending => cases hstep

/-- A query leaves the ledger alone. -/
theorem query_keeps_ledger (hlaws : kind.Laws slot) : kind.query.Keeps (·.store.ledger) := by
  intro now resources next state later hstep
  cases state with
  | looking =>
      simp only [query] at hstep
      split at hstep <;> cases hstep <;> rfl
  | asking generation request =>
      simp only [query] at hstep
      split at hstep
      · rename_i store asked hasked
        cases hstep
        exact Request.keeps_ledger (fun _ _ => by rw [hlaws.perform]) hasked
      · split at hstep <;> cases hstep <;> rfl
  | noting | keeping generation rows => cases hstep; rfl
  | done ending => cases hstep

end SummaryKind.Laws

end Clearing
