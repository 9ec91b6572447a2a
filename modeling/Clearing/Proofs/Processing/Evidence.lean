import Clearing.Proofs.Operation.Changes

/-!
# Why a transaction was accepted

A transaction is saved after its check found a known customer and a product that
the rules accept, at some time of day.  What the check was told came from the
ledger or from the cache of reference data, so whatever is true of both may be
believed of it (`Beliefs`, `Resources.Support`).

A submission knows what its check has found so far (`Submission.Knows`).  That
goes along with its steps (`knows_of_step?`), and when its next step saves the
transaction it knows all that the rules ask for (`accepts_of_deed`).  With a
store that answers at once nobody pauses who knows anything (`knows_of_isPaused`).
-/

namespace Clearing

variable {ω α : Type}

/-- What is believed of the reference data, and of the time of day. -/
structure Beliefs where
  customer : Int → Prop
  product : String → Product → Prop
  clock : Timestamp → Prop

namespace Beliefs

/-- By the beliefs the rules accept a transaction. -/
structure Accepts (beliefs : Beliefs) (transaction : Transaction) : Prop where
  customer : beliefs.customer transaction.customer
  product : ∃ product clock, beliefs.product transaction.product product ∧ beliefs.clock clock ∧
    transaction.checkAgainst (some product) clock = .ok ()

/-- Whatever is believed is believed by others too. -/
structure Le (beliefs others : Beliefs) : Prop where
  customer {id : Int} (hcustomer : beliefs.customer id) : others.customer id
  product {code : String} {product : Product} (hproduct : beliefs.product code product) :
    others.product code product
  clock {time : Timestamp} (hclock : beliefs.clock time) : others.clock time

theorem Accepts.mono {beliefs others : Beliefs} {transaction : Transaction}
    (haccepts : beliefs.Accepts transaction) (hle : beliefs.Le others) :
    others.Accepts transaction := by
  obtain ⟨product, clock, hproduct, hclock, hcheck⟩ := haccepts.product
  exact ⟨hle.customer haccepts.customer,
    ⟨product, clock, hle.product hproduct, hle.clock hclock, hcheck⟩⟩

end Beliefs

/-- Everything that a check can be told at some time is believed, and it is told at once. -/
structure Resources.Support (resources : Resources) (now : Nat) (clock : Nat → Timestamp)
    (beliefs : Beliefs) : Prop where
  prompt (kind : RequestKind) : (resources.store.conditions.of kind).delayMillis = 0
  customer {id : Int} (hknown : resources.store.ledger.hasCustomer id = true) :
    beliefs.customer id
  product {code : String} {product : Product}
    (hproduct : resources.store.ledger.product? code = some product) :
    beliefs.product code product
  recalledCustomer {id : Int}
    (hrecalled : (resources.references.getCustomer now id).1 = some true) : beliefs.customer id
  recalledProduct {code : String} {product : Product}
    (hrecalled : (resources.references.getProduct now code).1 = some (some product)) :
    beliefs.product code product
  clock : beliefs.clock (clock now)

/-! ## Lookups -/

/-- The lookup does not wait, and was told something only if it is true. -/
def LookupState.Knows (told : α → Prop) : LookupState α → Prop
  | .looking => True
  | .asking request => request.wait? = none
  | .done ending => ∀ answer, ending = .returned (.ok answer) → told answer

/-- A lookup is told what the cache has or what the ledger says. -/
theorem Lookup.Laws.knows_of_step? {lookup : Lookup α} {kind : RequestKind} {answer : Ledger → α}
    (hlaws : lookup.Laws kind answer) {told : α → Prop} {now : Nat} {resources next : Resources}
    {state later : LookupState α}
    (hprompt : (resources.store.conditions.of kind).delayMillis = 0)
    (hledger : told (answer resources.store.ledger))
    (hcached : ∀ found, (lookup.cached resources.references now).1 = some found → told found)
    (hstep : lookup.operation.step? now resources state = some (next, later)) :
    later.Knows told := by
  cases state with
  | looking =>
      simp only [operation] at hstep
      split at hstep
      · rename_i found hfound
        cases hstep
        intro answer hanswer
        cases hanswer
        exact hcached found hfound
      · cases hstep
        exact rfl
  | asking request =>
      obtain ⟨⟨store, answered⟩, hasked, hheard⟩ := Option.map_eq_some_iff.mp hstep
      rw [hlaws.request] at hasked
      dsimp only at hheard
      cases Request.act_of_step? hasked with
      | aborted =>
          cases hheard
          intro answer hanswer
          cases hanswer
      | delayed _ hdelay => exact absurd hprompt hdelay
      | admitted =>
          cases hheard
          exact rfl
      | refused =>
          cases hheard
          intro answer hanswer
          cases hanswer
      | performed =>
          cases hheard
          intro answer hanswer
          cases hanswer
          exact hledger
  | done ending => cases hstep

/-- A lookup that knows something does not wait. -/
theorem Lookup.wait?_of_knows (lookup : Lookup α) {state : LookupState α} {told : α → Prop}
    (hknows : state.Knows told) : lookup.operation.wait? state = none := by
  cases state with
  | looking | done => rfl
  | asking request => exact hknows

/-! ## Checks -/

/-- What a check has found so far. -/
def CheckState.Knows (beliefs : Beliefs) (transaction : Transaction) : CheckState → Prop
  | .starting => True
  | .customer state => state.Knows fun known => known = true → beliefs.customer transaction.customer
  | .product state =>
    beliefs.customer transaction.customer ∧
      state.Knows fun found => ∀ product, found = some product →
        beliefs.product transaction.product product
  | .done ending => ending = .returned (.ok ()) → beliefs.Accepts transaction

namespace CheckState

variable {beliefs : Beliefs} {transaction : Transaction}

theorem knows_afterCustomer {ending : Ending Bool}
    (hknown : ∀ known, ending = .returned (.ok known) → known = true →
      beliefs.customer transaction.customer) :
    (afterCustomer transaction ending).Knows beliefs transaction := by
  rcases ending with (failure | known) | cause
  · exact nofun
  · cases known with
    | false => exact nofun
    | true => exact ⟨hknown true rfl rfl, trivial⟩
  · exact nofun

/-- A check that found no product does not accept the transaction. -/
theorem product_of_afterProduct {clock : Timestamp} {ending : Ending (Option Product)}
    (hafter : afterProduct transaction clock ending = .done (.returned (.ok ()))) :
    ∃ product, ending = .returned (.ok (some product)) ∧
      transaction.checkAgainst (some product) clock = .ok () := by
  rcases ending with (failure | found) | cause
  · cases hafter
  · cases found with
    | none => cases hafter
    | some product =>
        refine ⟨product, rfl, ?_⟩
        dsimp only [afterProduct] at hafter
        cases hcheck : transaction.checkAgainst (some product) clock with
        | ok => rfl
        | error violation =>
            rw [hcheck] at hafter
            cases hafter
  · cases hafter

theorem knows_afterProduct {clock : Timestamp} {ending : Ending (Option Product)}
    (hclock : beliefs.clock clock) (hcustomer : beliefs.customer transaction.customer)
    (hfound : ∀ found, ending = .returned (.ok found) → ∀ product, found = some product →
      beliefs.product transaction.product product) :
    (afterProduct transaction clock ending).Knows beliefs transaction := by
  have hdone : ∃ checked, afterProduct transaction clock ending = .done checked := by
    rcases ending with (failure | found) | cause <;> exact ⟨_, rfl⟩
  obtain ⟨checked, hdone⟩ := hdone
  rw [hdone]
  rintro rfl
  obtain ⟨product, rfl, hcheck⟩ := product_of_afterProduct hdone
  exact ⟨hcustomer, ⟨product, clock, hfound _ rfl product rfl, hclock, hcheck⟩⟩

theorem knows_of_step? {clock : Nat → Timestamp} {now : Nat} {resources next : Resources}
    {state later : CheckState} (hsupport : resources.Support now clock beliefs)
    (hknows : state.Knows beliefs transaction)
    (hstep : (validation clock (some transaction)).step? now resources state =
      some (next, later)) : later.Knows beliefs transaction := by
  cases act_of_step? hstep with
  | start => exact trivial
  | askCustomer hinner =>
      refine (Lookup.laws_customerExists _).knows_of_step? (hsupport.prompt _) ?_ ?_ hinner
      · exact hsupport.customer
      · rintro found hfound rfl
        exact hsupport.recalledCustomer hfound
  | @hearCustomer state ending hending =>
      refine knows_afterCustomer ?_
      cases state <;> cases hending
      exact hknows
  | askProduct hinner =>
      refine ⟨hknows.1,
        (Lookup.laws_product _).knows_of_step? (hsupport.prompt _) ?_ ?_ hinner⟩
      · intro product hproduct
        exact hsupport.product hproduct
      · rintro found hfound product rfl
        exact hsupport.recalledProduct hfound
  | @hearProduct state ending hending =>
      refine knows_afterProduct hsupport.clock hknows.1 ?_
      cases state <;> cases hending
      exact hknows.2

/-- Whoever knows something does not wait. -/
theorem wait?_of_knows (clock : Nat → Timestamp) {state : CheckState}
    (hknows : state.Knows beliefs transaction) :
    (validation clock (some transaction)).wait? state = none := by
  cases state with
  | customer state => exact (Lookup.customerExists transaction.customer).wait?_of_knows hknows
  | product state => exact (Lookup.product transaction.product).wait?_of_knows hknows.2
  | _ => rfl

theorem Knows.mono {others : Beliefs} {state : CheckState}
    (hknows : state.Knows beliefs transaction) (hle : beliefs.Le others) :
    state.Knows others transaction := by
  cases state with
  | starting => exact trivial
  | customer state =>
      cases state with
      | looking | asking => exact hknows
      | done ending =>
          exact fun known hending htrue => hle.customer (hknows known hending htrue)
  | product state =>
      refine ⟨hle.customer hknows.1, ?_⟩
      cases state with
      | looking | asking => exact hknows.2
      | done ending =>
          exact fun found hending product hfound =>
            hle.product (hknows.2 found hending product hfound)
  | done ending => exact fun hending => (hknows hending).mono hle

end CheckState

/-! ## Processing -/

/-- What was found before the transaction is saved. -/
def ProcessState.Knows (beliefs : Beliefs) (transaction : Transaction) : ProcessState → Prop
  | .checking state => state.state.Knows beliefs transaction
  | .saving _ state => state.state.wait? = none ∧ beliefs.Accepts transaction
  | .saved _ => True
  | .done _ => True

namespace ProcessState

variable {beliefs : Beliefs} {transaction : Transaction} {clock : Nat → Timestamp}
  {limitMillis now : Nat} {resources next : Resources} {state later : ProcessState}

theorem knows_of_step? (hsupport : resources.Support now clock beliefs)
    (hknows : state.Knows beliefs transaction)
    (hstep : (processing clock limitMillis transaction).step? now resources state =
      some (next, later)) : later.Knows beliefs transaction := by
  cases act_of_step? hstep with
  | check hinner =>
      obtain ⟨-, ⟨checked, hchecked, rfl⟩ | ⟨-, -, -, -, rfl⟩⟩ :=
        Operation.timed_step?_cases hinner
      · exact CheckState.knows_of_step? hsupport hknows hchecked
      · exact hknows
  | @checked state ending hending hnext =>
      obtain ⟨-, rfl⟩ | ⟨-, hinner⟩ := Operation.timed_ending?_cases hending
      · exact trivial
      · obtain ⟨checked, latest, elapsed⟩ := state
        cases checked <;> cases hinner
        rcases ending with (failure | _) | cause
        · exact trivial
        · exact ⟨rfl, hknows rfl⟩
        · exact trivial
  | @save marked state later hinner =>
      obtain ⟨request, latest, elapsed⟩ := state
      obtain ⟨-, ⟨saving, hsaving, rfl⟩ | ⟨-, -, -, -, rfl⟩⟩ :=
        Operation.timed_step?_cases hinner
      · refine ⟨?_, hknows.2⟩
        obtain ⟨⟨store, answered⟩, hasked, hafter⟩ := Option.map_eq_some_iff.mp hsaving
        cases hafter
        cases Request.act_of_step? hasked with
        | delayed _ hdelay => exact absurd (hsupport.prompt _) hdelay
        | _ => rfl
      · exact hknows
  | @answered marked state ending hstuck hending hnext =>
      rcases ending with (_ | _) | _ <;> exact trivial
  | publish => exact trivial

theorem knows_of_cut? {chosen : Deadline → Bool} (hknows : state.Knows beliefs transaction)
    (hcut : (processing clock limitMillis transaction).cut? chosen state = some later) :
    later.Knows beliefs transaction := by
  cases state with
  | checking state =>
      obtain ⟨timed, hinner, rfl⟩ := Option.map_eq_some_iff.mp hcut
      obtain ⟨-, ⟨checked, hchecked, rfl⟩ | rfl⟩ := Operation.timed_cut?_cases hinner
      · cases hchecked
      · exact hknows
  | saving marked state =>
      obtain ⟨timed, hinner, rfl⟩ := Option.map_eq_some_iff.mp hcut
      obtain ⟨-, ⟨saving, hsaving, rfl⟩ | rfl⟩ := Operation.timed_cut?_cases hinner
      · cases hsaving
      · exact hknows
  | saved | done => cases hcut

theorem wait?_of_knows (clock : Nat → Timestamp) (limitMillis : Nat)
    (hknows : state.Knows beliefs transaction) :
    (processing clock limitMillis transaction).wait? state = none := by
  cases state with
  | checking state =>
      have hwait := CheckState.wait?_of_knows clock hknows
      simp only [processing, timedValidation, Operation.timed, hwait, ite_self]
  | saving marked state =>
      have hwait := hknows.1
      simp only [processing, timedSaving, Operation.timed, Operation.within, Request.operation,
        hwait, ite_self]
  | saved | done => rfl

theorem Knows.mono {others : Beliefs} (hknows : state.Knows beliefs transaction)
    (hle : beliefs.Le others) : state.Knows others transaction := by
  cases state with
  | checking state => exact CheckState.Knows.mono hknows hle
  | saving marked state => exact ⟨hknows.1, hknows.2.mono hle⟩
  | saved | done => exact trivial

end ProcessState

/-! ## Submissions -/

/-- What a call knows: whatever its operation does. -/
def Phase.Knows (knows : ω → Prop) : Phase ω α → Prop
  | .operating _ state => knows state
  | _ => True

/-- A call knows what its operation has found out in its steps. -/
theorem GuardedCall.Act.knows {protection : Protection} {operation : Operation Resources ω α}
    {start : Nat → Nat → ω} {knows : ω → Prop} {now : Nat} {guards after : List Guard}
    {shared next : Resources} {call later : GuardedCall ω α}
    (hstart : ∀ attempt, knows (start now attempt))
    (hstep : ∀ {state later : ω} {next : Resources}, knows state →
      operation.step? now shared state = some (next, later) → knows later)
    (hknows : call.phase.Knows knows)
    (hact : Act protection operation start now (guards, shared, call) (after, next, later)) :
    later.phase.Knows knows := by
  cases hact with
  | begin => exact hstart _
  | answered hguard hhears =>
      rename_i answer _
      cases answer <;> exact trivial
  | operated hinner => exact hstep hknows hinner
  | @settled _ _ _ _ result =>
      cases result with
      | ok value => exact trivial
      | error failure =>
          unfold settle
          dsimp only
          split <;> exact trivial
  | _ => exact trivial

namespace Submission

/-- What a submission knows. -/
def Knows (beliefs : Beliefs) (submission : Submission) : Prop :=
  submission.call.phase.Knows fun state => state.state.Knows beliefs submission.transaction

variable {beliefs others : Beliefs} {now : Nat} {before after : Pipeline}
  {submission later : Submission}

/-- A submission finds out nothing but what may be believed. -/
theorem knows_of_step? (hsupport : before.resources.Support now before.clock beliefs)
    (hknows : submission.Knows beliefs)
    (hstep : submission.step? now before = some (after, later)) : later.Knows beliefs := by
  rcases step?_cases hstep with
    ⟨guards, resources, call, hact, rfl, rfl⟩ | ⟨result, -, -, rfl, rfl⟩
  · refine GuardedCall.Act.knows ?_ ?_ hknows hact
    · exact fun _ => trivial
    · intro state later next hknown hinner
      obtain ⟨-, ⟨processed, hprocessed, rfl⟩ | ⟨-, -, -, -, rfl⟩⟩ :=
        Operation.timed_step?_cases hinner
      · exact ProcessState.knows_of_step? hsupport hknown hprocessed
      · exact hknown
  · exact hknows

theorem knows_of_cut? {pipeline : Pipeline} {chosen : Deadline → Bool}
    (hknows : submission.Knows beliefs)
    (hcut : (operation pipeline).cut? chosen submission = some later) : later.Knows beliefs := by
  obtain ⟨held, state, state', hphase, hinner, rfl⟩ := cut?_cases hcut
  unfold Knows at hknows
  rw [hphase] at hknows
  obtain ⟨-, ⟨processed, hprocessed, rfl⟩ | rfl⟩ := Operation.timed_cut?_cases hinner
  · exact ProcessState.knows_of_cut? hknows hprocessed
  · exact hknows

theorem Knows.mono (hknows : submission.Knows beliefs) (hle : beliefs.Le others) :
    submission.Knows others := by
  unfold Knows Phase.Knows at hknows ⊢
  split
  · rename_i held state hphase
    rw [hphase] at hknows
    exact ProcessState.Knows.mono hknows hle
  · exact trivial

/-- The submission is not in the midst of an attempt, or waits there. -/
def isPaused (pipeline : Pipeline) (submission : Submission) : Bool :=
  match submission.call.phase with
  | .operating _ _ => ((operation pipeline).wait? submission).isSome
  | _ => true

/-- A submission that pauses knows nothing. -/
theorem knows_of_isPaused {pipeline : Pipeline} (hknows : submission.Knows beliefs)
    (hpaused : submission.isPaused pipeline = true) : submission.Knows others := by
  unfold Knows Phase.Knows at hknows ⊢
  unfold isPaused at hpaused
  split
  · rename_i held state hphase
    rw [hphase] at hknows
    have hnone := ProcessState.wait?_of_knows pipeline.clock pipeline.settings.deadlineMillis
      hknows
    simp only [hphase, operation, GuardedCall.wait?, work, timedProcessing, Operation.timed,
      hnone, ite_self] at hpaused
    cases hpaused
  · exact trivial

/-- **What is saved next was accepted.** -/
theorem accepts_of_deed (hknows : submission.Knows beliefs)
    (hdeed : submission.deed? now = some .save) : beliefs.Accepts submission.transaction := by
  unfold deed? Phase.deed? at hdeed
  split at hdeed
  · rename_i held state hphase
    unfold Knows at hknows
    rw [hphase] at hknows
    obtain ⟨processed, latest, elapsed⟩ := state
    obtain ⟨-, hdeed⟩ := Option.ite_none_left_eq_some.mp hdeed
    cases processed with
    | saving marked state => exact hknows.2
    | checking | done => cases hdeed
    | saved => cases hdeed
  · cases hdeed

end Submission

end Clearing
