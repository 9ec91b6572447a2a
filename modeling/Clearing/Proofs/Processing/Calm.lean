import Clearing.Proofs.Processing.Course

/-!
# Processing without aborts

A store may be told to abort requests.  As long as it is not, it is calm, and
then the processing of a transaction ends with a result: it may fail, but it is
never aborted.

A state is calm if no part of it has ended with an abort.  Under a calm store
every operation on the way from a request to a submission leads from calm states
to calm ones and leaves the store calm (`Operation.StaysCalm`), and a calm state
that is an end is one with a result.
-/

namespace Clearing

variable {ω α : Type}

/-- The store aborts no requests. -/
def Resources.Calm (resources : Resources) : Prop :=
  ∀ kind, (resources.store.conditions.of kind).aborts = 0

/-- The ending is a result. -/
def Ending.Returned : Ending α → Prop
  | .returned _ => True
  | .aborted _ => False

/-- With a calm store, which it leaves calm, an operation goes from calm states to calm states, and
ends with a result. -/
structure Operation.StaysCalm (operation : Operation Resources ω α) (calm : ω → Prop) : Prop where
  step {now : Nat} {shared next : Resources} {state later : ω} (hshared : shared.Calm)
    (hcalm : calm state) (hstep : operation.step? now shared state = some (next, later)) :
    next.Calm ∧ calm later
  cut {chosen : Deadline → Bool} {state later : ω} (hcalm : calm state)
    (hcut : operation.cut? chosen state = some later) : calm later
  ending {state : ω} {ending : Ending α} (hcalm : calm state)
    (hending : operation.ending? state = some ending) : ending.Returned

/-- Under a deadline a state is as calm as without. -/
def Timed.Calm (calm : ω → Prop) (running : Timed ω) : Prop :=
  calm running.state

theorem Operation.StaysCalm.timed {operation : Operation Resources ω α} {calm : ω → Prop}
    (hstays : operation.StaysCalm calm) (stage : String) (limitMillis : Nat) :
    (operation.timed stage limitMillis).StaysCalm (Timed.Calm calm) where
  step hshared hcalm hstep := by
    obtain ⟨-, ⟨later, hinner, rfl⟩ | ⟨-, -, -, rfl, rfl⟩⟩ := timed_step?_cases hstep
    · exact hstays.step hshared hcalm hinner
    · exact ⟨hshared, hcalm⟩
  cut hcalm hcut := by
    obtain ⟨-, ⟨later, hinner, rfl⟩ | rfl⟩ := timed_cut?_cases hcut
    · exact hstays.cut hcalm hinner
    · exact hcalm
  ending hcalm hending := by
    obtain ⟨-, rfl⟩ | ⟨-, hinner⟩ := timed_ending?_cases hending
    · exact trivial
    · exact hstays.ending hcalm hinner

/-! ## Requests and lookups -/

/-- A request that was answered was answered with a result. -/
def RequestState.Calm {β : Type} : RequestState β α → Prop
  | .answered ending => ending.Returned
  | _ => True

namespace Request

variable {β : Type}

/-- A request that reads nothing it could stumble over is not aborted by a calm store. -/
theorem calm_arrive {request : Request β α} {resources : Resources} (now : Nat)
    (hread : ∀ ledger, ∃ read, request.read ledger = .ok read) (hcalm : resources.Calm) :
    ({ resources with store := (request.arrive now resources.store).1 } : Resources).Calm ∧
      (request.arrive now resources.store).2.Calm := by
  obtain ⟨read, hread⟩ := hread resources.store.ledger
  have haborts := hcalm request.kind
  simp only [arrive, hread, haborts, Nat.lt_irrefl, if_false]
  constructor
  · intro kind
    simp only [Store.withCondition, Conditions.of_set]
    split
    · rfl
    · exact hcalm kind
  · split <;> exact trivial

theorem calm_conclude (request : Request β α) {resources : Resources} (hcalm : resources.Calm)
    (read : β) (fails : Bool) :
    ({ resources with store := (request.conclude resources.store read fails).1 } :
        Resources).Calm ∧
      (request.conclude resources.store read fails).2.Calm := by
  unfold conclude
  split <;> exact ⟨hcalm, trivial⟩

theorem calm_of_step? {request : Request β α} {now : Nat} {resources : Resources} {next : Store}
    {state later : RequestState β α} (hread : ∀ ledger, ∃ read, request.read ledger = .ok read)
    (hcalm : resources.Calm)
    (hstep : request.operation.step? now resources.store state = some (next, later)) :
    ({ resources with store := next } : Resources).Calm ∧ later.Calm := by
  cases state with
  | arriving =>
      have harrive := calm_arrive now hread hcalm
      rwa [Option.some.inj hstep] at harrive
  | waiting read wakes fails =>
      obtain ⟨-, hconclude⟩ := Option.ite_none_right_eq_some.mp hstep
      have hdone := request.calm_conclude hcalm read fails
      rwa [Option.some.inj hconclude] at hdone
  | concluding read fails =>
      have hdone := request.calm_conclude hcalm read fails
      rwa [Option.some.inj hstep] at hdone
  | answered ending => cases hstep

end Request

/-- No part of a lookup was aborted. -/
def LookupState.Calm : LookupState α → Prop
  | .asking request => request.Calm
  | .done ending => ending.Returned
  | .looking => True

theorem Lookup.calm_heard (lookup : Lookup α) (now : Nat) (resources : Resources) (store : Store)
    {state : RequestState Unit α} (hstore : ({ resources with store } : Resources).Calm)
    (hcalm : state.Calm) :
    (lookup.heard now resources store state).1.Calm ∧
      (lookup.heard now resources store state).2.Calm := by
  unfold heard
  split <;> exact ⟨hstore, hcalm⟩

theorem Lookup.staysCalm {lookup : Lookup α}
    (hread : ∀ ledger, ∃ read, lookup.request.read ledger = .ok read) :
    lookup.operation.StaysCalm LookupState.Calm where
  step := by
    intro now shared next state later hshared hcalm hstep
    cases state with
    | looking =>
        simp only [operation] at hstep
        split at hstep <;> cases hstep <;> exact ⟨hshared, trivial⟩
    | asking request =>
        obtain ⟨⟨store, answered⟩, hasked, hheard⟩ := Option.map_eq_some_iff.mp hstep
        obtain ⟨hstore, hanswered⟩ := Request.calm_of_step? hread hshared hasked
        have hcalm := lookup.calm_heard now shared store hstore hanswered
        dsimp only at hheard
        rwa [hheard] at hcalm
    | done ending => cases hstep
  cut hcalm hcut := by cases hcut
  ending := by
    intro state ending hcalm hending
    cases state <;> cases hending
    exact hcalm

theorem staysCalm_customerExists (id : Int) :
    (Lookup.customerExists id).operation.StaysCalm LookupState.Calm :=
  Lookup.staysCalm fun _ => ⟨(), rfl⟩

theorem staysCalm_product (code : String) :
    (Lookup.product code).operation.StaysCalm LookupState.Calm :=
  Lookup.staysCalm fun _ => ⟨(), rfl⟩

/-! ## Checks -/

/-- No part of a check was aborted. -/
def CheckState.Calm : CheckState → Prop
  | .starting => True
  | .customer state => state.Calm
  | .product state => state.Calm
  | .done ending => ending.Returned

namespace CheckState

theorem calm_afterCustomer (transaction : Transaction) {ending : Ending Bool}
    (hreturned : ending.Returned) : (afterCustomer transaction ending).Calm := by
  rcases ending with (_ | _ | _) | _
  · exact trivial
  · exact trivial
  · exact trivial
  · exact hreturned

theorem calm_afterProduct (transaction : Transaction) (clock : Timestamp)
    {ending : Ending (Option Product)} (hreturned : ending.Returned) :
    (afterProduct transaction clock ending).Calm := by
  rcases ending with (_ | _) | _
  · exact trivial
  · exact trivial
  · exact hreturned

end CheckState

theorem validation_staysCalm (clock : Nat → Timestamp) (transaction : Transaction) :
    (validation clock (some transaction)).StaysCalm CheckState.Calm where
  step := by
    intro now shared next state later hshared hcalm hstep
    cases CheckState.act_of_step? hstep with
    | start hnext =>
        rw [hnext]
        exact ⟨hshared, trivial⟩
    | askCustomer hinner => exact (staysCalm_customerExists _).step hshared hcalm hinner
    | hearCustomer hending hnext =>
        rw [hnext]
        exact ⟨hshared, CheckState.calm_afterCustomer _
          ((staysCalm_customerExists _).ending hcalm hending)⟩
    | askProduct hinner => exact (staysCalm_product _).step hshared hcalm hinner
    | hearProduct hending hnext =>
        rw [hnext]
        exact ⟨hshared, CheckState.calm_afterProduct _ _
          ((staysCalm_product _).ending hcalm hending)⟩
  cut hcalm hcut := by cases hcut
  ending := by
    intro state ending hcalm hending
    cases state <;> cases hending
    exact hcalm

/-! ## Processing -/

theorem timedSaving_staysCalm (limitMillis : Nat) (marked : Transaction) :
    (timedSaving limitMillis marked).StaysCalm (Timed.Calm RequestState.Calm) := by
  refine Operation.StaysCalm.timed ⟨?_, ?_, ?_⟩ savingStage limitMillis
  · intro now shared next state later hshared hcalm hstep
    obtain ⟨⟨store, answered⟩, hrequest, hnext⟩ := Option.map_eq_some_iff.mp hstep
    cases hnext
    exact Request.calm_of_step? (fun _ => ⟨(), rfl⟩) hshared hrequest
  · intro chosen state later hcalm hcut
    cases hcut
  · intro state ending hcalm hending
    cases state <;> cases hending
    exact hcalm

/-- No part of the processing was aborted. -/
def ProcessState.Calm : ProcessState → Prop
  | .checking state => state.Calm CheckState.Calm
  | .saving _ state => state.Calm RequestState.Calm
  | .saved _ => True
  | .done ending => ending.Returned

namespace ProcessState

theorem calm_afterCheck (now limitMillis : Nat) (clock : Nat → Timestamp)
    (transaction : Transaction) {ending : Ending Unit} (hreturned : ending.Returned) :
    (afterCheck now limitMillis clock transaction ending).Calm := by
  rcases ending with (_ | _) | _
  · exact trivial
  · exact trivial
  · exact hreturned

theorem calm_afterSaving {ending : Ending Transaction} (hreturned : ending.Returned) :
    (afterSaving ending).Calm := by
  rcases ending with (_ | _) | _
  · exact trivial
  · exact trivial
  · exact hreturned

end ProcessState

theorem processing_staysCalm (clock : Nat → Timestamp) (limitMillis : Nat)
    (transaction : Transaction) :
    (processing clock limitMillis transaction).StaysCalm ProcessState.Calm where
  step := by
    intro now shared next state later hshared hcalm hstep
    have hcheck : (timedValidation clock limitMillis (some transaction)).StaysCalm
        (Timed.Calm CheckState.Calm) := (validation_staysCalm clock transaction).timed _ _
    cases ProcessState.act_of_step? hstep with
    | check hinner => exact hcheck.step hshared hcalm hinner
    | checked hending hnext =>
        rw [hnext]
        exact ⟨hshared, ProcessState.calm_afterCheck _ _ _ _ (hcheck.ending hcalm hending)⟩
    | save hinner => exact (timedSaving_staysCalm limitMillis _).step hshared hcalm hinner
    | answered _ hending hnext =>
        rw [hnext]
        exact ⟨hshared, ProcessState.calm_afterSaving
          ((timedSaving_staysCalm limitMillis _).ending hcalm hending)⟩
    | publish hnext =>
        rw [hnext]
        exact ⟨hshared, trivial⟩
  cut := by
    intro chosen state later hcalm hcut
    cases state with
    | checking state =>
        obtain ⟨later, hinner, rfl⟩ := Option.map_eq_some_iff.mp hcut
        exact ((validation_staysCalm clock transaction).timed _ _).cut hcalm hinner
    | saving marked state =>
        obtain ⟨later, hinner, rfl⟩ := Option.map_eq_some_iff.mp hcut
        exact (timedSaving_staysCalm limitMillis marked).cut hcalm hinner
    | saved | done => cases hcut
  ending := by
    intro state ending hcalm hending
    cases state <;> cases hending
    exact hcalm

/-! ## Submissions -/

/-- No part of a call was aborted. -/
def Phase.Calm (calm : ω → Prop) : Phase ω α → Prop
  | .operating _ state => calm state
  | .finished ending => ending.Returned
  | _ => True

theorem Phase.calm_afterAnswer (calm : ω → Prop) (held : List Hold) (position : Nat)
    (ahead : List Nat) (guard : Guard) (answer : Bulkhead.SlotAnswer) :
    (Phase.afterAnswer held position ahead guard answer : Phase ω α).Calm calm := by
  cases answer <;> exact trivial

namespace GuardedCall

theorem calm_settle (calm : ω → Prop) (protection : Protection) (now : Nat)
    (call : GuardedCall ω α) (result : Except Failure α) :
    (call.settle protection now result).phase.Calm calm := by
  cases result with
  | ok value => exact trivial
  | error failure =>
      unfold settle
      dsimp only
      split <;> exact trivial

/-- An action of a call whose operation stays calm. -/
theorem Act.calm {protection : Protection} {operation : Operation Resources ω α}
    {start : Nat → Nat → ω} {calm : ω → Prop} (hstays : operation.StaysCalm calm)
    (hstart : ∀ now attempt, calm (start now attempt)) {now : Nat} {guards after : List Guard}
    {shared next : Resources} {call later : GuardedCall ω α} (hshared : shared.Calm)
    (hcalm : call.phase.Calm calm)
    (hact : Act protection operation start now (guards, shared, call) (after, next, later)) :
    next.Calm ∧ later.phase.Calm calm := by
  -- A call is aborted only if its operation is.
  cases hact with
  | begin => exact ⟨hshared, hstart ..⟩
  | answered hguard hhears => exact ⟨hshared, Phase.calm_afterAnswer ..⟩
  | operated hstep => exact hstays.step hshared hcalm hstep
  | aborted hstuck hending => exact ⟨hshared, hstays.ending hcalm hending⟩
  | settled => exact ⟨hshared, calm_settle ..⟩
  | _ => exact ⟨hshared, trivial⟩

end GuardedCall

namespace Submission

/-- No part of a submission was aborted. -/
def Calm (submission : Submission) : Prop :=
  submission.call.phase.Calm (Timed.Calm ProcessState.Calm)

theorem calm_ofBatch (pipeline : Pipeline) (format : WireFormat) (transaction : Transaction) :
    (ofBatch pipeline format transaction).Calm := trivial

theorem calm_of_step? {now : Nat} {before after : Pipeline} {submission later : Submission}
    (hstore : before.resources.Calm) (hcalm : submission.Calm)
    (hstep : submission.step? now before = some (after, later)) :
    after.resources.Calm ∧ later.Calm := by
  rcases step?_cases hstep with
    ⟨guards, resources, call, hact, rfl, rfl⟩ | ⟨result, -, -, rfl, rfl⟩
  · have hstays : (submission.work before).StaysCalm (Timed.Calm ProcessState.Calm) :=
      (processing_staysCalm ..).timed _ _
    have hstart : ∀ now limitMillis, (startProcessing now limitMillis).Calm ProcessState.Calm :=
      fun _ _ => trivial
    exact hact.calm hstays (fun _ _ => hstart ..) hstore hcalm
  · exact ⟨hstore, hcalm⟩

theorem calm_of_cut? {pipeline : Pipeline} {chosen : Deadline → Bool}
    {submission later : Submission} (hcalm : submission.Calm)
    (hcut : (operation pipeline).cut? chosen submission = some later) : later.Calm := by
  obtain ⟨held, state, state', hphase, hinner, rfl⟩ := cut?_cases hcut
  unfold Calm at hcalm
  rw [hphase] at hcalm
  exact ((processing_staysCalm ..).timed processingStage _).cut hcalm hinner

theorem returned_of_ending? {submission : Submission} {ending : Ending Transaction}
    (hcalm : submission.Calm) (hending : submission.ending? = some ending) : ending.Returned := by
  unfold Calm at hcalm
  rw [(finished_of_ending? hending).1] at hcalm
  exact hcalm

end Submission

end Clearing
