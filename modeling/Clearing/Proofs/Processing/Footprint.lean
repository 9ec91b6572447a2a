import Clearing.Processing
import Clearing.Proofs.Operation.Frame

/-!
# What processing leaves behind

The processing of a transaction does two deeds to the books, that is to the
ledger and the summaries: it saves the transaction, and then it invalidates the
summaries.  A state tells whether its next step is one of them.  It also tells
which were done so far; that is its footprint.

`processing_leaves` is the whole argument that a deadline never falls between
the saving and its success: an operation is cut short only while it waits, and
while it waits its footprint is empty.

## Strategy

`Operation.Leaves` says how deeds and footprints go along with the steps, the
waits, the cuts and the ending of an operation.  It is proved for the request
that saves, then for the processing, and it passes through deadlines
(`Leaves.timed`).
-/

namespace Clearing

variable {ω α β : Type}

/-- What is done to the books for a transaction. -/
inductive Deed where
  /-- The transaction is saved. -/
  | save
  /-- The summaries are invalidated. -/
  | publish
  deriving DecidableEq

/-! ## The next deed -/

/-- A request that saves does so at its end, unless it is to fail. -/
def RequestState.deed? (now : Nat) : RequestState β α → Option Deed
  | .waiting _ wakes fails => if !fails ∧ wakes ≤ now then some .save else none
  | .concluding _ fails => if fails then none else some .save
  | _ => none

/-- Who was cut short does nothing any more. -/
def Timed.deed? (deed? : Nat → ω → Option Deed) (now : Nat) (running : Timed ω) : Option Deed :=
  if running.elapsed then none else deed? now running.state

/-- The deed that is the next step of the processing, if it is one. -/
def ProcessState.deed? (now : Nat) : ProcessState → Option Deed
  | .saving _ state => state.deed? RequestState.deed? now
  | .saved _ => some .publish
  | _ => none

/-! ## Footprints -/

/-- The deeds that were done for a transaction. -/
inductive Footprint where
  | nothing
  /-- The transaction was saved like this. -/
  | saved (transaction : Transaction)
  /-- After it was saved the summaries were invalidated. -/
  | published (transaction : Transaction)

namespace Footprint

/-- The footprint of an ending: a failure leaves nothing. -/
def ofEnding (done : Transaction → Footprint) : Ending Transaction → Footprint
  | .returned (.ok transaction) => done transaction
  | _ => .nothing

/-- How the books and the footprint change in a step that is a deed or none. -/
inductive Step (submitted : Transaction) : Option Deed →
    Ledger × SummaryCache → Ledger × SummaryCache → Footprint → Footprint → Prop
  | quiet {books : Ledger × SummaryCache} {footprint : Footprint} :
      Step submitted none books books footprint footprint
  | save {ledger : Ledger} {summaries : SummaryCache} {time : Timestamp} :
      Step submitted (some .save) (ledger, summaries)
        ((ledger.save (submitted.markProcessed time)).2, summaries)
        .nothing (.saved (ledger.save (submitted.markProcessed time)).1)
  | publish {ledger : Ledger} {summaries : SummaryCache} {transaction : Transaction} :
      Step submitted (some .publish) (ledger, summaries) (ledger, summaries.invalidate)
        (.saved transaction) (.published transaction)

theorem Step.of_keeps {submitted : Transaction} {deed : Option Deed}
    {before after : Ledger × SummaryCache} {footprint : Footprint} (hdeed : deed = none)
    (hkeeps : after = before) : Step submitted deed before after footprint footprint := by
  rw [hdeed, hkeeps]
  exact .quiet

end Footprint

/-- An operation for a transaction does deeds and leaves footprints as its states tell (`deed?`,
`left`), and `done` when it succeeds. -/
structure Operation.Leaves (operation : Operation Resources ω Transaction)
    (submitted : Transaction) (deed? : Nat → ω → Option Deed) (left : ω → Footprint → Prop)
    (done : Transaction → Footprint) : Prop where
  step {now : Nat} {shared next : Resources} {state later : ω} {footprint : Footprint}
    (hleft : left state footprint)
    (hstep : operation.step? now shared state = some (next, later)) :
    ∃ footprint', left later footprint' ∧
      Footprint.Step submitted (deed? now state) shared.books next.books footprint footprint'
  /-- A deed is a step. -/
  idle {now : Nat} {shared : Resources} {state : ω} {footprint : Footprint}
    (hleft : left state footprint) (hstep : operation.step? now shared state = none) :
    deed? now state = none
  /-- Who waits has done nothing. -/
  waiting {state : ω} {footprint : Footprint} (hleft : left state footprint)
    (hwait : operation.wait? state ≠ none) : footprint = .nothing
  /-- Who can do nothing has done nothing, unless this is the end. -/
  stuck {now : Nat} {shared : Resources} {state : ω} {footprint : Footprint}
    (hleft : left state footprint) (hstep : operation.step? now shared state = none)
    (hending : operation.ending? state = none) : footprint = .nothing
  cut {chosen : Deadline → Bool} {state later : ω} (hleft : left state .nothing)
    (hcut : operation.cut? chosen state = some later) : left later .nothing
  ending {state : ω} {footprint : Footprint} {ending : Ending Transaction}
    (hleft : left state footprint) (hending : operation.ending? state = some ending) :
    footprint = .ofEnding done ending

/-! ## Deadlines -/

/-- Under a deadline an operation leaves what it leaves without one, and nothing if it is cut
short. -/
inductive Timed.Left (left : ω → Footprint → Prop) : Timed ω → Footprint → Prop
  | running {state : ω} {latest : Nat} {footprint : Footprint} (hleft : left state footprint) :
      Left left { state, latest, elapsed := false } footprint
  | elapsed {state : ω} {latest : Nat} : Left left { state, latest, elapsed := true } .nothing

theorem Operation.Leaves.timed {operation : Operation Resources ω Transaction}
    {submitted : Transaction} {deed? : Nat → ω → Option Deed} {left : ω → Footprint → Prop}
    {done : Transaction → Footprint} (hleaves : operation.Leaves submitted deed? left done)
    (stage : String) (limitMillis : Nat) :
    (operation.timed stage limitMillis).Leaves submitted (Timed.deed? deed?) (Timed.Left left)
      done where
  step hleft hstep := by
    obtain ⟨helapsed, hcases⟩ := timed_step?_cases hstep
    cases hleft with
    | elapsed => cases helapsed
    | running hleft =>
        rcases hcases with ⟨later, hinner, rfl⟩ | ⟨hnone, hending, -, rfl, rfl⟩
        · obtain ⟨footprint, hlater, hbooks⟩ := hleaves.step hleft hinner
          exact ⟨footprint, .running hlater, hbooks⟩
        · -- The time is over, and nothing was done: else there were a step or an ending.
          rw [hleaves.stuck hleft hnone hending]
          exact ⟨.nothing, .elapsed, .of_keeps (hleaves.idle hleft hnone) rfl⟩
  idle hleft hstep := by
    cases hleft with
    | elapsed => rfl
    | running hleft => exact hleaves.idle hleft (step?_eq_none_of_timed rfl hstep)
  waiting hleft hwait := by
    cases hleft with
    | elapsed => rfl
    | running hleft => exact hleaves.waiting hleft hwait
  stuck hleft hstep hending := by
    cases hleft with
    | elapsed => rfl
    | running hleft =>
        exact hleaves.stuck hleft (step?_eq_none_of_timed rfl hstep) hending
  cut hleft hcut := by
    obtain ⟨helapsed, ⟨later, hinner, rfl⟩ | rfl⟩ := timed_cut?_cases hcut
    · cases hleft with
      | elapsed => cases helapsed
      | running hleft => exact .running (hleaves.cut hleft hinner)
    · exact .elapsed
  ending hleft hending := by
    cases hleft with
    | elapsed => cases hending; rfl
    | running hleft => exact hleaves.ending hleft hending

/-! ## Saving -/

/-- What a request that saves has left. -/
inductive RequestState.Left : RequestState Unit Transaction → Footprint → Prop
  | arriving : Left .arriving .nothing
  | waiting {read : Unit} {wakes : Nat} {fails : Bool} : Left (.waiting read wakes fails) .nothing
  | concluding {read : Unit} {fails : Bool} : Left (.concluding read fails) .nothing
  | answered {ending : Ending Transaction} : Left (.answered ending) (.ofEnding .saved ending)

namespace Request

theorem left_arrive (marked : Transaction) (now : Nat) (store : Store) :
    ((save marked).arrive now store).2.Left .nothing := by
  unfold arrive
  split
  · exact .answered
  · dsimp only
    split
    · exact .answered
    · dsimp only
      split
      · exact .concluding
      · exact .waiting

theorem conclude_leaves {submitted : Transaction} {time : Timestamp} {resources : Resources}
    {store : Store} {read : Unit} {fails : Bool} {later : RequestState Unit Transaction}
    (hconclude :
      (save (submitted.markProcessed time)).conclude resources.store read fails = (store, later)) :
    ∃ footprint, later.Left footprint ∧
      Footprint.Step submitted (if fails then none else some .save) resources.books
        { resources with store }.books .nothing footprint := by
  cases fails with
  | true =>
      cases hconclude
      exact ⟨.nothing, .answered, .quiet⟩
  | false =>
      cases hconclude
      exact ⟨_, .answered, .save⟩

end Request

/-- A request that saves leaves nothing but what it answers. -/
theorem saving_leaves (submitted : Transaction) (time : Timestamp) :
    (((Request.save (submitted.markProcessed time)).operation.within (·.store)
      fun resources store => { resources with store }).Leaves submitted RequestState.deed?
        RequestState.Left .saved) where
  step := by
    intro now shared next state later footprint hleft hstep
    obtain ⟨⟨store, answered⟩, hrequest, hnext⟩ := Option.map_eq_some_iff.mp hstep
    cases hnext
    cases hleft with
    | arriving =>
        -- When it arrives the request is counted and read, and the ledger is left alone.
        have harrive := Option.some.inj hrequest
        have hleft := Request.left_arrive (submitted.markProcessed time) now shared.store
        have hledger :=
          Request.ledger_arrive (.save (submitted.markProcessed time)) now shared.store
        rw [harrive] at hleft hledger
        exact ⟨.nothing, hleft, .of_keeps rfl (Prod.ext hledger rfl)⟩
    | @waiting read wakes fails =>
        obtain ⟨hwakes, hconclude⟩ := Option.ite_none_right_eq_some.mp hrequest
        have hleaves := Request.conclude_leaves (Option.some.inj hconclude)
        cases fails <;> simpa [RequestState.deed?, hwakes] using hleaves
    | concluding => exact Request.conclude_leaves (Option.some.inj hrequest)
    | answered => cases hrequest
  idle := by
    intro now shared state footprint hleft hstep
    cases hleft with
    | @waiting read wakes fails =>
        have hwakes : ¬ wakes ≤ now := by
          simpa [Operation.within, Request.operation] using hstep
        simp [RequestState.deed?, hwakes]
    | concluding => cases hstep
    | _ => rfl
  waiting hleft hwait := by
    cases hleft with
    | answered => exact absurd rfl hwait
    | _ => rfl
  stuck hleft hstep hending := by
    cases hleft with
    | answered => cases hending
    | _ => rfl
  cut hleft hcut := by cases hcut
  ending hleft hending := by cases hleft <;> cases hending; rfl

theorem timedSaving_leaves (submitted : Transaction) (time : Timestamp) (limitMillis : Nat) :
    (timedSaving limitMillis (submitted.markProcessed time)).Leaves submitted
      (Timed.deed? RequestState.deed?) (Timed.Left RequestState.Left) .saved :=
  (saving_leaves submitted time).timed savingStage limitMillis

/-! ## Processing -/

/-- What one step of the processing of a transaction can be. -/
inductive ProcessState.Act (clock : Nat → Timestamp) (limitMillis : Nat)
    (transaction : Transaction) (now : Nat) (shared next : Resources) :
    ProcessState → ProcessState → Prop
  | check {state later : Timed CheckState}
      (hstep : (timedValidation clock limitMillis (some transaction)).step? now shared state =
        some (next, later)) :
      Act clock limitMillis transaction now shared next (.checking state) (.checking later)
  | checked {state : Timed CheckState} {ending : Ending Unit}
      (hending : (timedValidation clock limitMillis (some transaction)).ending? state =
        some ending) (hnext : next = shared) :
      Act clock limitMillis transaction now shared next (.checking state)
        (.afterCheck now limitMillis clock transaction ending)
  | save {marked : Transaction} {state later : Timed (RequestState Unit Transaction)}
      (hstep : (timedSaving limitMillis marked).step? now shared state = some (next, later)) :
      Act clock limitMillis transaction now shared next (.saving marked state)
        (.saving marked later)
  | answered {marked : Transaction} {state : Timed (RequestState Unit Transaction)}
      {ending : Ending Transaction}
      (hstuck : (timedSaving limitMillis marked).step? now shared state = none)
      (hending : (timedSaving limitMillis marked).ending? state = some ending)
      (hnext : next = shared) :
      Act clock limitMillis transaction now shared next (.saving marked state)
        (.afterSaving ending)
  | publish {saved : Transaction} (hnext : next = shared.invalidateSummaries) :
      Act clock limitMillis transaction now shared next (.saved saved)
        (.done (.returned (.ok saved)))

namespace ProcessState

variable {clock : Nat → Timestamp} {limitMillis now : Nat} {transaction marked : Transaction}
  {shared next : Resources}

theorem act_of_step? {state later : ProcessState}
    (hstep : (processing clock limitMillis transaction).step? now shared state =
      some (next, later)) : Act clock limitMillis transaction now shared next state later := by
  cases state with
  | checking state =>
      simp only [processing] at hstep
      split at hstep
      · rename_i hinner
        cases hstep
        exact .check hinner
      · obtain ⟨ending, hending, hend⟩ := Option.map_eq_some_iff.mp hstep
        cases hend
        exact .checked hending rfl
  | saving marked state =>
      simp only [processing] at hstep
      split at hstep
      · rename_i hinner
        cases hstep
        exact .save hinner
      · rename_i hstuck
        obtain ⟨ending, hending, hend⟩ := Option.map_eq_some_iff.mp hstep
        cases hend
        exact .answered hstuck hending rfl
  | saved saved =>
      cases hstep
      exact .publish rfl
  | done ending => cases hstep

/-- If there is no step while a transaction is being saved, its saving has none and has not
ended. -/
theorem stuck_of_saving {state : Timed (RequestState Unit Transaction)}
    (hstuck : (processing clock limitMillis transaction).step? now shared
      (.saving marked state) = none) :
    (timedSaving limitMillis marked).step? now shared state = none ∧
      (timedSaving limitMillis marked).ending? state = none := by
  simp only [processing] at hstuck
  split at hstuck
  · cases hstuck
  · rename_i hinner
    exact ⟨hinner, Option.map_eq_none_iff.mp hstuck⟩

end ProcessState

/-- What the processing of a transaction has left. -/
inductive ProcessState.Left (submitted : Transaction) : ProcessState → Footprint → Prop
  | checking {state : Timed CheckState} : Left submitted (.checking state) .nothing
  | saving {time : Timestamp} {state : Timed (RequestState Unit Transaction)}
      {footprint : Footprint} (hleft : Timed.Left RequestState.Left state footprint) :
      Left submitted (.saving (submitted.markProcessed time) state) footprint
  | saved {transaction : Transaction} :
      Left submitted (.saved transaction) (.saved transaction)
  | done {ending : Ending Transaction} :
      Left submitted (.done ending) (.ofEnding .published ending)

theorem ProcessState.left_afterCheck (now limitMillis : Nat) (clock : Nat → Timestamp)
    (submitted : Transaction) (ending : Ending Unit) :
    (afterCheck now limitMillis clock submitted ending).Left submitted .nothing := by
  rcases ending with (_ | _) | _
  · exact .done
  · exact .saving (.running .arriving)
  · exact .done

theorem ProcessState.left_afterSaving (submitted : Transaction) (ending : Ending Transaction) :
    (afterSaving ending).Left submitted (.ofEnding .saved ending) := by
  rcases ending with (_ | _) | _
  · exact .done
  · exact .saved
  · exact .done

/-- **No cut falls between the saving and the success of the processing.** -/
theorem processing_leaves (clock : Nat → Timestamp) (limitMillis : Nat)
    (submitted : Transaction) :
    (processing clock limitMillis submitted).Leaves submitted ProcessState.deed?
      (ProcessState.Left submitted) .published where
  step := by
    intro now shared next state later footprint hleft hstep
    cases ProcessState.act_of_step? hstep with
    | check hinner =>
        cases hleft
        refine ⟨.nothing, .checking, .of_keeps rfl ?_⟩
        exact Operation.Keeps.timed (validation_keeps_books clock (some submitted)) _ _ hinner
    | checked hending hnext =>
        cases hleft
        rw [hnext]
        exact ⟨.nothing, ProcessState.left_afterCheck .., .quiet⟩
    | save hinner =>
        cases hleft with
        | saving hleft =>
            obtain ⟨footprint, hlater, hbooks⟩ :=
              (timedSaving_leaves _ _ limitMillis).step hleft hinner
            exact ⟨footprint, .saving hlater, hbooks⟩
    | answered hstuck hending hnext =>
        cases hleft with
        | @saving time state footprint hleft =>
            -- What was saved stays saved, and what was not is not saved any more.
            have hsaving := timedSaving_leaves submitted time limitMillis
            rw [hsaving.ending hleft hending, hnext]
            exact ⟨_, ProcessState.left_afterSaving .., .of_keeps (hsaving.idle hleft hstuck) rfl⟩
    | publish hnext =>
        cases hleft
        rw [hnext]
        exact ⟨_, .done, .publish⟩
  idle hleft hstep := by
    cases hleft with
    | saving hleft =>
        exact (timedSaving_leaves _ _ limitMillis).idle hleft
          (ProcessState.stuck_of_saving hstep).1
    | saved => cases hstep
    | _ => rfl
  waiting hleft hwait := by
    cases hleft with
    | checking => rfl
    | saving hleft => exact (timedSaving_leaves _ _ limitMillis).waiting hleft hwait
    | saved => exact absurd rfl hwait
    | done => exact absurd rfl hwait
  stuck hleft hstep hending := by
    cases hleft with
    | checking => rfl
    | saving hleft =>
        obtain ⟨hstuck, hending⟩ := ProcessState.stuck_of_saving hstep
        exact (timedSaving_leaves _ _ limitMillis).stuck hleft hstuck hending
    | saved => cases hstep
    | done => cases hending
  cut := by
    intro chosen state later hleft hcut
    -- A check has done nothing, and the saving is cut short before it has done anything.
    cases state with
    | checking state =>
        obtain ⟨later, -, rfl⟩ := Option.map_eq_some_iff.mp hcut
        exact .checking
    | saving marked state =>
        obtain ⟨later, hinner, rfl⟩ := Option.map_eq_some_iff.mp hcut
        cases hleft with
        | saving hleft =>
            exact .saving ((timedSaving_leaves _ _ limitMillis).cut hleft hinner)
    | saved | done => cases hcut
  ending hleft hending := by
    cases hleft with
    | done => cases hending; rfl
    | _ => cases hending

theorem left_startProcessing (submitted : Transaction) (now limitMillis : Nat) :
    Timed.Left (ProcessState.Left submitted) (startProcessing now limitMillis) .nothing :=
  .running .checking

end Clearing
