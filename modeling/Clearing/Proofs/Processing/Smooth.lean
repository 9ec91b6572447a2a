import Clearing.Proofs.Guard.Ready
import Clearing.Proofs.Processing.Settled
import Clearing.Proofs.Settings.Check

/-!
# Pipelines that hold nobody up

A pipeline is smooth if its guards are ready and its resources are settled
(`Pipeline.Smooth`).  A transaction of a batch that is submitted to it is handled
in one go, and leaves it smooth; what becomes of the transaction depends on the
reference data and the time of day alone (`Submission.leads_ofBatch`).
-/

namespace Clearing

/-- Nobody is held up, and all answers are those of the reference data. -/
structure Pipeline.Smooth (reference : Ledger) (pipeline : Pipeline) : Prop where
  guards : Guard.AllReady [] pipeline.guards
  resources : pipeline.resources.Settled reference

theorem Guard.ready_of_new? {name : String} {breaker : BreakerSettings}
    {bulkhead : BulkheadSettings} {guard : Guard} (hbreaker : Settings.BreakerUsable breaker)
    (hslots : 0 < bulkhead.maxConcurrent) (hnew : Guard.new? name breaker bulkhead = some guard) :
    guard.Ready 0 := by
  obtain ⟨made, hmade, rfl⟩ := Option.map_eq_some_iff.mp hnew
  obtain ⟨-, hmade⟩ := Option.ite_none_right_eq_some.mp hmade
  cases hmade
  refine ⟨Breaker.untroubled_new hbreaker.failureThreshold, rfl, rfl, ?_⟩
  rw [Nat.zero_add]
  exact hslots

/-- **A new pipeline with settings that were checked is smooth.** -/
theorem Pipeline.smooth_of_new? {settings : Settings} {ledger : Ledger} {clock : Nat → Timestamp}
    {pipeline : Pipeline} (hcheck : settings.check = .ok ())
    (hnew : Pipeline.new? settings ledger clock = some pipeline) : pipeline.Smooth ledger := by
  have husable := Settings.check_eq_ok_iff.mp hcheck
  obtain ⟨shared, hshared, hnew⟩ := Option.bind_eq_some_iff.mp hnew
  obtain ⟨text, htext, hnew⟩ := Option.bind_eq_some_iff.mp hnew
  obtain ⟨binary, hbinary, hnew⟩ := Option.bind_eq_some_iff.mp hnew
  cases hnew
  refine ⟨?_, Resources.settled_new ledger settings.cacheMillis⟩
  have hguards : ∀ guard ∈ [shared, text, binary], guard.Ready 0 := by
    simp only [List.forall_mem_cons]
    exact ⟨Guard.ready_of_new? husable.sharedBreaker husable.sharedSlots hshared,
      Guard.ready_of_new? husable.formatBreaker husable.formatSlots htext,
      Guard.ready_of_new? husable.formatBreaker husable.formatSlots hbinary, List.forall_mem_nil _⟩
  intro position guard hguard
  exact hguards guard (List.mem_of_getElem? hguard)

variable {reference : Ledger} {pipeline : Pipeline}

/-- What becomes of a transaction is no failure that counts. -/
theorem Ledger.Settles.outcome_ne_failure {time : Timestamp} {transaction : Transaction}
    {result : Except Failure Transaction} (hsettles : reference.Settles time transaction result) :
    Outcome.of result ≠ .failure := by
  cases hsettles with
  | saved => exact Outcome.noConfusion
  | refused hrefuses violation => exact Outcome.noConfusion

/-- Nor is it worth another attempt. -/
theorem Ledger.Settles.isRetryable {time : Timestamp} {transaction : Transaction}
    {result : Except Failure Transaction} (hsettles : reference.Settles time transaction result)
    {failure : Failure} (hfailure : result = .error failure) : failure.isRetryable = false := by
  cases hsettles with
  | saved => cases hfailure
  | refused hrefuses violation =>
      cases hfailure
      rfl

namespace Submission

/-- A submission goes on as its call does. -/
private theorem leads_of_call {submission : Submission} {now : Nat} {guards after : List Guard}
    {resources later : Resources} {call final : GuardedCall (Timed ProcessState) Transaction}
    (hleads : (GuardedCall.operation submission.protection (submission.work pipeline)
        (fun now _ => startProcessing now pipeline.settings.deadlineMillis)
        ((submission.work pipeline).effort (startProcessing 0 0))).Leads now
      ((guards, resources), call) ((after, later), final)) :
    (operation pipeline).Leads now ({ pipeline with guards, resources }, { submission with call })
      ({ pipeline with guards := after, resources := later },
        { submission with call := final }) := by
  refine hleads.lift (fun point =>
    (({ pipeline with guards := point.1.1, resources := point.1.2 } : Pipeline),
      { submission with call := point.2 })) ?_
  intro before after hproceeds
  obtain ⟨⟨guards, resources, call⟩, hstep, rfl⟩ := Option.map_eq_some_iff.mp hproceeds.step
  refine ⟨hproceeds.wait, ?_, Nat.add_lt_add_right hproceeds.less _⟩
  simp only [operation, step?, work] at hstep ⊢
  rw [hstep]

/-- **A transaction of a batch is handled in one go.** -/
theorem leads_ofBatch (hsmooth : pipeline.Smooth reference) (now : Nat) (format : WireFormat)
    (transaction : Transaction) :
    ∃ after final result,
      (operation pipeline).Leads now (pipeline, ofBatch pipeline format transaction)
        (after, final) ∧
        final.ending? = some (.returned result) ∧ final.step? now after = none ∧
          (operation pipeline).wait? final = none ∧
            reference.Settles (pipeline.clock now) transaction result ∧
              after.Smooth reference ∧ pipeline.Kindred after := by
  let start := ofBatch pipeline format transaction
  obtain ⟨later, result, hwork, hsettles⟩ := timedProcessing_leads hsmooth.resources now
    pipeline.settings.deadlineMillis pipeline.clock transaction
  have hnodup : [Pipeline.formatGuard format, Pipeline.sharedGuard].Nodup := by
    cases format <;> decide
  obtain ⟨guards, hguards, hcall⟩ : ∃ guards, Guard.AllReady [] guards ∧
      (GuardedCall.operation start.protection (start.work pipeline)
        (fun now _ => startProcessing now pipeline.settings.deadlineMillis)
        ((start.work pipeline).effort (startProcessing 0 0))).Leads now
        ((pipeline.guards, pipeline.resources), .new start.protection)
        ((guards, later), ⟨1, .finished (.returned result)⟩) :=
    GuardedCall.leads_new le_rfl hsmooth.guards hnodup hwork rfl rfl rfl
      hsettles.outcome_ne_failure fun failure => hsettles.isRetryable
  have hlater : later.Settled reference :=
    hwork.settled (Operation.Changes.timed (processing_changes _ _ _) _ _) hsmooth.resources
  have hcount : (operation pipeline).Proceeds now
      ({ pipeline with guards, resources := later },
        { start with call := ⟨1, .finished (.returned result)⟩ })
      (({ pipeline with guards, resources := later } : Pipeline).record format
          (failureKind? result),
        { start with call := ⟨1, .finished (.returned result)⟩, counted := true }) :=
    ⟨rfl, rfl, Nat.lt_succ_self _⟩
  exact ⟨_, _, result, (leads_of_call hcall).tail hcount, rfl, rfl, rfl, hsettles,
    ⟨hguards, hlater⟩, ⟨rfl, rfl⟩⟩

end Submission

end Clearing
