import Clearing.Proofs.Processing.Checking
import Clearing.Proofs.Processing.Course

/-!
# Deadlines within deadlines

The processing of a transaction has a deadline, and so have the check and the saving within it.
All three allow the same time, but they do not begin together: the saving begins when the check
is passed.  Where two of them are over at the same time the inner one is heeded first, and
whatever ends by then is in time.

For a transaction that nothing is wrong with it depends on the times of the store alone which of
them elapses, if any (`timedProcessing_comesTo_saved`, `timedProcessing_comesTo_overdue`).  Every
attempt that was let in goes this way (`Submission.attempt_reaches`).
-/

namespace Clearing

/-! ## The parts of the processing -/

section Parts

variable {limitMillis now latest : Nat} {resources : Resources}

theorem processing_hosts_check (clock : Nat → Timestamp) (limitMillis : Nat)
    (transaction : Transaction) :
    (processing clock limitMillis transaction).Hosts
      (timedValidation clock limitMillis (some transaction)) id ProcessState.checking where
  step hstep := by
    simp only [processing, id_eq, hstep]
  still hstep hending := by
    simp only [processing, id_eq, hstep, hending, Option.map_none]
  running _ := rfl
  alarms _ := rfl

theorem processing_hosts_saving (clock : Nat → Timestamp) (limitMillis : Nat)
    (transaction marked : Transaction) :
    (processing clock limitMillis transaction).Hosts (timedSaving limitMillis marked) id
      (ProcessState.saving marked) where
  step hstep := by
    simp only [processing, id_eq, hstep]
  still hstep hending := by
    simp only [processing, id_eq, hstep, hending, Option.map_none]
  running _ := rfl
  alarms _ := rfl

/-- The resources while a transaction is being saved. -/
def Resources.whileSaving (resources : Resources) : Resources :=
  { resources with store := resources.store.meet .saving }

/-- The resources after the saving of a transaction. -/
def Resources.afterSaving (resources : Resources) (marked : Transaction) : Resources :=
  { resources with store := (Request.save marked).concluded resources.store () }

/-- Saving a transaction without a deadline. -/
abbrev untimedSaving (marked : Transaction) :
    Operation Resources (RequestState Unit Transaction) Transaction :=
  (Request.save marked).operation.within (·.store) fun resources store => { resources with store }

/-- The saving is a request to the store among the resources. -/
theorem saving_hosts_request (marked : Transaction) (resources : Resources) :
    (untimedSaving marked).Hosts (Request.save marked).operation
      (fun store => { resources with store }) id :=
  Operation.hosts_within (Request.save marked).operation resources (fun _ => rfl) fun _ _ => rfl

/-- A saving that takes no longer than it may comes to its end. -/
theorem timedSaving_reaches_of_le (marked : Transaction) (now : Nat)
    (htime : (resources.store.conditions.of .saving).latency ≤ limitMillis) :
    (timedSaving limitMillis marked).Reaches
      ⟨now, resources, .start now limitMillis .arriving⟩
      ⟨now + (resources.store.conditions.of .saving).latency, resources.afterSaving marked,
        ⟨.answered ((resources.store.conditions.of .saving).verdict
          (resources.store.ledger.save marked).1), now + limitMillis, false⟩⟩ :=
  ((saving_hosts_request marked resources).reaches (Request.reaches rfl now)).timed
    (Nat.add_le_add_left htime now)

/-- Before that it only waits. -/
theorem saving_waits (marked : Transaction) (hnow : now ≤ latest)
    (hlate : latest < now + (resources.store.conditions.of .saving).latency) :
    ∃ state, (untimedSaving marked).Reaches ⟨now, resources, .arriving⟩
        ⟨now, resources.whileSaving, state⟩ ∧
      (untimedSaving marked).Idle latest resources.whileSaving state := by
  obtain ⟨state, hreaches, hidle⟩ :=
    @Request.waits _ _ (.save marked) resources.store () rfl now latest hnow hlate
  exact ⟨state, (saving_hosts_request marked resources).reaches hreaches,
    (saving_hosts_request marked resources).idle hidle⟩

/-- Any other saving is cut short when its time is over. -/
theorem timedSaving_reaches_of_lt (marked : Transaction) (now : Nat)
    (hlate : limitMillis < (resources.store.conditions.of .saving).latency) :
    ∃ state, (timedSaving limitMillis marked).Reaches
      ⟨now, resources, .start now limitMillis .arriving⟩
      ⟨now + limitMillis, resources.whileSaving, ⟨state, now + limitMillis, true⟩⟩ := by
  have hnow := Nat.le_add_right now limitMillis
  obtain ⟨state, hreaches, hidle⟩ := saving_waits marked hnow (Nat.add_lt_add_left hlate now)
  exact ⟨state, (hreaches.timed hnow).trans (hidle.elapses hnow savingStage limitMillis)⟩

end Parts

/-! ## The course of the processing -/

section Course

variable {clock : Nat → Timestamp} {limitMillis now : Nat} {transaction : Transaction}
  {resources : Resources}

/-- The check is too slow: it is cut short, and so the processing fails. -/
theorem processing_reaches_overdue_check (clock : Nat → Timestamp)
    (hlate : limitMillis < (Consultation.of (some transaction) now resources).millis) :
    (processing clock limitMillis transaction).Reaches
      ⟨now, resources, .start now limitMillis⟩
      ⟨now + limitMillis, Consultation.left (some transaction) now limitMillis resources,
        .done (.returned (.error (.timeout validationStage (.ofMillis limitMillis))))⟩ := by
  obtain ⟨state, hreaches⟩ := timedValidation_reaches_of_lt clock hlate
  exact ((processing_hosts_check clock limitMillis transaction).reaches hreaches).tail (.acts rfl)

/-- The check is passed in time: the saving begins. -/
theorem processing_reaches_saving
    (htime : (Consultation.of (some transaction) now resources).millis ≤ limitMillis)
    (hpassed : (Consultation.of (some transaction) now resources).ending (some transaction)
      (clock (now + (Consultation.of (some transaction) now resources).millis)) =
        .returned (.ok ())) :
    (processing clock limitMillis transaction).Reaches
      ⟨now, resources, .start now limitMillis⟩
      ⟨now + (Consultation.of (some transaction) now resources).millis,
        Consultation.left (some transaction) now limitMillis resources,
        .saving (transaction.markProcessed
            (clock (now + (Consultation.of (some transaction) now resources).millis)))
          (.start (now + (Consultation.of (some transaction) now resources).millis) limitMillis
            .arriving)⟩ := by
  have hreaches := timedValidation_reaches_of_le clock htime
  rw [hpassed] at hreaches
  refine ((processing_hosts_check clock limitMillis transaction).reaches hreaches).tail (.acts ?_)
  rfl

/-- The saving is answered in time: the transaction is saved and the summaries are invalidated. -/
theorem processing_reaches_saved (clock : Nat → Timestamp) (limitMillis : Nat)
    (transaction marked : Transaction) (now : Nat) (resources : Resources)
    (htime : (resources.store.conditions.of .saving).latency ≤ limitMillis)
    (hanswered : (resources.store.conditions.of .saving).verdict
      (resources.store.ledger.save marked).1 =
        .returned (.ok (resources.store.ledger.save marked).1)) :
    (processing clock limitMillis transaction).Reaches
      ⟨now, resources, .saving marked (.start now limitMillis .arriving)⟩
      ⟨now + (resources.store.conditions.of .saving).latency,
        (resources.afterSaving marked).invalidateSummaries,
        .done (.returned (.ok (resources.store.ledger.save marked).1))⟩ := by
  have hreaches := timedSaving_reaches_of_le marked now htime
  rw [hanswered] at hreaches
  exact (((processing_hosts_saving clock limitMillis transaction marked).reaches hreaches).tail
    (.acts rfl)).tail (.acts rfl)

/-- The saving is too slow: it is cut short, and so the processing fails. -/
theorem processing_reaches_overdue_saving (clock : Nat → Timestamp) (limitMillis : Nat)
    (transaction marked : Transaction) (now : Nat) (resources : Resources)
    (hlate : limitMillis < (resources.store.conditions.of .saving).latency) :
    (processing clock limitMillis transaction).Reaches
      ⟨now, resources, .saving marked (.start now limitMillis .arriving)⟩
      ⟨now + limitMillis, resources.whileSaving,
        .done (.returned (.error (.timeout savingStage (.ofMillis limitMillis))))⟩ := by
  obtain ⟨state, hreaches⟩ := timedSaving_reaches_of_lt marked now hlate
  exact ((processing_hosts_saving clock limitMillis transaction marked).reaches hreaches).tail
    (.acts rfl)

/-- Until the saving is answered or cut short the processing only waits. -/
theorem processing_waits_saving (clock : Nat → Timestamp) (limitMillis : Nat)
    (transaction marked : Transaction) (now latest : Nat) (resources : Resources)
    (hnow : now ≤ latest) (hown : latest < now + limitMillis)
    (hlate : latest < now + (resources.store.conditions.of .saving).latency) :
    ∃ state, (processing clock limitMillis transaction).Reaches
        ⟨now, resources, .saving marked (.start now limitMillis .arriving)⟩
        ⟨now, resources.whileSaving, state⟩ ∧
      (processing clock limitMillis transaction).Idle latest resources.whileSaving state := by
  obtain ⟨state, hreaches, hidle⟩ := saving_waits marked hnow hlate
  have hhosts := processing_hosts_saving clock limitMillis transaction marked
  exact ⟨.saving marked ⟨state, now + limitMillis, false⟩,
    hhosts.reaches (hreaches.timed (Nat.le_add_right now limitMillis)),
    hhosts.idle (hidle.timed hown savingStage limitMillis)⟩

end Course

/-! ## Which deadline elapses -/

/-- Nothing is wrong with a transaction: the customer is known, the product is found, all rules are
satisfied if there is time to check them, and the store will save the transaction.  The lookups
and the saving take the given times; what a cache answers takes none. -/
structure Transaction.Unhindered (transaction : Transaction) (clock : Nat → Timestamp)
    (limitMillis now : Nat) (resources : Resources) (customer product saving : Nat) : Prop where
  customerMillis : ((Lookup.customerExists transaction.customer).hearing now resources).millis =
    customer
  customerKnown : ((Lookup.customerExists transaction.customer).hearing now resources).ending =
    .returned (.ok true)
  productMillis : ((Lookup.product transaction.product).hearing (now + customer) resources).millis =
    product
  productFound : ∃ found,
    ((Lookup.product transaction.product).hearing (now + customer) resources).ending =
      .returned (.ok (some found)) ∧
    (customer + product ≤ limitMillis → Rule.Satisfied (some transaction)
      { known := true, product := some found, clock := clock (now + (customer + product)) })
  savingMillis : (resources.store.conditions.of .saving).delayMillis = saving
  savingAllowed : (resources.store.conditions.of .saving).aborts = 0 ∧
    (resources.store.conditions.of .saving).failures = 0

/-- The stage that is reported if the time is over: that of the deadline that elapses first, and
of the innermost of those that elapse first together. -/
def overdueStage (limitMillis checkMillis : Nat) : String :=
  if limitMillis < checkMillis then validationStage
  else if checkMillis = 0 then savingStage
  else processingStage

section Deadlines

variable {clock : Nat → Timestamp} {limitMillis now time customer product saving : Nat}
  {transaction : Transaction} {resources after : Resources}

theorem Condition.latency_of_no_aborts {condition : Condition} (haborts : condition.aborts = 0) :
    condition.latency = condition.delayMillis := by
  rw [latency, haborts, if_neg (Nat.lt_irrefl 0)]

theorem Condition.verdict_of_no_trouble {α : Type} {condition : Condition}
    (haborts : condition.aborts = 0) (hfailures : condition.failures = 0) (answer : α) :
    condition.verdict answer = .returned (.ok answer) := by
  rw [verdict, haborts, hfailures, if_neg (Nat.lt_irrefl 0), if_neg (Nat.lt_irrefl 0)]

theorem Resources.ledger_afterSaving {marked : Transaction}
    (haborts : (resources.store.conditions.of .saving).aborts = 0)
    (hfailures : (resources.store.conditions.of .saving).failures = 0) :
    (resources.afterSaving marked).store.ledger = (resources.store.ledger.save marked).2 := by
  have htrouble : ¬(0 < (resources.store.conditions.of .saving).aborts ∨
      0 < (resources.store.conditions.of .saving).failures) := by omega
  exact congrArg Store.ledger (if_neg htrouble)

namespace Transaction.Unhindered

theorem of_eq
    (hunhindered : transaction.Unhindered clock limitMillis now resources customer product saving) :
    Consultation.of (some transaction) now resources =
      { customer? := some ((Lookup.customerExists transaction.customer).hearing now resources)
        product? :=
          some ((Lookup.product transaction.product).hearing (now + customer) resources) } := by
  rw [Consultation.of_of_known (congrArg Ending.value? hunhindered.customerKnown),
    hunhindered.customerMillis]

theorem checkMillis
    (hunhindered : transaction.Unhindered clock limitMillis now resources customer product saving) :
    (Consultation.of (some transaction) now resources).millis = customer + product := by
  rw [hunhindered.of_eq, Consultation.millis_pair, hunhindered.customerMillis,
    hunhindered.productMillis]

/-- If there is time for the check it is passed. -/
theorem checkPassed
    (hunhindered : transaction.Unhindered clock limitMillis now resources customer product saving)
    (htime : customer + product ≤ limitMillis) :
    (Consultation.of (some transaction) now resources).ending (some transaction)
      (clock (now + (Consultation.of (some transaction) now resources).millis)) =
        .returned (.ok ()) := by
  obtain ⟨found, hfound, hrules⟩ := hunhindered.productFound
  rw [hunhindered.checkMillis, hunhindered.of_eq, Consultation.ending_eq_ok_iff]
  have hfailure : (Consultation.mk
      (some ((Lookup.customerExists transaction.customer).hearing now resources))
      (some ((Lookup.product transaction.product).hearing (now + customer)
        resources))).failure? = none := by
    simp only [Consultation.failure?, Option.bind_some, hunhindered.customerKnown, hfound]
    rfl
  have hfindings : (Consultation.mk
      (some ((Lookup.customerExists transaction.customer).hearing now resources))
      (some ((Lookup.product transaction.product).hearing (now + customer) resources))).findings
        (clock (now + (customer + product))) =
      { known := true, product := some found, clock := clock (now + (customer + product)) } := by
    simp only [Consultation.findings, Consultation.found?, Option.any_some, Option.bind_some,
      hunhindered.customerKnown, hfound]
    rfl
  rw [hfindings]
  exact ⟨hfailure, hrules htime⟩

end Transaction.Unhindered

/-- What the processing comes to by the end of its time it comes to under the deadline. -/
theorem timedProcessing_comesTo_of_reaches {ending : Ending Transaction}
    (hreaches : (processing clock limitMillis transaction).Reaches
      ⟨now, resources, .start now limitMillis⟩ ⟨time, after, .done ending⟩)
    (htime : time ≤ now + limitMillis) :
    (timedProcessing clock limitMillis transaction).ComesTo
      ⟨now, resources, startProcessing now limitMillis⟩ ending time after :=
  ⟨_, hreaches.timed htime, rfl, Operation.timed_step?_eq_none rfl nofun⟩

/-- If the processing is still waiting at the end of its time it is cut short. -/
theorem timedProcessing_comesTo_of_idle {state : ProcessState}
    (hreaches : (processing clock limitMillis transaction).Reaches
      ⟨now, resources, .start now limitMillis⟩ ⟨time, after, state⟩)
    (htime : time ≤ now + limitMillis)
    (hidle : (processing clock limitMillis transaction).Idle (now + limitMillis) after state) :
    (timedProcessing clock limitMillis transaction).ComesTo
      ⟨now, resources, startProcessing now limitMillis⟩
      (.returned (.error (.timeout processingStage (.ofMillis limitMillis)))) (now + limitMillis)
      after :=
  ⟨_, (hreaches.timed htime).trans (hidle.elapses htime processingStage limitMillis), rfl, rfl⟩

/-- The check leaves the ledger and the condition of savings as they are. -/
theorem Consultation.left_saving (transaction : Transaction) (now limitMillis : Nat)
    (resources : Resources) :
    (left (some transaction) now limitMillis resources).store.ledger = resources.store.ledger ∧
      (left (some transaction) now limitMillis resources).store.conditions.of .saving =
        resources.store.conditions.of .saving := by
  have hleaves := leaves_left (some transaction) now limitMillis resources
  exact ⟨congrArg Prod.fst hleaves.books, hleaves.conditions (by decide) (by decide)⟩

/-- If there is time for everything the transaction is saved. -/
theorem timedProcessing_comesTo_saved
    (hunhindered : transaction.Unhindered clock limitMillis now resources customer product saving)
    (htime : customer + product + saving ≤ limitMillis) :
    ∃ after, (timedProcessing clock limitMillis transaction).ComesTo
        ⟨now, resources, startProcessing now limitMillis⟩
        (.returned (.ok (resources.store.ledger.save
          (transaction.markProcessed (clock (now + (customer + product))))).1))
        (now + (customer + product + saving)) after ∧
      after.store.ledger = (resources.store.ledger.save
        (transaction.markProcessed (clock (now + (customer + product))))).2 := by
  obtain ⟨haborts, hfailures⟩ := hunhindered.savingAllowed
  obtain ⟨hledger, hcondition⟩ := Consultation.left_saving transaction now limitMillis resources
  have hcheck := Nat.le_trans (Nat.le_add_right _ _) htime
  have hlatency := Condition.latency_of_no_aborts haborts
  rw [hunhindered.savingMillis] at hlatency
  have hchecked := processing_reaches_saving (hunhindered.checkMillis ▸ hcheck)
    (hunhindered.checkPassed hcheck)
  rw [hunhindered.checkMillis] at hchecked
  have hsaved := processing_reaches_saved clock limitMillis transaction
    (transaction.markProcessed (clock (now + (customer + product)))) (now + (customer + product))
    (Consultation.left (some transaction) now limitMillis resources)
    (by rw [hcondition, hlatency]; omega)
    (by rw [hcondition]; exact Condition.verdict_of_no_trouble haborts hfailures _)
  rw [hcondition, hlatency, hledger, Nat.add_assoc] at hsaved
  refine ⟨_, timedProcessing_comesTo_of_reaches (hchecked.trans hsaved)
    (Nat.add_le_add_left htime now), ?_⟩
  rw [← hledger]
  exact Resources.ledger_afterSaving (hcondition ▸ haborts) (hcondition ▸ hfailures)

/-- Otherwise one of the deadlines elapses, at the end of the time of the processing. -/
theorem timedProcessing_comesTo_overdue
    (hunhindered : transaction.Unhindered clock limitMillis now resources customer product saving)
    (hlate : limitMillis < customer + product + saving) :
    ∃ after, (timedProcessing clock limitMillis transaction).ComesTo
        ⟨now, resources, startProcessing now limitMillis⟩
        (.returned (.error
          (.timeout (overdueStage limitMillis (customer + product)) (.ofMillis limitMillis))))
        (now + limitMillis) after ∧
      after.store.ledger = resources.store.ledger := by
  obtain ⟨hledger, hcondition⟩ := Consultation.left_saving transaction now limitMillis resources
  have hlatency := Condition.latency_of_no_aborts hunhindered.savingAllowed.1
  rw [hunhindered.savingMillis] at hlatency
  unfold overdueStage
  by_cases hcheck : limitMillis < customer + product
  · rw [if_pos hcheck]
    exact ⟨_, timedProcessing_comesTo_of_reaches
      (processing_reaches_overdue_check clock (hunhindered.checkMillis ▸ hcheck)) (Nat.le_refl _),
      hledger⟩
  · rw [if_neg hcheck]
    have hpassed := Nat.le_of_not_lt hcheck
    have hchecked := processing_reaches_saving (hunhindered.checkMillis ▸ hpassed)
      (hunhindered.checkPassed hpassed)
    rw [hunhindered.checkMillis] at hchecked
    by_cases hcached : customer + product = 0
    · -- the saving and the processing are over together
      rw [if_pos hcached]
      rw [hcached, Nat.add_zero] at hchecked
      have hsaving := processing_reaches_overdue_saving clock limitMillis transaction
        (transaction.markProcessed (clock now)) now
        (Consultation.left (some transaction) now limitMillis resources)
        (by rw [hcondition, hlatency]; omega)
      exact ⟨_, timedProcessing_comesTo_of_reaches (hchecked.trans hsaving) (Nat.le_refl _),
        hledger⟩
    · -- the saving would still have time
      rw [if_neg hcached]
      obtain ⟨state, hreaches, hidle⟩ := processing_waits_saving clock limitMillis transaction
        (transaction.markProcessed (clock (now + (customer + product))))
        (now + (customer + product)) (now + limitMillis)
        (Consultation.left (some transaction) now limitMillis resources)
        (by omega) (by omega) (by rw [hcondition, hlatency]; omega)
      exact ⟨_, timedProcessing_comesTo_of_idle (hchecked.trans hreaches)
        (Nat.add_le_add_left hpassed now) hidle, hledger⟩

end Deadlines

/-! ## Attempts -/

namespace Submission

variable {pipeline : Pipeline} {submission : Submission} {now time : Nat}

/-- An attempt that was let in does what is done with the transaction. -/
theorem operation_hosts_work (pipeline : Pipeline) (submission : Submission) (attempt : Nat)
    (held : List Hold) :
    (operation pipeline).Hosts (submission.work pipeline)
      (fun resources => { pipeline with resources })
      (fun state => { submission with call := ⟨attempt, .operating held state⟩ }) where
  step hstep := by
    simp only [operation, step?, work, GuardedCall.step?] at hstep ⊢
    rw [hstep]
  still hstep hending := by
    simp only [operation, step?, work, GuardedCall.step?, GuardedCall.ending?] at hstep hending ⊢
    rw [hstep, hending]
  running _ := rfl
  alarms _ := rfl

/-- What an attempt comes to is told to the guards. -/
theorem reaches_leaving (attempt : Nat) (held : List Hold) {result : Except Failure Transaction}
    {after : Resources}
    (hcomes : (submission.work pipeline).ComesTo
      ⟨now, pipeline.resources, startProcessing now pipeline.settings.deadlineMillis⟩
      (.returned result) time after) :
    (operation pipeline).Reaches
      ⟨now, pipeline, { submission with call := ⟨attempt, .entering held []⟩ }⟩
      ⟨time, { pipeline with resources := after },
        { submission with call := ⟨attempt, .leaving (.of result) held result⟩ }⟩ := by
  obtain ⟨state, hreaches, hending, hstep⟩ := hcomes
  have hworks := (operation_hosts_work pipeline submission attempt held).reaches hreaches
  refine .head (.acts ?_) (hworks.tail (.acts ?_))
  · rfl
  · simp only [operation, step?, work, GuardedCall.step?] at hstep hending ⊢
    rw [hstep, hending]

/-- **Which deadline elapses depends on the times of the store alone.**  An attempt that was let
in for a transaction that nothing is wrong with succeeds exactly if the lookups and the saving
together take no longer than one deadline allows, and when they have taken that long; then the
transaction is saved.  Otherwise it fails at the end of that time: the check ran out of time if
the lookups took longer, the saving if they took no time, and the processing as a whole in all
other cases.  Then nothing is saved. -/
theorem attempt_reaches {customer product saving : Nat}
    (hunhindered : submission.transaction.Unhindered pipeline.clock
      pipeline.settings.deadlineMillis now pipeline.resources customer product saving)
    (attempt : Nat) (held : List Hold) :
    ∃ result after,
      (submission.work pipeline).ComesTo
        ⟨now, pipeline.resources, startProcessing now pipeline.settings.deadlineMillis⟩
        (.returned result)
        (now + min (customer + product + saving) pipeline.settings.deadlineMillis) after ∧
      (operation pipeline).Reaches
        ⟨now, pipeline, { submission with call := ⟨attempt, .entering held []⟩ }⟩
        ⟨now + min (customer + product + saving) pipeline.settings.deadlineMillis,
          { pipeline with resources := after },
          { submission with call := ⟨attempt, .leaving (.of result) held result⟩ }⟩ ∧
      ((∃ row, result = .ok row) ↔
        customer + product + saving ≤ pipeline.settings.deadlineMillis) ∧
      (∀ row, result = .ok row → (row, after.store.ledger) = pipeline.resources.store.ledger.save
        (submission.transaction.markProcessed (pipeline.clock (now + (customer + product))))) ∧
      ∀ failure, result = .error failure →
        failure = .timeout (overdueStage pipeline.settings.deadlineMillis (customer + product))
          (.ofMillis pipeline.settings.deadlineMillis) ∧
        after.store.ledger = pipeline.resources.store.ledger := by
  by_cases htime : customer + product + saving ≤ pipeline.settings.deadlineMillis
  · obtain ⟨after, hcomes, hledger⟩ := timedProcessing_comesTo_saved hunhindered htime
    rw [Nat.min_eq_left htime]
    refine ⟨_, after, hcomes, reaches_leaving attempt held hcomes, iff_of_true ⟨_, rfl⟩ htime, ?_,
      ?_⟩
    · intro row hrow
      cases hrow
      rw [hledger]
    · intro failure hfailure
      cases hfailure
  · obtain ⟨after, hcomes, hledger⟩ :=
      timedProcessing_comesTo_overdue hunhindered (Nat.lt_of_not_le htime)
    rw [Nat.min_eq_right (Nat.le_of_not_le htime)]
    refine ⟨_, after, hcomes, reaches_leaving attempt held hcomes, iff_of_false ?_ htime, ?_, ?_⟩
    · rintro ⟨row, hrow⟩
      cases hrow
    · intro row hrow
      cases hrow
    · intro failure hfailure
      cases hfailure
      exact ⟨rfl, hledger⟩

/-- A pipeline that allows two milliseconds, with a store that takes one for each request. -/
def hurriedPipeline : Pipeline :=
  let settings := { Settings.initial with deadlineMillis := 2 }
  let slow := { Condition.fair with delayMillis := 1 }
  let store := (Store.of .oneOfEach).withCondition .customerLookup slow
    |>.withCondition .productLookup slow |>.withCondition .saving slow
  { settings
    clock := fun now => ⟨now, 0⟩
    guards := [.new Pipeline.sharedGuardName settings.breakers.shared settings.bulkheads.shared]
    resources := { Resources.new .oneOfEach settings.cacheMillis with store }
    statistics := .empty }

/-- A purchase from this pipeline. -/
def hurried : Submission := .single hurriedPipeline (.new 1 "P1" 2 .text)

/-- The check of this purchase is passed when its time is over, and the saving is not over yet when
the time of the processing is. -/
theorem attempt_reaches_hurried :
    hurried.transaction.Unhindered hurriedPipeline.clock hurriedPipeline.settings.deadlineMillis 0
        hurriedPipeline.resources 1 1 1 ∧
      ∃ after, (operation hurriedPipeline).Reaches
          ⟨0, hurriedPipeline, { hurried with call := ⟨1, .entering [] []⟩ }⟩
          ⟨2, { hurriedPipeline with resources := after },
            { hurried with
              call := ⟨1, .leaving .failure []
                (.error (.timeout processingStage (.ofMillis 2)))⟩ }⟩ ∧
        after.store.ledger = .oneOfEach := by
  have hunhindered : hurried.transaction.Unhindered hurriedPipeline.clock
      hurriedPipeline.settings.deadlineMillis 0 hurriedPipeline.resources 1 1 1 := by
    refine ⟨rfl, rfl, rfl, ⟨_, rfl, fun _ => ?_⟩, rfl, rfl, rfl⟩
    refine ⟨rfl, rfl, ⟨_, rfl, by decide, ?_⟩, ?_, ?_⟩
    · rintro purchase ⟨⟩
      decide +kernel
    · rintro purchase ⟨⟩
      decide
    · rintro purchase ⟨⟩ time ⟨⟩
  refine ⟨hunhindered, ?_⟩
  obtain ⟨result, after, -, hreaches, hrow, -, hfailure⟩ := attempt_reaches hunhindered 1 []
  cases result with
  | ok row => exact absurd (hrow.mp ⟨row, rfl⟩) (by decide)
  | error failure =>
      obtain ⟨rfl, hledger⟩ := hfailure failure rfl
      exact ⟨after, hreaches, hledger⟩

end Submission

end Clearing
