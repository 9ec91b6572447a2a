import Clearing.Pipeline
import Clearing.Proofs.Guard.Act
import Clearing.Proofs.Ledger.Identifiers
import Clearing.Proofs.Processing.Footprint

/-!
# What a submission does to the books

A submission goes its course by steps of its own and by being cut short while it
waits.  Between its steps the pipeline may change in any way: others go on, the
store fails or takes its time, settings are exchanged.  A course therefore lists
the pipeline as it was before and after each step, and nothing connects one step
with the next but the submission itself.

`Submission.effect_of_course`: a submission that succeeds has saved its
transaction once and invalidated the summaries once after that, and all its
other steps left the books alone; one that fails left them alone in all its
steps, however many attempts it made.

## Strategy

The footprint of a submission is that of the operation its call is in, or of the
result the call carries (`Phase.Left`).  It goes along with every action of the
call (`Act.leaves`), and the steps of a course add up to it
(`addUp_of_course`).
-/

namespace Clearing

deriving instance DecidableEq for Ending

variable {ω : Type}

/-! ## Guarded calls -/

/-- What a call has left: what its operation has left or, once that has ended, what its result
says.  Attempts before the present one have failed and left nothing. -/
inductive Phase.Left (left : ω → Footprint → Prop) : Phase ω Transaction → Footprint → Prop
  | entering {held : List Hold} {ahead : List Nat} : Left left (.entering held ahead) .nothing
  | taking {held : List Hold} {position : Nat} {ahead : List Nat} :
      Left left (.taking held position ahead) .nothing
  | lining {held : List Hold} {position latest : Nat} {ahead : List Nat} :
      Left left (.lining held position ahead latest) .nothing
  | queued {held : List Hold} {position ticket latest : Nat} {ahead : List Nat} :
      Left left (.queued held position ahead ticket latest) .nothing
  | operating {held : List Hold} {state : ω} {footprint : Footprint}
      (hleft : left state footprint) : Left left (.operating held state) footprint
  | leaving {outcome : Outcome} {held : List Hold} {result : Except Failure Transaction} :
      Left left (.leaving outcome held result) (.ofEnding .published (.returned result))
  | backingOff {wakes : Nat} : Left left (.backingOff wakes) .nothing
  | finished {ending : Ending Transaction} :
      Left left (.finished ending) (.ofEnding .published ending)

/-- A call does a deed when its operation does. -/
def Phase.deed? (deed? : Nat → ω → Option Deed) (now : Nat) :
    Phase ω Transaction → Option Deed
  | .operating _ state => deed? now state
  | _ => none

theorem Phase.left_afterAnswer {left : ω → Footprint → Prop} (held : List Hold)
    (position : Nat) (ahead : List Nat) (guard : Guard) (answer : Bulkhead.SlotAnswer) :
    (Phase.afterAnswer held position ahead guard answer).Left left .nothing := by
  cases answer with
  | taken => exact .entering
  | refused => exact .leaving
  | mayWait latest => exact .lining
  | queued ticket latest => exact .queued

theorem GuardedCall.left_settle {left : ω → Footprint → Prop} (protection : Protection)
    (now : Nat) (call : GuardedCall ω Transaction) (result : Except Failure Transaction) :
    (call.settle protection now result).phase.Left left
      (.ofEnding .published (.returned result)) := by
  cases result with
  | ok transaction => exact .finished
  | error failure =>
      unfold settle
      dsimp only
      split
      · exact .backingOff
      · exact .finished

/-- One action of a call changes the books and its footprint together. -/
theorem GuardedCall.Act.leaves {protection : Protection}
    {operation : Operation Resources ω Transaction} {start : Nat → Nat → ω}
    {submitted : Transaction} {deed? : Nat → ω → Option Deed} {left : ω → Footprint → Prop}
    (hleaves : operation.Leaves submitted deed? left .published)
    (hstart : ∀ now attempt, left (start now attempt) .nothing) {now : Nat}
    {guards after : List Guard} {shared next : Resources}
    {call later : GuardedCall ω Transaction} {footprint : Footprint}
    (hleft : call.phase.Left left footprint)
    (hact : Act protection operation start now (guards, shared, call) (after, next, later)) :
    ∃ footprint', later.phase.Left left footprint' ∧
      Footprint.Step submitted (call.phase.deed? deed? now) shared.books next.books footprint
        footprint' := by
  -- A deed is done only by the operation; all other actions keep the footprint or begin anew.
  cases hact with
  | begin =>
      cases hleft
      exact ⟨.nothing, .operating (hstart ..), .quiet⟩
  | skip hat hmissing =>
      cases hat <;> cases hleft <;> exact ⟨.nothing, .entering, .quiet⟩
  | admitted hguard hacquire =>
      cases hleft
      exact ⟨.nothing, .taking, .quiet⟩
  | rejected hguard hacquire =>
      cases hleft
      exact ⟨.nothing, .leaving, .quiet⟩
  | answered hguard hhears =>
      cases hhears <;> cases hleft <;>
        exact ⟨.nothing, Phase.left_afterAnswer .., .quiet⟩
  | operated hstep =>
      cases hleft with
      | operating hleft =>
          obtain ⟨footprint', hlater, hbooks⟩ := hleaves.step hleft hstep
          exact ⟨footprint', .operating hlater, hbooks⟩
  | returned hstuck hending =>
      cases hleft with
      | operating hleft =>
          rw [hleaves.ending hleft hending]
          exact ⟨_, .leaving, .of_keeps (hleaves.idle hleft hstuck) rfl⟩
  | aborted hstuck hending =>
      cases hleft with
      | operating hleft =>
          rw [hleaves.ending hleft hending]
          exact ⟨_, .finished, .of_keeps (hleaves.idle hleft hstuck) rfl⟩
  | gaveBack =>
      cases hleft
      exact ⟨_, .leaving, .quiet⟩
  | settled =>
      cases hleft
      exact ⟨_, GuardedCall.left_settle .., .quiet⟩
  | backedOff hwakes =>
      cases hleft
      exact ⟨.nothing, .entering, .quiet⟩

/-! ## Turns -/

/-- A step of a submission at some time, and the pipeline before and after it. -/
structure Turn where
  now : Nat
  submission : Submission
  before : Pipeline
  after : Pipeline

namespace Submission

/-- What a submission has left. -/
def Left (submission : Submission) : Footprint → Prop :=
  submission.call.phase.Left (Timed.Left (ProcessState.Left submission.transaction))

/-- The deed that is the next step of a submission, if it is one. -/
def deed? (now : Nat) (submission : Submission) : Option Deed :=
  submission.call.phase.deed? (Timed.deed? ProcessState.deed?) now

end Submission

namespace Turn

/-- The deed that the step was, if it was one. -/
def deed? (turn : Turn) : Option Deed :=
  turn.submission.deed? turn.now

/-- The step was no deed, and the books were left alone. -/
def Quiet (turn : Turn) : Prop :=
  turn.deed? = none ∧ turn.after.resources.books = turn.before.resources.books

/-- The step saved a submitted transaction, and this is the row that it wrote: the transaction
marked as processed at some time, under the identifier that it brought along if it did. -/
structure Saves (turn : Turn) (submitted saved : Transaction) : Prop where
  deed : turn.deed? = some .save
  row : ∃ id time ids,
    saved = { submitted with id := some id, processedTime := some time, status := .processed } ∧
      (∀ own, submitted.id = some own → id = own) ∧
        turn.after.resources.store.ledger =
          { turn.before.resources.store.ledger with
            ids
            transactions := turn.before.resources.store.ledger.transactions.insert id saved }
  summaries : turn.after.resources.summaries = turn.before.resources.summaries

/-- The step invalidated the summaries: a new generation began, and neither is kept. -/
structure Publishes (turn : Turn) : Prop where
  deed : turn.deed? = some .publish
  ledger : turn.after.resources.store.ledger = turn.before.resources.store.ledger
  summaries : turn.after.resources.summaries = turn.before.resources.summaries.invalidate
  generation : turn.after.resources.summaries.generation =
    turn.before.resources.summaries.generation + 1
  customers : turn.after.resources.summaries.customers = none
  products : turn.after.resources.summaries.products = none

/-- The step leads from a footprint to another. -/
inductive Leads (turn : Turn) (submitted : Transaction) : Footprint → Footprint → Prop
  | quiet {footprint : Footprint} (hquiet : turn.Quiet) : Leads turn submitted footprint footprint
  | save {saved : Transaction} (hsaves : turn.Saves submitted saved) :
      Leads turn submitted .nothing (.saved saved)
  | publish {saved : Transaction} (hpublishes : turn.Publishes) :
      Leads turn submitted (.saved saved) (.published saved)

theorem leads_of_step {turn : Turn} {submitted : Transaction} {footprint footprint' : Footprint}
    (hstep : Footprint.Step submitted turn.deed? turn.before.resources.books
      turn.after.resources.books footprint footprint') :
    turn.Leads submitted footprint footprint' := by
  generalize hdeed : turn.deed? = deed at hstep
  generalize hbefore : turn.before.resources.books = before at hstep
  generalize hafter : turn.after.resources.books = after at hstep
  cases hstep with
  | quiet => exact .quiet ⟨hdeed, hafter.trans hbefore.symm⟩
  | @save ledger summaries time =>
      obtain ⟨rfl, rfl⟩ := Prod.mk.inj hbefore
      obtain ⟨hledger, hsummaries⟩ := Prod.mk.inj hafter
      obtain ⟨id, ids, hown, hsave⟩ :=
        turn.before.resources.store.ledger.save_eq (submitted.markProcessed time)
      rw [hsave] at hledger ⊢
      exact .save ⟨hdeed, ⟨id, time, ids, rfl, hown, hledger⟩, hsummaries⟩
  | publish =>
      obtain ⟨rfl, rfl⟩ := Prod.mk.inj hbefore
      obtain ⟨hledger, hsummaries⟩ := Prod.mk.inj hafter
      refine .publish ⟨hdeed, hledger, hsummaries, ?_, ?_, ?_⟩
      · exact congrArg SummaryCache.generation hsummaries
      · exact congrArg SummaryCache.customers hsummaries
      · exact congrArg SummaryCache.products hsummaries

/-- One step of some saved the transaction, all others were quiet. -/
def Save (turns : List Turn) (submitted saved : Transaction) : Prop :=
  ∃ early save late, turns = early ++ save :: late ∧
    (∀ turn ∈ early ++ late, turn.Quiet) ∧ save.Saves submitted saved

/-- One step of some saved the transaction, a later one invalidated the summaries, and all others
were quiet. -/
def SaveAndPublish (turns : List Turn) (submitted saved : Transaction) : Prop :=
  ∃ early publish late, turns = early ++ publish :: late ∧ Save early submitted saved ∧
    publish.Publishes ∧ ∀ turn ∈ late, turn.Quiet

/-- The steps add up to a footprint. -/
def AddUp (submitted : Transaction) (turns : List Turn) : Footprint → Prop
  | .nothing => ∀ turn ∈ turns, turn.Quiet
  | .saved saved => Save turns submitted saved
  | .published saved => SaveAndPublish turns submitted saved

variable {submitted : Transaction} {turns : List Turn} {turn : Turn}

theorem AddUp.quiet {footprint : Footprint} (hsum : AddUp submitted turns footprint)
    (hquiet : turn.Quiet) : AddUp submitted (turns ++ [turn]) footprint := by
  cases footprint with
  | nothing =>
      intro other hother
      rcases List.mem_append.mp hother with hearlier | hlast
      · exact hsum other hearlier
      · rw [List.mem_singleton.mp hlast]
        exact hquiet
  | saved saved =>
      obtain ⟨early, save, late, rfl, hothers, hsaves⟩ := hsum
      refine ⟨early, save, late ++ [turn], by simp, ?_, hsaves⟩
      intro other hother
      rw [← List.append_assoc] at hother
      rcases List.mem_append.mp hother with hearlier | hlast
      · exact hothers other hearlier
      · rw [List.mem_singleton.mp hlast]
        exact hquiet
  | published saved =>
      obtain ⟨early, publish, late, rfl, hsave, hpublish, hothers⟩ := hsum
      refine ⟨early, publish, late ++ [turn], by simp, hsave, hpublish, ?_⟩
      intro other hother
      rcases List.mem_append.mp hother with hearlier | hlast
      · exact hothers other hearlier
      · rw [List.mem_singleton.mp hlast]
        exact hquiet

/-- The steps with one more add up to the footprint that it leads to. -/
theorem AddUp.step {footprint footprint' : Footprint} (hsum : AddUp submitted turns footprint)
    (hturn : turn.Leads submitted footprint footprint') :
    AddUp submitted (turns ++ [turn]) footprint' := by
  cases hturn with
  | quiet hquiet => exact hsum.quiet hquiet
  | save hsaves =>
      refine ⟨turns, turn, [], rfl, ?_, hsaves⟩
      rw [List.append_nil]
      exact hsum
  | publish hpublishes => exact ⟨turns, turn, [], rfl, hsum, hpublishes, by simp⟩

end Turn

/-! ## Courses -/

namespace Submission

/-- A submission goes from one state to another by its steps and by being cut short where it waits,
by any of its deadlines.  The pipeline that a step finds is any pipeline. -/
inductive Course (start : Submission) : List Turn → Submission → Prop
  | start : Course start [] start
  | step {turns : List Turn} {submission later : Submission} {now : Nat}
      {before after : Pipeline} (hcourse : Course start turns submission)
      (hstep : submission.step? now before = some (after, later)) :
      Course start (turns ++ [⟨now, submission, before, after⟩]) later
  | cut {turns : List Turn} {submission later : Submission} {pipeline : Pipeline}
      {chosen : Deadline → Bool} (hcourse : Course start turns submission)
      (hwait : (operation pipeline).wait? submission ≠ none)
      (hcut : (operation pipeline).cut? chosen submission = some later) :
      Course start turns later

/-- A submission makes an action of its call, or its result is counted. -/
theorem step?_cases {now : Nat} {before after : Pipeline} {submission later : Submission}
    (hstep : submission.step? now before = some (after, later)) :
    (∃ guards resources call,
        GuardedCall.Act submission.protection (submission.work before)
          (fun now _ => startProcessing now before.settings.deadlineMillis) now
          (before.guards, before.resources, submission.call) (guards, resources, call) ∧
        after = { before with guards, resources } ∧ later = { submission with call }) ∨
      ∃ result, submission.call.phase = .finished (.returned result) ∧
        submission.counted = false ∧
        after = before.record submission.format (failureKind? result) ∧
        later = { submission with counted := true } := by
  simp only [step?] at hstep
  split at hstep
  · rename_i hcall
    cases hstep
    exact .inl ⟨_, _, _, GuardedCall.act_of_step? hcall, rfl, rfl⟩
  · split at hstep
    · rename_i result hending
      obtain ⟨hcounted, hrecord⟩ := Option.ite_none_left_eq_some.mp hstep
      cases hrecord
      exact .inr ⟨result, GuardedCall.ending?_eq_some_iff.mp hending, by simpa using hcounted,
        rfl, rfl⟩
    · cases hstep

/-- What the call of a submission runs leaves what processing does. -/
private theorem work_leaves (pipeline : Pipeline) (submission : Submission) :
    (submission.work pipeline).Leaves submission.transaction (Timed.deed? ProcessState.deed?)
      (Timed.Left (ProcessState.Left submission.transaction)) .published :=
  (processing_leaves pipeline.clock pipeline.settings.deadlineMillis
    submission.transaction).timed processingStage pipeline.settings.deadlineMillis

/-- One step of a submission leads from its footprint to the one that it has then. -/
theorem left_of_step? {now : Nat} {before after : Pipeline} {submission later : Submission}
    {footprint : Footprint} (hleft : submission.Left footprint)
    (hstep : submission.step? now before = some (after, later)) :
    later.transaction = submission.transaction ∧ ∃ footprint', later.Left footprint' ∧
      Turn.Leads ⟨now, submission, before, after⟩ submission.transaction footprint
        footprint' := by
  rcases step?_cases hstep with
    ⟨guards, resources, call, hact, rfl, rfl⟩ | ⟨result, hphase, -, rfl, rfl⟩
  · obtain ⟨footprint', hlater, hbooks⟩ := hact.leaves (submission.work_leaves before)
      (fun now _ => left_startProcessing ..) hleft
    exact ⟨rfl, footprint', hlater, Turn.leads_of_step hbooks⟩
  · -- The result is counted, which is no business of the books.
    refine ⟨rfl, footprint, hleft, .quiet ⟨?_, rfl⟩⟩
    unfold Turn.deed? deed?
    rw [hphase]
    rfl

/-- A submission that waits has left nothing. -/
theorem left_of_wait? {pipeline : Pipeline} {submission : Submission} {footprint : Footprint}
    (hleft : submission.Left footprint) (hwait : (operation pipeline).wait? submission ≠ none) :
    footprint = .nothing := by
  obtain ⟨transaction, protection, format, ⟨attempt, phase⟩, counted⟩ := submission
  cases hleft with
  | operating hleft =>
      -- It waits because its operation does; all other waits come before the operation.
      exact (work_leaves pipeline ⟨transaction, protection, format, _, counted⟩).waiting hleft
        hwait
  | leaving => exact absurd rfl hwait
  | finished => exact absurd rfl hwait
  | _ => rfl

/-- Who is cut short is operating, and the operation is cut short. -/
theorem cut?_cases {pipeline : Pipeline} {submission later : Submission}
    {chosen : Deadline → Bool}
    (hcut : (operation pipeline).cut? chosen submission = some later) :
    ∃ held state state', submission.call.phase = .operating held state ∧
      (submission.work pipeline).cut? chosen state = some state' ∧
      later = { submission with
        call := { submission.call with phase := .operating held state' } } := by
  obtain ⟨call, hcall, rfl⟩ := Option.map_eq_some_iff.mp hcut
  unfold GuardedCall.cut? at hcall
  split at hcall
  · rename_i held state hphase
    obtain ⟨state', hinner, rfl⟩ := Option.map_eq_some_iff.mp hcall
    exact ⟨held, state, state', hphase, hinner, rfl⟩
  · cases hcall

theorem left_of_cut? {pipeline : Pipeline} {submission later : Submission}
    {chosen : Deadline → Bool} (hleft : submission.Left .nothing)
    (hcut : (operation pipeline).cut? chosen submission = some later) :
    later.transaction = submission.transaction ∧ later.Left .nothing := by
  obtain ⟨held, state, state', hphase, hinner, rfl⟩ := cut?_cases hcut
  unfold Left at hleft
  rw [hphase] at hleft
  cases hleft with
  | operating hleft =>
      exact ⟨rfl, .operating ((submission.work_leaves pipeline).cut hleft hinner)⟩

/-- A submission has ended when its call has and a result of it was counted. -/
theorem finished_of_ending? {submission : Submission} {ending : Ending Transaction}
    (hending : submission.ending? = some ending) :
    submission.call.phase = .finished ending ∧
      ∀ result, ending = .returned result → submission.counted = true := by
  unfold ending? at hending
  split at hending
  · rename_i result hcall
    obtain ⟨hcounted, hreturned⟩ := Option.ite_none_right_eq_some.mp hending
    cases hreturned
    exact ⟨GuardedCall.ending?_eq_some_iff.mp hcall, fun _ _ => hcounted⟩
  · rename_i hcall
    refine ⟨GuardedCall.ending?_eq_some_iff.mp hending, ?_⟩
    rintro result rfl
    exact absurd hending (hcall result)

/-- What a submission has left at its end is what the ending says. -/
theorem left_of_ending? {submission : Submission} {footprint : Footprint}
    {ending : Ending Transaction} (hleft : submission.Left footprint)
    (hending : submission.ending? = some ending) :
    footprint = .ofEnding .published ending := by
  unfold Left at hleft
  rw [(finished_of_ending? hending).1] at hleft
  cases hleft
  rfl

/-- The steps of a course add up to what the submission has left. -/
theorem addUp_of_course {start submission : Submission} {turns : List Turn}
    (hstart : start.Left .nothing) (hcourse : start.Course turns submission) :
    submission.transaction = start.transaction ∧ ∃ footprint, submission.Left footprint ∧
      Turn.AddUp start.transaction turns footprint := by
  -- The course grows at its end, as the sum of its steps does.
  induction hcourse with
  | start => exact ⟨rfl, .nothing, hstart, by simp [Turn.AddUp]⟩
  | step hcourse hstep ih =>
      obtain ⟨htransaction, footprint, hleft, hsum⟩ := ih
      obtain ⟨hsame, footprint', hlater, hturn⟩ := left_of_step? hleft hstep
      rw [htransaction] at hturn
      exact ⟨hsame.trans htransaction, footprint', hlater, hsum.step hturn⟩
  | cut hcourse hwait hcut ih =>
      obtain ⟨htransaction, footprint, hleft, hsum⟩ := ih
      -- Nothing was done yet: it waits.
      obtain rfl := left_of_wait? hleft hwait
      obtain ⟨hsame, hlater⟩ := left_of_cut? hleft hcut
      exact ⟨hsame.trans htransaction, .nothing, hlater, hsum⟩

/-- What a submission with this ending must have done in its steps. -/
def Effect (submitted : Transaction) (turns : List Turn) : Ending Transaction → Prop
  | .returned (.ok saved) => Turn.SaveAndPublish turns submitted saved
  | _ => ∀ turn ∈ turns, turn.Quiet

/-- **A submission is saved once if it succeeds, and not at all if it fails.** -/
theorem effect_of_course {pipeline : Pipeline} {transaction : Transaction}
    {start submission : Submission} {turns : List Turn} {ending : Ending Transaction}
    (hstart : start = .single pipeline transaction ∨
      ∃ format, start = .ofBatch pipeline format transaction)
    (hcourse : start.Course turns submission) (hending : submission.ending? = some ending) :
    Effect transaction turns ending := by
  have hnew : start.transaction = transaction ∧ start.Left .nothing := by
    rcases hstart with rfl | ⟨format, rfl⟩
    · exact ⟨rfl, .entering⟩
    · exact ⟨rfl, .entering⟩
  obtain ⟨rfl, hleft⟩ := hnew
  obtain ⟨-, footprint, hleft, hsum⟩ := addUp_of_course hleft hcourse
  obtain rfl := left_of_ending? hleft hending
  rcases ending with (failure | saved) | cause
  · exact hsum
  · exact hsum
  · exact hsum

/-- The steps that a submission makes at some times while nobody else does anything, and the
submission after that. -/
def follow (pipeline : Pipeline) (submission : Submission) :
    List Nat → List Turn × Submission
  | [] => ([], submission)
  | now :: times =>
    match submission.step? now pipeline with
    | some (after, later) =>
      let (turns, last) := follow after later times
      (⟨now, submission, pipeline, after⟩ :: turns, last)
    | none => follow pipeline submission times

private theorem course_append_follow {start submission : Submission} {turns : List Turn}
    (hcourse : start.Course turns submission) (pipeline : Pipeline) (times : List Nat) :
    start.Course (turns ++ (follow pipeline submission times).1)
      (follow pipeline submission times).2 := by
  induction times generalizing pipeline submission turns with
  | nil =>
      rw [follow, List.append_nil]
      exact hcourse
  | cons now times ih =>
      unfold follow
      split
      · rename_i after later hstep
        rw [List.append_cons]
        exact ih (hcourse.step hstep) after
      · exact ih hcourse pipeline

theorem course_follow (start : Submission) (pipeline : Pipeline) (times : List Nat) :
    start.Course (follow pipeline start times).1 (follow pipeline start times).2 := by
  have hcourse := course_append_follow (.start : start.Course [] start) pipeline times
  rwa [List.nil_append] at hcourse

end Submission

/-! ## A second attempt -/

/-- A ledger that knows one customer and one product. -/
def Ledger.oneOfEach : Ledger :=
  ((Ledger.empty .initial).putCustomer
    { id := 1, firstName := "A", lastName := "B", age := none, email := none, location := none })
      |>.putProduct { code := "P1", cost := .ofInt 5 (by decide), status := Product.activeStatus }

namespace Submission

/-- A pipeline whose store refuses the first saving. -/
def refusingOnce : Pipeline :=
  let settings := { Settings.initial with
    retry := { RetrySettings.initial with initialBackoffMillis := 0 } }
  { settings
    clock := fun now => ⟨now, 0⟩
    guards := [.new Pipeline.sharedGuardName settings.breakers.shared settings.bulkheads.shared]
    resources := { Resources.new .oneOfEach settings.cacheMillis with
      store := (Store.of .oneOfEach).withCondition .saving { Condition.fair with failures := 1 } }
    statistics := .empty }

/-- A submission to this pipeline: the first attempt fails and the second one succeeds. -/
def secondAttempt : List Turn × Submission :=
  follow refusingOnce (.single refusingOnce (.new 1 "P1" 2 .text)) (List.range 50)

theorem saveAndPublish_secondAttempt :
    let saved := { Transaction.new 1 "P1" 2 .text with
      id := some 1, processedTime := some ⟨29, 0⟩, status := .processed }
    secondAttempt.2.ending? = some (.returned (.ok saved)) ∧
      Turn.SaveAndPublish secondAttempt.1 (.new 1 "P1" 2 .text) saved := by
  intro saved
  have hending : secondAttempt.2.ending? = some (.returned (.ok saved)) := by decide +kernel
  exact ⟨hending, effect_of_course (.inl rfl) (course_follow ..) hending⟩

end Submission

end Clearing
