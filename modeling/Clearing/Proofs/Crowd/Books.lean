import Clearing.Proofs.Batch.Records
import Clearing.Proofs.Crowd.Submissions

/-!
# The books in a run

Every submission in a crowd has a footprint, and what it has left was done in
moves of its own: if it was saved there was a move of its party that saved it,
and if that was published the generation of the summaries has changed since
(`Crowd.Run.backs`).
-/

namespace Clearing

namespace Submission

/-- A submission that was handed in just now has left nothing. -/
theorem left_of_isNew {pipeline : Pipeline} {submission : Submission}
    (hnew : Crowd.IsNew pipeline submission) : submission.Left .nothing := by
  obtain ⟨transaction, rfl | ⟨format, rfl⟩⟩ := hnew
  · exact .entering
  · exact .entering

/-- A step of a submission keeps the summaries or invalidates them. -/
theorem summaries_of_step? {now : Nat} {before after : Pipeline} {submission later : Submission}
    {footprint : Footprint} (hleft : submission.Left footprint)
    (hstep : submission.step? now before = some (after, later)) :
    after.resources.summaries = before.resources.summaries ∨
      after.resources.summaries = before.resources.summaries.invalidate := by
  obtain ⟨-, footprint', -, hturn⟩ := left_of_step? hleft hstep
  cases hturn with
  | quiet hquiet => exact .inl (congrArg Prod.snd hquiet.2)
  | save hsaves => exact .inl hsaves.summaries
  | publish hpublishes => exact .inr hpublishes.summaries

end Submission

namespace Crowd

/-- Every submission has a footprint. -/
def HasFootprints (crowd : Crowd) : Prop :=
  ∀ party submission, crowd.submission? party = some submission → ∃ footprint,
    submission.Left footprint

/-! ## Summaries -/

/-- What a move can do to the summaries: nothing, invalidate them, or a step of a query for one of
them. -/
inductive Summarizes (mover : Party) (crowd next : Crowd) : Prop
  | same (hsame : next.summaries = crowd.summaries)
  | invalidate (hinvalid : next.summaries = crowd.summaries.invalidate)
  | customers {position : Nat} {task : Task} {state later : SummaryState CustomerTotal}
      (hmover : mover = .task position) (htask : crowd.tasks[position]? = some task)
      (hstate : task.state = .customerSummary state)
      (hstep : SummaryKind.customers.query.step? crowd.now crowd.resources state =
        some (next.resources, later))
      (hlater : next.tasks =
        crowd.tasks.set position { task with state := .customerSummary later })
  | products {position : Nat} {task : Task} {state later : SummaryState ProductTotal}
      (hmover : mover = .task position) (htask : crowd.tasks[position]? = some task)
      (hstate : task.state = .productSummary state)
      (hstep : SummaryKind.products.query.step? crowd.now crowd.resources state =
        some (next.resources, later))
      (hlater : next.tasks =
        crowd.tasks.set position { task with state := .productSummary later })

variable {crowd next : Crowd} {mover : Party}

/-- The first step of a command keeps the summaries or invalidates them. -/
theorem summaries_of_begin {now : Nat} {place after : Workplace} {command : Command}
    {later : TaskState} (hbegin : Task.begin now place command = (after, later)) :
    after.pipeline.resources.summaries = place.pipeline.resources.summaries ∨
      after.pipeline.resources.summaries = place.pipeline.resources.summaries.invalidate := by
  cases command with
  | batch transactions format =>
      left
      rw [Task.pipeline_hire hbegin]
  | consume records format =>
      left
      rw [Task.begin_consume] at hbegin
      rw [Task.pipeline_hire hbegin]
  | invalidateSummaries =>
      cases hbegin
      exact .inr rfl
  | _ =>
      cases hbegin
      exact .inl rfl

/-- A step of a task keeps the summaries or invalidates them, unless it is a step of a query. -/
theorem Move.summarizes_task {position : Nat} {task later : Task} {place : Workplace}
    (hfootprints : crowd.HasFootprints) (htask : crowd.tasks[position]? = some task)
    (hstep : task.step? crowd.now crowd.place = some (place, later)) :
    Summarizes (.task position) crowd
      { crowd with place, tasks := crowd.tasks.set position later } := by
  obtain ⟨hcommand, hact⟩ := Task.act_of_step? hstep
  obtain ⟨command, state⟩ := task
  obtain ⟨command', state'⟩ := later
  obtain rfl : command' = command := hcommand
  have heither {before after : SummaryCache}
      (hsummaries : after = before ∨ after = before.invalidate)
      (hbefore : crowd.summaries = before) (hafter : place.pipeline.resources.summaries = after) :
      Summarizes (.task position) crowd
        { crowd with place, tasks := crowd.tasks.set position ⟨command', state'⟩ } := by
    subst hbefore hafter
    rcases hsummaries with hsame | hinvalid
    · exact .same hsame
    · exact .invalidate hinvalid
  cases hact with
  | begin hbegin => exact heither (summaries_of_begin hbegin) rfl rfl
  | @submission earlier _ pipeline hinner =>
      have hsubmission : crowd.submission? (.task position) = some earlier :=
        Option.bind_eq_some_iff.mpr ⟨_, htask, rfl⟩
      obtain ⟨footprint, hleft⟩ := hfootprints _ _ hsubmission
      refine heither (Submission.summaries_of_step? hleft hinner) rfl ?_
      rw [(crowd.place.alike_afterStep earlier pipeline).pipeline]
  | check hinner =>
      have hkeeps := Operation.Keeps.timed (validation_keeps_books _ _) _ _ hinner
      exact .same (congrArg Prod.snd hkeeps)
  | askCustomers hinner => exact .customers rfl htask rfl hinner rfl
  | askProducts hinner => exact .products rfl htask rfl hinner rfl
  | count hinner =>
      obtain ⟨⟨store, next⟩, -, hafter⟩ := Option.map_eq_some_iff.mp hinner
      cases hafter
      exact .same rfl
  | conclude hconclude =>
      unfold Task.conclude at hconclude
      split at hconclude <;> cases hconclude
      · exact .same rfl
      · exact .invalidate rfl
  | _ => exact .same rfl

theorem Move.summarizes (hfootprints : crowd.HasFootprints) (hmove : Move mover crowd next) :
    Summarizes mover crowd next := by
  cases hmove with
  | keepBooks halike =>
      refine .same ?_
      unfold summaries resources
      rw [halike.pipeline]
  | stepTask htask hstep => exact Move.summarizes_task hfootprints htask hstep
  | @stepJob _ position number worker job place later hworker hjob hstep =>
      obtain ⟨⟨pipeline, stepped⟩, hinner, hafter⟩ := Option.map_eq_some_iff.mp hstep
      cases hafter
      obtain ⟨footprint, hleft⟩ := hfootprints _ _ (crowd.submission?_of_job hworker hjob)
      have hpipeline := (crowd.place.alike_afterStep job.watched.state pipeline).pipeline
      unfold Workplace.changeWorker
      rcases Submission.summaries_of_step? hleft hinner with hsame | hinvalid
      · refine .same ?_
        unfold summaries resources
        rw [hpipeline]
        exact hsame
      · refine .invalidate ?_
        unfold summaries resources
        rw [hpipeline]
        exact hinvalid
  | @loseJob _ position number worker job cause hworker hjob hending =>
      refine .same ?_
      unfold summaries resources
      rw [(Workplace.loseWorker_spec hworker ..).2]
  | _ => exact .same rfl

end Crowd

/-! ## Settings and clock -/

/-- Pipelines with the same settings and the same clock. -/
structure Pipeline.Kindred (pipeline other : Pipeline) : Prop where
  settings : other.settings = pipeline.settings
  clock : other.clock = pipeline.clock

namespace Pipeline.Kindred

variable {pipeline other : Pipeline}

theorem refl (pipeline : Pipeline) : pipeline.Kindred pipeline := ⟨rfl, rfl⟩

theorem trans {third : Pipeline} (hfirst : pipeline.Kindred other)
    (hsecond : other.Kindred third) : pipeline.Kindred third :=
  ⟨hsecond.settings.trans hfirst.settings, hsecond.clock.trans hfirst.clock⟩

/-- A step of a submission leaves the settings and the clock alone. -/
theorem of_step? {now : Nat} {submission later : Submission}
    (hstep : submission.step? now pipeline = some (other, later)) : pipeline.Kindred other := by
  rcases Submission.step?_cases hstep with ⟨_, _, _, -, rfl, -⟩ | ⟨_, -, -, rfl, -⟩
  · exact ⟨rfl, rfl⟩
  · exact ⟨rfl, rfl⟩

theorem of_begin {now : Nat} {place after : Workplace} {command : Command} {later : TaskState}
    (hbegin : Task.begin now place command = (after, later)) :
    place.pipeline.Kindred after.pipeline := by
  cases command with
  | batch transactions format =>
      rw [Task.pipeline_hire hbegin]
      exact .refl _
  | consume records format =>
      rw [Task.begin_consume] at hbegin
      rw [Task.pipeline_hire hbegin]
      exact ⟨rfl, rfl⟩
  | _ =>
      cases hbegin
      exact ⟨rfl, rfl⟩

theorem of_taskStep? {now : Nat} {place after : Workplace} {task later : Task}
    (hstep : task.step? now place = some (after, later)) :
    place.pipeline.Kindred after.pipeline := by
  obtain ⟨-, hact⟩ := Task.act_of_step? hstep
  generalize task.state = before at hact
  generalize later.state = next at hact
  cases hact with
  | begin hbegin => exact .of_begin hbegin
  | @submission earlier _ pipeline hinner =>
      rw [(place.alike_afterStep earlier pipeline).pipeline]
      exact .of_step? hinner
  | conclude hconclude =>
      unfold Task.conclude at hconclude
      split at hconclude <;> cases hconclude <;> exact ⟨rfl, rfl⟩
  | _ => exact ⟨rfl, rfl⟩

/-! What pipelines do with submissions and tasks depends on nothing else. -/

variable (hkindred : pipeline.Kindred other)

include hkindred

theorem submission : Submission.operation other = Submission.operation pipeline := by
  obtain ⟨settings, clock, guards, resources, statistics⟩ := pipeline
  obtain ⟨settings', clock', guards', resources', statistics'⟩ := other
  obtain ⟨rfl, rfl⟩ := hkindred
  rfl

theorem task : Task.operation other = Task.operation pipeline := by
  obtain ⟨settings, clock, guards, resources, statistics⟩ := pipeline
  obtain ⟨settings', clock', guards', resources', statistics'⟩ := other
  obtain ⟨rfl, rfl⟩ := hkindred
  rfl

theorem ofBatch : Submission.ofBatch other = Submission.ofBatch pipeline := by
  obtain ⟨settings, clock, guards, resources, statistics⟩ := pipeline
  obtain ⟨settings', clock', guards', resources', statistics'⟩ := other
  obtain ⟨rfl, rfl⟩ := hkindred
  rfl

end Pipeline.Kindred

/-- The settings and the clock never change. -/
theorem Crowd.Move.kindred {crowd next : Crowd} {mover : Party} (hmove : Move mover crowd next) :
    crowd.place.pipeline.Kindred next.place.pipeline := by
  cases hmove with
  | keepBooks halike =>
      dsimp only
      rw [halike.pipeline]
      exact .refl _
  | stepTask htask hstep => exact .of_taskStep? hstep
  | @stepJob _ position number worker job place later hworker hjob hstep =>
      obtain ⟨⟨pipeline, stepped⟩, hinner, hafter⟩ := Option.map_eq_some_iff.mp hstep
      cases hafter
      have hpipeline := (crowd.place.alike_afterStep job.watched.state pipeline).pipeline
      unfold Workplace.changeWorker
      dsimp only
      rw [hpipeline]
      exact .of_step? hinner
  | loseJob hworker hjob hending =>
      dsimp only
      rw [(Workplace.loseWorker_spec hworker ..).2]
      exact ⟨rfl, rfl⟩
  | _ => exact ⟨rfl, rfl⟩

end Clearing
