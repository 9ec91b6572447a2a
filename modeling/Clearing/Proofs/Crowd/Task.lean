import Clearing.Proofs.Batch.Split
import Clearing.Proofs.Bookkeeping

/-!
# The steps of a task

`Task.Act` lists what a task can do in one step: begin, let the operation that it
executes make a step, reply, or find that a worker has finished.  That it can do
nothing else is `Task.act_of_step?`.
-/

namespace Clearing

namespace Task

/-- The submission that a task is about. -/
def submission? (task : Task) : Option Submission :=
  match task.state with
  | .processing submission => some submission
  | _ => none

/-- The steps of a task with a command: what stood where it was before, the workplace after the
step, and where the task stands then. -/
inductive Act (now : Nat) (place : Workplace) (command : Command) :
    TaskState → Workplace → TaskState → Prop
  | begin {after : Workplace} {later : TaskState}
      (hbegin : Task.begin now place command = (after, later)) :
      Act now place command .starting after later
  | submission {submission later : Submission} {pipeline : Pipeline}
      (hstep : submission.step? now place.pipeline = some (pipeline, later)) :
      Act now place command (.processing submission) (place.afterStep submission pipeline)
        (.processing later)
  | processed {submission : Submission} {ending : Ending Transaction}
      (hending : submission.ending? = some ending) :
      Act now place command (.processing submission) place (.done (.processed ending))
  | check {state later : Timed CheckState} {resources : Resources}
      (hstep : (validation place.pipeline command).step? now place.pipeline.resources state =
        some (resources, later)) :
      Act now place command (.validating state) (place.mapResources fun _ => resources)
        (.validating later)
  | checked {state : Timed CheckState} {ending : Ending Unit}
      (hending : (validation place.pipeline command).ending? state = some ending) :
      Act now place command (.validating state) place (.done (.checked ending))
  | askCustomers {state later : SummaryState CustomerTotal} {resources : Resources}
      (hstep : SummaryKind.customers.query.step? now place.pipeline.resources state =
        some (resources, later)) :
      Act now place command (.customerSummary state) (place.mapResources fun _ => resources)
        (.customerSummary later)
  | toldCustomers {state : SummaryState CustomerTotal} {ending : Ending (List CustomerTotal)}
      (hending : SummaryKind.customers.query.ending? state = some ending) :
      Act now place command (.customerSummary state) place (.done (.customerSummary ending))
  | askProducts {state later : SummaryState ProductTotal} {resources : Resources}
      (hstep : SummaryKind.products.query.step? now place.pipeline.resources state =
        some (resources, later)) :
      Act now place command (.productSummary state) (place.mapResources fun _ => resources)
        (.productSummary later)
  | toldProducts {state : SummaryState ProductTotal} {ending : Ending (List ProductTotal)}
      (hending : SummaryKind.products.query.ending? state = some ending) :
      Act now place command (.productSummary state) place (.done (.productSummary ending))
  | count {state later : RequestState Unit Nat} {resources : Resources}
      (hstep : (counting command).step? now place.pipeline.resources state =
        some (resources, later)) :
      Act now place command (.counting state) (place.mapResources fun _ => resources)
        (.counting later)
  | counted {state : RequestState Unit Nat} {ending : Ending Nat}
      (hending : (counting command).ending? state = some ending) :
      Act now place command (.counting state) place (.done (.counted ending))
  | find {first count found : Nat} (hfound : found ≠ count)
      (hover : place.isOver (first + found)) :
      Act now place command (.waiting first count found) place (.waiting first count (found + 1))
  | conclude {first count : Nat} {after : Workplace} {later : TaskState}
      (hconclude : Task.conclude place command (place.collected first count) = (after, later)) :
      Act now place command (.waiting first count count) after later
  | rested {wakes : Nat} (hwakes : wakes ≤ now) :
      Act now place command (.resting wakes) place (.done .done)

private theorem stepOn_cases {ω α : Type} {operation : Operation Resources ω α}
    {keep : ω → TaskState} {reply : Ending α → Reply} {now : Nat} {place after : Workplace}
    {state : ω} {later : TaskState}
    (hstep : stepOn operation keep reply now place state = some (after, later)) :
    (∃ resources next, operation.step? now place.pipeline.resources state =
        some (resources, next) ∧ after = place.mapResources (fun _ => resources) ∧
          later = keep next) ∨
      ∃ ending, operation.ending? state = some ending ∧ after = place ∧
        later = .done (reply ending) := by
  unfold stepOn at hstep
  split at hstep
  · rename_i resources next hinner
    cases hstep
    exact .inl ⟨resources, next, hinner, rfl, rfl⟩
  · obtain ⟨ending, hending, hreply⟩ := Option.map_eq_some_iff.mp hstep
    cases hreply
    exact .inr ⟨ending, hending, rfl, rfl⟩

/-- A task does nothing but these steps, and its command stays the same. -/
theorem act_of_step? {now : Nat} {place after : Workplace} {task later : Task}
    (hstep : task.step? now place = some (after, later)) :
    later.command = task.command ∧
      Act now place task.command task.state after later.state := by
  obtain ⟨⟨next, state⟩, hact, hlater⟩ := Option.map_eq_some_iff.mp hstep
  obtain ⟨command, before⟩ := task
  cases hlater
  refine ⟨rfl, ?_⟩
  -- A state that is about an operation makes a step of it or, if it has none, ends with it.
  cases before with
  | starting => exact .begin (Option.some.inj hact)
  | processing submission =>
      dsimp only at hact
      split at hact
      · rename_i hinner
        cases hact
        obtain ⟨⟨pipeline, later⟩, hstep, hnext⟩ := Option.map_eq_some_iff.mp hinner
        cases hnext
        exact .submission hstep
      · obtain ⟨ending, hending, hreply⟩ := Option.map_eq_some_iff.mp hact
        cases hreply
        exact .processed hending
  | validating state =>
      obtain ⟨resources, later, hinner, rfl, rfl⟩ | ⟨ending, hending, rfl, rfl⟩ :=
        stepOn_cases hact
      · exact .check hinner
      · exact .checked hending
  | customerSummary state =>
      obtain ⟨resources, later, hinner, rfl, rfl⟩ | ⟨ending, hending, rfl, rfl⟩ :=
        stepOn_cases hact
      · exact .askCustomers hinner
      · exact .toldCustomers hending
  | productSummary state =>
      obtain ⟨resources, later, hinner, rfl, rfl⟩ | ⟨ending, hending, rfl, rfl⟩ :=
        stepOn_cases hact
      · exact .askProducts hinner
      · exact .toldProducts hending
  | counting state =>
      obtain ⟨resources, later, hinner, rfl, rfl⟩ | ⟨ending, hending, rfl, rfl⟩ :=
        stepOn_cases hact
      · exact .count hinner
      · exact .counted hending
  | waiting first count found =>
      dsimp only at hact
      split at hact
      · rename_i hfound
        subst hfound
        exact .conclude (Option.some.inj hact)
      · rename_i hfound
        obtain ⟨hover, hnext⟩ := Option.ite_none_right_eq_some.mp hact
        cases hnext
        exact .find hfound hover
  | resting wakes =>
      obtain ⟨hwakes, hnext⟩ := Option.ite_none_right_eq_some.mp hact
      cases hnext
      exact .rested hwakes
  | done reply => cases hact

/-! ## Hiring -/

/-- Workers are hired as the settings say and the sub-batches dealt to them, unless they would be
too many. -/
theorem hire_cases {place after : Workplace} {format : WireFormat}
    {transactions : List Transaction} {later : TaskState}
    (hhire : hire place format transactions = (after, later)) :
    (max place.pipeline.settings.batch.workers 1 ≤ maxWorkers ∧
        later = .waiting place.workers.size (max place.pipeline.settings.batch.workers 1) 0 ∧
        after.pipeline = place.pipeline ∧
        after.staff = place.staff ++
          (deal (max place.pipeline.settings.batch.workers 1)
            (subBatches place.pipeline.settings.batch.subBatchSize transactions)).map
              (.new format place.pipeline.settings.batch.inFlightPerWorker)) ∨
      (maxWorkers < max place.pipeline.settings.batch.workers 1 ∧
        later = .done (.aborted .tooManyWorkers) ∧ after = place) := by
  unfold hire at hhire
  split at hhire
  · rename_i first count next hhired
    obtain ⟨hired, hworkers, hafter⟩ := Option.map_eq_some_iff.mp hhired
    obtain ⟨hfew, hdealt⟩ := Option.ite_none_right_eq_some.mp hworkers
    cases hhire
    cases hafter
    cases hdealt
    refine .inl ⟨hfew, ?_, rfl, ?_⟩
    · rw [List.length_map, length_deal]
    · simp only [Workplace.staff, Array.toList_append, List.map_append, List.map_map]
      rfl
  · rename_i hnone
    cases hhire
    refine .inr ⟨?_, rfl, rfl⟩
    have hmany := Option.map_eq_none_iff.mp hnone
    unfold Worker.ofBatch? at hmany
    by_contra hfew
    rw [if_pos (by omega)] at hmany
    cases hmany

/-- To hire workers changes nothing about the pipeline. -/
theorem pipeline_hire {place after : Workplace} {format : WireFormat}
    {transactions : List Transaction} {later : TaskState}
    (hhire : hire place format transactions = (after, later)) :
    after.pipeline = place.pipeline := by
  obtain ⟨-, -, hpipeline, -⟩ | ⟨-, -, rfl⟩ := hire_cases hhire
  · exact hpipeline
  · rfl

/-- The staff has grown by some workers who have not begun, or is the same. -/
def Hires (place after : Workplace) : Prop :=
  ∃ (format : WireFormat) (limit : Nat) (queues : List (List (List Transaction))),
    after.staff = place.staff ++ queues.map (Worker.new format limit)

theorem Hires.of_same {place after : Workplace} (hstaff : after.staff = place.staff) :
    Hires place after :=
  ⟨.text, 0, [], by simp [hstaff]⟩

theorem hires_hire {place after : Workplace} {format : WireFormat}
    {transactions : List Transaction} {later : TaskState}
    (hhire : hire place format transactions = (after, later)) : Hires place after := by
  obtain ⟨-, -, -, hstaff⟩ | ⟨-, -, rfl⟩ := hire_cases hhire
  · exact ⟨_, _, _, hstaff⟩
  · exact .of_same rfl

/-- A task leaves the staff as it is, except that it may hire workers. -/
theorem Act.hires {now : Nat} {place after : Workplace} {command : Command}
    {state later : TaskState} (hact : Act now place command state after later) :
    Hires place after := by
  cases hact with
  | begin hbegin =>
      -- Only the commands with a batch hire.
      cases command with
      | batch transactions format => exact hires_hire hbegin
      | consume records format =>
          have hhires : Hires { place with
            pipeline := (readRecords place.pipeline format records).1 } after := hires_hire hbegin
          exact hhires
      | _ => cases hbegin; exact .of_same rfl
  | submission hstep => exact .of_same (Workplace.alike_afterStep ..).staff
  | conclude hconclude =>
      unfold Task.conclude at hconclude
      split at hconclude <;> cases hconclude <;> exact .of_same rfl
  | _ => exact .of_same rfl

/-! ## Replies -/

theorem state_of_reply? {task : Task} {reply : Reply} (hreply : task.reply? = some reply) :
    task.state = .done reply := by
  unfold reply? at hreply
  split at hreply
  · rename_i hdone
    cases hreply
    exact hdone
  · cases hreply

/-- No command replies with transactions in its first step. -/
theorem begin_reply {now : Nat} {place after : Workplace} {command : Command} {reply : Reply}
    (hbegin : Task.begin now place command = (after, .done reply)) :
    (∀ ending, reply ≠ .processed ending) ∧ ∀ processed, reply ≠ .batch processed := by
  have hhire {place : Workplace} {format : WireFormat} {transactions : List Transaction}
      (hhire : hire place format transactions = (after, .done reply)) :
      (∀ ending, reply ≠ .processed ending) ∧ ∀ processed, reply ≠ .batch processed := by
    obtain ⟨-, hwaiting, -⟩ | ⟨-, haborted, -⟩ := hire_cases hhire
    · cases hwaiting
    · cases haborted
      exact ⟨fun _ => Reply.noConfusion, fun _ => Reply.noConfusion⟩
  cases command with
  | batch transactions format => exact hhire hbegin
  | consume records format => exact hhire hbegin
  | _ => cases hbegin <;> exact ⟨fun _ => Reply.noConfusion, fun _ => Reply.noConfusion⟩

/-- A reply about a transaction is the ending of its submission. -/
theorem submission?_of_reply {now : Nat} {place after : Workplace} {task later : Task}
    {ending : Ending Transaction} (hstep : task.step? now place = some (after, later))
    (hreply : later.state = .done (.processed ending)) :
    ∃ submission, task.submission? = some submission ∧ submission.ending? = some ending := by
  obtain ⟨-, hact⟩ := act_of_step? hstep
  obtain ⟨command, state⟩ := task
  rw [hreply] at hact
  cases hact with
  | begin hbegin => exact absurd rfl ((begin_reply hbegin).1 _)
  | processed hending => exact ⟨_, rfl, hending⟩
  | conclude hconclude =>
      have hstate := congrArg Prod.snd hconclude
      dsimp only [Task.conclude] at hstate
      split at hstate <;> cases hstate

/-- A reply about a batch is what some workers have collected. -/
theorem collected_of_reply {now : Nat} {place after : Workplace} {task later : Task}
    {processed : List Transaction} (hstep : task.step? now place = some (after, later))
    (hreply : later.state = .done (.batch processed)) :
    ∃ first count, processed = place.collected first count := by
  obtain ⟨-, hact⟩ := act_of_step? hstep
  rw [hreply] at hact
  generalize task.state = state at hact
  cases hact with
  | begin hbegin => exact absurd rfl ((begin_reply hbegin).2 _)
  | @conclude first count _ _ hconclude =>
      have hstate := congrArg Prod.snd hconclude
      dsimp only [Task.conclude] at hstate
      split at hstate <;> cases hstate
      exact ⟨first, count, rfl⟩

theorem state_of_cut? {pipeline : Pipeline} {chosen : Deadline → Bool} {task later : Task}
    (hcut : (Task.operation pipeline).cut? chosen task = some later) (reply : Reply) :
    later.state ≠ .done reply := by
  obtain ⟨state, hinner, rfl⟩ := Option.map_eq_some_iff.mp hcut
  split at hinner
  · obtain ⟨next, -, rfl⟩ := Option.map_eq_some_iff.mp hinner
    exact TaskState.noConfusion
  · obtain ⟨next, -, rfl⟩ := Option.map_eq_some_iff.mp hinner
    exact TaskState.noConfusion
  · cases hinner

end Task

end Clearing
