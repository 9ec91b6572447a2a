import Clearing.Proofs.Crowd.Workers

/-!
# Tasks and submissions in a crowd

A submission in a crowd is that of a task or of a job.  In one move it is newly
made, stays as it is, or goes on by a step or a cut of its own
(`Crowd.Move.became`).  So does a task (`Crowd.Move.taskBecame`).
-/

namespace Clearing

/-! ## Submissions of tasks -/

namespace Task

variable {now : Nat} {place after : Workplace} {task later : Task} {submission : Submission}

theorem hire_ne_processing {format : WireFormat} {transactions : List Transaction} :
    (hire place format transactions).2 ≠ .processing submission := by
  unfold hire
  split <;> exact TaskState.noConfusion

theorem begin_processing {command : Command}
    (hbegin : Task.begin now place command = (after, .processing submission)) :
    ∃ transaction, command = .process transaction ∧
      submission = .single place.pipeline transaction := by
  cases command with
  | process transaction =>
      cases hbegin
      exact ⟨transaction, rfl, rfl⟩
  | batch transactions format =>
      exact absurd (congrArg Prod.snd hbegin) hire_ne_processing
  | consume records format =>
      exact absurd (congrArg Prod.snd hbegin) hire_ne_processing
  | _ => cases hbegin

/-- The submission of a task after a step is new or has made a step. -/
theorem submission?_of_step? (hstep : task.step? now place = some (after, later))
    (hlater : later.submission? = some submission) :
    (∃ transaction, submission = .single place.pipeline transaction) ∨
      ∃ earlier, task.submission? = some earlier ∧
        earlier.step? now place.pipeline = some (after.pipeline, submission) := by
  obtain ⟨command, state⟩ := task
  obtain ⟨command', state'⟩ := later
  obtain ⟨-, hact⟩ := act_of_step? hstep
  have hstate : state' = .processing submission := by
    unfold submission? at hlater
    split at hlater
    · rename_i hprocessing
      cases hlater
      exact hprocessing
    · cases hlater
  dsimp only at hact
  subst hstate
  cases hact with
  | begin hbegin =>
      obtain ⟨transaction, -, rfl⟩ := begin_processing hbegin
      exact .inl ⟨transaction, rfl⟩
  | @submission earlier _ pipeline hinner =>
      refine .inr ⟨earlier, rfl, ?_⟩
      rw [(place.alike_afterStep earlier pipeline).pipeline]
      exact hinner
  | conclude hconclude => cases hconclude

theorem submission?_of_cut? {pipeline : Pipeline} {chosen : Deadline → Bool}
    (hcut : (Task.operation pipeline).cut? chosen task = some later)
    (hlater : later.submission? = some submission) :
    ∃ earlier, task.submission? = some earlier ∧
      (Submission.operation pipeline).cut? chosen earlier = some submission := by
  obtain ⟨state, hinner, rfl⟩ := Option.map_eq_some_iff.mp hcut
  split at hinner
  · rename_i earlier hprocessing
    obtain ⟨next, hnext, rfl⟩ := Option.map_eq_some_iff.mp hinner
    cases hlater
    exact ⟨earlier, by rw [submission?, hprocessing], hnext⟩
  · obtain ⟨next, -, rfl⟩ := Option.map_eq_some_iff.mp hinner
    cases hlater
  · cases hinner

/-- A task waits for what its submission waits for. -/
theorem wait?_of_submission? {pipeline : Pipeline} (hsubmission : task.submission? = some submission) :
    (Task.operation pipeline).wait? task = (Submission.operation pipeline).wait? submission := by
  unfold submission? at hsubmission
  split at hsubmission
  · rename_i hprocessing
    cases hsubmission
    simp only [operation, hprocessing]
  · cases hsubmission

end Task

/-! ## Tasks in a crowd -/

namespace Crowd

/-- What can have become of the tasks in a move: a command came in, one of them has made a step or
was cut short, or they are as before. -/
inductive TasksBecame (crowd next : Crowd) (mover : Party) : Prop
  | arrived {command : Command} (hmover : mover = .arrival)
      (htasks : next.tasks = crowd.tasks ++ [.new command])
  | step {position : Nat} {task later : Task} (hmover : mover = .task position)
      (htask : crowd.tasks[position]? = some task)
      (hstep : task.step? crowd.now crowd.place = some (next.place, later))
      (htasks : next.tasks = crowd.tasks.set position later)
  | cut {position : Nat} {task later : Task} {chosen : Deadline → Bool}
      (hmover : mover = .task position) (htask : crowd.tasks[position]? = some task)
      (hwait : (Task.operation crowd.place.pipeline).wait? task ≠ none)
      (hcut : (Task.operation crowd.place.pipeline).cut? chosen task = some later)
      (htasks : next.tasks = crowd.tasks.set position later)
  | same (hmover : ∀ position, mover ≠ .task position) (htasks : next.tasks = crowd.tasks)

variable {crowd next : Crowd} {mover party : Party}

theorem Move.tasksBecame (hmove : Move mover crowd next) : TasksBecame crowd next mover := by
  cases hmove with
  | arrive command => exact .arrived rfl rfl
  | stepTask htask hstep => exact .step rfl htask hstep rfl
  | cutTask htask hwait hcut => exact .cut rfl htask hwait hcut rfl
  | _ => exact .same (fun _ => Party.noConfusion) rfl

/-- What can have become of a task in a move: its command came in, it was there before, or it was
this task that moved and it has made a step or was cut short. -/
inductive TaskBecame (crowd next : Crowd) (mover : Party) (position : Nat) (later : Task) : Prop
  | new {command : Command} (hnew : later = .new command)
  | same (hsame : crowd.tasks[position]? = some later)
  | step {task : Task} (hmover : mover = .task position)
      (htask : crowd.tasks[position]? = some task)
      (hstep : task.step? crowd.now crowd.place = some (next.place, later))
  | cut {task : Task} {chosen : Deadline → Bool} (hmover : mover = .task position)
      (htask : crowd.tasks[position]? = some task)
      (hwait : (Task.operation crowd.place.pipeline).wait? task ≠ none)
      (hcut : (Task.operation crowd.place.pipeline).cut? chosen task = some later)

theorem Move.taskBecame {position : Nat} {later : Task} (hmove : Move mover crowd next)
    (hlater : next.tasks[position]? = some later) :
    TaskBecame crowd next mover position later := by
  cases hmove.tasksBecame with
  | arrived hmover htasks =>
      rw [htasks, List.getElem?_append] at hlater
      split at hlater
      · exact .same hlater
      · exact .new (List.mem_singleton.mp (List.mem_of_getElem? hlater))
  | @step position' task later' hmover htask hstep htasks =>
      rw [htasks] at hlater
      by_cases hposition : position' = position
      · subst hposition
        rw [List.getElem?_set_self (List.getElem?_eq_some_iff.mp htask).1] at hlater
        cases hlater
        exact .step hmover htask hstep
      · rw [List.getElem?_set_ne hposition] at hlater
        exact .same hlater
  | @cut position' task later' chosen hmover htask hwait hcut htasks =>
      rw [htasks] at hlater
      by_cases hposition : position' = position
      · subst hposition
        rw [List.getElem?_set_self (List.getElem?_eq_some_iff.mp htask).1] at hlater
        cases hlater
        exact .cut hmover htask hwait hcut
      · rw [List.getElem?_set_ne hposition] at hlater
        exact .same hlater
  | same hmover htasks =>
      rw [htasks] at hlater
      exact .same hlater

/-! ## Submissions in a crowd -/

/-- A submission that was handed in just now. -/
def IsNew (pipeline : Pipeline) (submission : Submission) : Prop :=
  ∃ transaction, submission = .single pipeline transaction ∨
    ∃ format, submission = .ofBatch pipeline format transaction

/-- What can have become of a party's submission in a move: it is new, it was there before, or it
was this party that moved and it has made a step or was cut short. -/
inductive Became (crowd : Crowd) (mover party : Party) (after : Pipeline) (later : Submission) :
    Prop
  | new (hnew : IsNew crowd.place.pipeline later)
  | same (hsame : crowd.submission? party = some later)
  | step {earlier : Submission} (hmover : mover = party)
      (hearlier : crowd.submission? party = some earlier)
      (hstep : earlier.step? crowd.now crowd.place.pipeline = some (after, later))
  | cut {earlier : Submission} {chosen : Deadline → Bool} (hmover : mover = party)
      (hearlier : crowd.submission? party = some earlier)
      (hwait : (Submission.operation crowd.place.pipeline).wait? earlier ≠ none)
      (hcut : (Submission.operation crowd.place.pipeline).cut? chosen earlier = some later)

variable {later : Submission}

/-- What has become of the submission of a task. -/
private theorem Move.became_task {position : Nat} (hmove : Move mover crowd next)
    (hlater : next.submission? (.task position) = some later) :
    Became crowd mover (.task position) next.place.pipeline later := by
  obtain ⟨task, htask, hsubmission⟩ := Option.bind_eq_some_iff.mp hlater
  cases hmove.taskBecame htask with
  | new hnew =>
      -- Nothing was done about the new command yet.
      subst hnew
      cases hsubmission
  | same hsame => exact .same (Option.bind_eq_some_iff.mpr ⟨task, hsame, hsubmission⟩)
  | @step before hmover hbefore hstep =>
      rcases Task.submission?_of_step? hstep hsubmission with
        ⟨transaction, hnew⟩ | ⟨earlier, hearlier, hinner⟩
      · exact .new ⟨transaction, .inl hnew⟩
      · refine .step hmover ?_ hinner
        exact Option.bind_eq_some_iff.mpr ⟨before, hbefore, hearlier⟩
  | @cut before chosen hmover hbefore hwait hcut =>
      obtain ⟨earlier, hearlier, hinner⟩ := Task.submission?_of_cut? hcut hsubmission
      refine .cut hmover ?_ ?_ hinner
      · exact Option.bind_eq_some_iff.mpr ⟨before, hbefore, hearlier⟩
      · rwa [← Task.wait?_of_submission? hearlier]

/-- What has become of the submission of a job. -/
private theorem Move.became_job {position number : Nat} (hmove : Move mover crowd next)
    (hlater : next.submission? (.job position number) = some later) :
    Became crowd mover (.job position number) next.place.pipeline later := by
  obtain ⟨after, hafter, hsubmission⟩ := Option.bind_eq_some_iff.mp hlater
  have hearlier {worker : Worker} {submission : Submission}
      (hworker : crowd.place.staff[position]? = some worker)
      (hjob : worker.submission? number = some submission) :
      crowd.submission? (.job position number) = some submission :=
    Option.bind_eq_some_iff.mpr ⟨worker, hworker, hjob⟩
  cases hmove.workerBecame hafter with
  | hired hnew =>
      -- A worker who was just hired has no jobs.
      subst hnew
      cases hsubmission
  | same hsame => exact .same (hearlier hsame hsubmission)
  | moved hworker hmoved =>
      cases hmoved with
      | begun hmover hjobs hbegin hnew =>
          rw [hnew, Worker.submission?_bare] at hsubmission
          obtain ⟨transaction, hnew⟩ := Worker.submission?_begin? hbegin hsubmission
          exact .new ⟨transaction, .inr ⟨_, hnew⟩⟩
      | closed hmover hjobs hbegin hnew =>
          rw [hnew] at hsubmission
          exact .same (hearlier hworker hsubmission)
      | stepped hmover hjob hstep hnew =>
          rw [hnew, Worker.submission?_putJob] at hsubmission
          split at hsubmission
          · rename_i hnumber
            subst hnumber
            cases hsubmission
            exact .step hmover (hearlier hworker hjob) hstep
          · exact .same (hearlier hworker hsubmission)
      | cut hmover hjob hwait hcut hnew =>
          rw [hnew, Worker.submission?_putJob] at hsubmission
          split at hsubmission
          · rename_i hnumber
            subst hnumber
            cases hsubmission
            exact .cut hmover (hearlier hworker hjob) hwait hcut
          · exact .same (hearlier hworker hsubmission)
      | looked hmover hjob hnew =>
          rw [hnew, Worker.submission?_putJob] at hsubmission
          split at hsubmission
          · rename_i hnumber
            subst hnumber
            cases hsubmission
            exact .same (hearlier hworker hjob)
          · exact .same (hearlier hworker hsubmission)
      | finished hmover hjob hending hnew =>
          rw [hnew, Worker.submission?_bare] at hsubmission
          rcases Worker.submission?_finish hsubmission with hold | ⟨transaction, hnew⟩
          · exact .same (hearlier hworker hold)
          · exact .new ⟨transaction, .inr ⟨_, hnew⟩⟩
      | lost hmover hjob hending hnew =>
          -- The worker has lost all its jobs.
          subst hnew
          cases hsubmission

/-- What has become of the submission of a party. -/
theorem Move.became (hmove : Move mover crowd next)
    (hlater : next.submission? party = some later) :
    Became crowd mover party next.place.pipeline later := by
  cases party with
  | task position => exact hmove.became_task hlater
  | job position number => exact hmove.became_job hlater
  | _ => cases hlater

end Crowd

end Clearing
