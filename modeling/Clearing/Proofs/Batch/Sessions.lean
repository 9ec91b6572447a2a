import Clearing.Proofs.Batch.Accounting
import Clearing.Proofs.Crowd.Sessions

/-!
# Sessions that hand in a batch

A session that is told a command which hands in a batch gives it to a pipeline
that does nothing else (`Session.run_tell`): the session begins without workers,
nobody interferes from outside, and a store that is not to abort requests when
the command comes in is never told to.

That the store stays calm depends on the jobs of the batch, none of which was
aborted, so it is shown together with the books of the batch.
-/

namespace Clearing

namespace Crowd

variable {command : Command} {batch : Batch} {base : Statistics} {idle : List Worker}
  {tallies : List Tally} {crowd next : Crowd} {mover : Party} {state : TaskState}

/-- A job in flight is calm. -/
theorem BatchBooks.calm_job (hbooks : BatchBooks command batch base idle tallies crowd state)
    {position number : Nat} {submission : Submission}
    (hjob : crowd.submission? (.job position number) = some submission) : submission.Calm := by
  obtain ⟨shares, counted, -, haccounts⟩ := hbooks.accounts
  obtain ⟨index, tally, -, htally, hjob⟩ := haccounts.submission? hjob
  obtain ⟨share, hsound⟩ := haccounts.sound_of_mem (List.mem_of_getElem? htally)
  exact (hsound.balanced.fits _ (Worker.mem_inHand hjob)).calm

/-- The store stays calm, whoever moves but a task or the store itself. -/
theorem BatchBooks.calm_moved (hbooks : BatchBooks command batch base idle tallies crowd state)
    (hcalm : crowd.resources.Calm) (hmove : Move mover crowd next) (hstore : mover ≠ .store)
    (htask : ∀ position, mover ≠ .task position) : next.resources.Calm := by
  cases hmove with
  | change store => exact absurd rfl hstore
  | keepBooks halike =>
      unfold resources
      rw [halike.pipeline]
      exact hcalm
  | stepTask | cutTask => exact absurd rfl (htask _)
  | @stepJob _ position number worker job place later hworker hjob hstep =>
      obtain ⟨⟨pipeline, stepped⟩, hinner, hafter⟩ := Option.map_eq_some_iff.mp hstep
      cases hafter
      have hsubmission := hbooks.calm_job (crowd.submission?_of_job hworker hjob)
      unfold resources Workplace.changeWorker
      rw [(crowd.place.alike_afterStep job.watched.state pipeline).pipeline]
      exact (Submission.calm_of_step? hcalm hsubmission hinner).1
  | loseJob hworker hjob hending =>
      unfold resources
      rw [(Workplace.loseWorker_spec hworker ..).2]
      exact hcalm
  | _ => exact hcalm

/-- The store stays calm in a step of a command that hands in a batch. -/
theorem BatchBooks.calm_stepped (hbatch : command.batch? = some batch)
    (hbooks : BatchBooks command batch base idle tallies crowd state)
    (hcalm : crowd.resources.Calm) {place : Workplace} {later : Task}
    (hstep : Task.step? crowd.now crowd.place ⟨command, state⟩ = some (place, later)) :
    place.pipeline.resources.Calm := by
  obtain ⟨-, hact⟩ := Task.act_of_step? hstep
  generalize later.state = after at hact
  dsimp only at hact
  cases hbooks with
  | starting =>
      cases hact with
      | begin hbegin =>
          rw [Command.begin_of_batch? hbatch] at hbegin
          rw [Task.pipeline_hire hbegin]
          exact hcalm
  | waiting =>
      cases hact with
      | find => exact hcalm
      | conclude hconclude =>
          unfold Task.conclude at hconclude
          split at hconclude <;> cases hconclude <;> exact hcalm
  | refused | done => cases hact

namespace Run

variable {run : Run} {start index position : Nat}

/-- If nobody interferes from outside the store stays calm. -/
theorem Underway.calm_succ (hunderway : run.Underway start position command batch index idle
      tallies state) (hbatch : command.batch? = some batch) (hclosed : run.Closed)
    (hcalm : (run.moment index).resources.Calm) : (run.moment (index + 1)).resources.Calm := by
  have hmove := run.move index
  obtain ⟨-, hstore⟩ := hclosed index
  generalize run.party index = mover at hmove hstore
  by_cases htask : ∃ other, mover = .task other
  · obtain ⟨other, rfl⟩ := htask
    by_cases hsame : other = position
    · subst hsame
      generalize run.moment (index + 1) = next at hmove
      cases hmove with
      | stepTask hmoved hstep =>
          rw [hunderway.task] at hmoved
          cases hmoved
          exact hunderway.books.calm_stepped hbatch hcalm hstep
      | cutTask => exact hcalm
    · generalize run.moment (index + 1) = next at hmove
      cases hmove with
      | stepTask hmoved hstep =>
          -- The others have replied.
          obtain ⟨reply, hreply⟩ := hunderway.others other _ hsame hmoved
          rw [Task.step?_of_reply hreply] at hstep
          cases hstep
      | cutTask => exact hcalm
  · exact hunderway.books.calm_moved hcalm hmove hstore fun other hother => htask ⟨other, hother⟩

/-- **If nobody interferes from outside a command is alone**, provided that it was when it came in
and that the store aborted no requests then. -/
theorem Closed.alone (hclosed : run.Closed) (hbatch : command.batch? = some batch)
    (hgiven : (run.moment start).tasks[position]? = some (.new command))
    (hothers : ∀ (other : Nat) (task : Task), other ≠ position →
      (run.moment start).tasks[other]? = some task → ∃ reply, task.reply? = some reply)
    (hidle : ∀ worker ∈ (run.moment start).place.staff, worker.Idle)
    (hcalm : (run.moment start).resources.Calm) (finish : Nat) :
    run.Alone start finish position command := by
  have halone : run.Alone start start position command :=
    ⟨hgiven, hothers, hidle, fun index hstart hindex => absurd hindex (Nat.not_lt.mpr hstart),
      fun index hstart hindex => absurd hindex (Nat.not_lt.mpr hstart)⟩
  -- The books of the batch are in order as long as the store is calm, and the other way round.
  have hboth (index : Nat) (hindex : start ≤ index) : (run.moment index).resources.Calm ∧
      ∃ idle tallies state,
        run.Underway start position command batch index idle tallies state := by
    induction hindex with
    | refl => exact ⟨hcalm, _, _, _, underway_start halone⟩
    | @step index hindex ih =>
        obtain ⟨hcalm, idle, tallies, state, hunderway⟩ := ih
        exact ⟨hunderway.calm_succ hbatch hclosed hcalm,
          hunderway.succ hbatch hindex (hclosed index).1 hcalm⟩
  exact ⟨hgiven, hothers, hidle, fun index _ _ => (hclosed index).1,
    fun index hindex _ => (hboth index hindex).1⟩

end Run

end Crowd

/-- **A session gives a batch to a pipeline that does nothing else.**  What it does when it is told
to hand in a batch is a run in which the command is alone, and it ends with the pipeline and the
reply of the run. -/
theorem Session.run_tell (session : Session) {command : Command} {batch : Batch}
    (hbatch : command.batch? = some batch) (hcalm : session.pipeline.resources.Calm) :
    ∃ (run : Crowd.Run) (finish : Nat) (task : Task),
      run.Alone 0 finish 0 command ∧
        (run.moment 0).place = .new session.pipeline ∧
          (run.moment finish).place.pipeline = (session.tell command).2.pipeline ∧
            (run.moment finish).tasks[0]? = some task ∧
              task.reply? = (session.tell command).1 := by
  obtain ⟨run, finish, hstart, hclosed, -, hpipeline, hreplies⟩ := session.run_perform [command]
  have hplace : (run.moment 0).place = .new session.pipeline := by rw [hstart]
  have htasks : (run.moment 0).tasks = [.new command] := by rw [hstart]; rfl
  have halone : run.Alone 0 finish 0 command := by
    refine hclosed.alone hbatch ?_ ?_ ?_ ?_ finish
    · rw [htasks]
      rfl
    · intro other task hother htask
      rw [htasks, List.getElem?_singleton, if_neg hother] at htask
      cases htask
    · intro worker hworker
      rw [hplace] at hworker
      cases hworker
    · unfold Crowd.resources
      rw [hplace]
      exact hcalm
  obtain ⟨idle, tallies, state, hunderway⟩ := Crowd.Run.underway halone hbatch (Nat.zero_le _)
    (Nat.le_refl finish)
  refine ⟨run, finish, _, halone, hplace, hpipeline, hunderway.task, ?_⟩
  -- The reply of the session is that of its first command.
  have hfirst := congrArg List.head? hreplies
  rw [List.head?_map, List.head?_map, List.head?_eq_getElem?, hunderway.task] at hfirst
  show _ = (((session.perform [command]).1.head?.map (·.1)).join : Option Reply)
  rw [← hfirst]
  rfl

end Clearing
