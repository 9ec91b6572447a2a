import Mathlib.Logic.Relation
import Clearing.Proofs.Crowd.Books
import Clearing.Proofs.Schedule

/-!
# Turns of workers as moves

A crowd reaches another one if moves lead from it to the other, without new
commands and without a change of the store from outside (`Crowd.Reaches`).
Whatever a worker does in a turn a crowd can do in moves
(`Crowd.Reaches.work`), and what is left of a turn is bookkeeping.

## Strategy

While a job is looked at the workplace has it as it was before, and puts it back
when the look is over.  A crowd puts it back after every step.  So the two are
compared through the crowd in which the job is put back (`Crowd.Handles`).
-/

namespace Clearing

/-! ## Jobs that are put back -/

namespace Worker

variable (worker : Worker) (number : Nat) (watched : Watched Submission)

theorem job?_putJob : (worker.putJob number watched).job? number = some ⟨number, watched⟩ := by
  simp only [job?, putJob, List.find?_append, find?_others, List.find?_singleton]
  simp

/-- A job that is put back twice is as it was the second time. -/
theorem putJob_putJob (later : Watched Submission) :
    (worker.putJob number watched).putJob number later = worker.putJob number later := by
  simp [putJob, List.filter_append]

theorem finish_putJob (submit : Transaction → Submission) (result : Except Failure Transaction) :
    (worker.putJob number watched).finish submit number result =
      worker.finish submit number result := by
  simp [finish, putJob, List.filter_append]

theorem others_putJob :
    (worker.putJob number watched).jobs.filter (fun job => job.number ≠ number) =
      worker.jobs.filter fun job => job.number ≠ number := by
  simp [putJob, List.filter_append]

/-- The bookkeeping of a worker has no part in what becomes of its jobs. -/
theorem bare_putJob_bare :
    (worker.putJob number watched).bare = (worker.bare.putJob number watched).bare := by
  rw [bare_putJob, bare_putJob, bare_bare]

end Worker

namespace Workplace

/-- What is left of the pipeline when submissions are dropped. -/
theorem pipeline_drop (now : Nat) (jobs : List Job) (place : Workplace) :
    (jobs.foldl
      (fun (place : Workplace) job =>
        place.afterStep job.watched.state (job.watched.state.abandon now place.pipeline))
      place).pipeline =
        jobs.foldl (fun pipeline job => job.watched.state.abandon now pipeline)
          place.pipeline := by
  induction jobs generalizing place with
  | nil => rfl
  | cons job jobs ih =>
      rw [List.foldl_cons, ih, (place.alike_afterStep ..).pipeline]
      rfl

/-- A worker is lost in the same way whether or not the job that was aborted is put back. -/
theorem loseWorker_putJob {place : Workplace} {position : Nat} {worker : Worker}
    (hworker : place.workers[position]? = some worker) (now number : Nat)
    (watched : Watched Submission) :
    ((place.changeWorker position (·.putJob number watched)).loseWorker now position
      number).Alike (place.loseWorker now position number) := by
  have hput := getElem?_changeWorker hworker (·.putJob number watched)
  refine ⟨?_, ?_⟩
  · unfold loseWorker
    rw [hworker, hput]
    show Workplace.pipeline (List.foldl ..) = Workplace.pipeline (List.foldl ..)
    rw [pipeline_drop, pipeline_drop, Worker.others_putJob]
    rfl
  · rw [(loseWorker_spec hworker now number).1, (loseWorker_spec hput now number).1,
      staff_changeWorker hworker, List.set_set]
    rfl

end Workplace

/-! ## Reaching -/

namespace Crowd

/-- A move that is neither a new command nor a change of the store from outside. -/
def Stirs (crowd next : Crowd) : Prop :=
  ∃ party, party ≠ .arrival ∧ party ≠ .store ∧ Move party crowd next

/-- Moves lead from a crowd to another, without new commands and without changes of the store from
outside. -/
def Reaches : Crowd → Crowd → Prop :=
  Relation.ReflTransGen Stirs

namespace Reaches

variable {start crowd next : Crowd} {party : Party} {now position number : Nat}
  {place other : Workplace} {tasks : List Task} {worker : Worker}

theorem move (hreached : start.Reaches crowd) (hmove : Move party crowd next)
    (harrival : party ≠ .arrival) (hstore : party ≠ .store) : start.Reaches next :=
  hreached.tail ⟨party, harrival, hstore, hmove⟩

/-- Bookkeeping can always be done. -/
theorem alike (hreached : start.Reaches ⟨now, place, tasks⟩) (halike : place.Alike other) :
    start.Reaches ⟨now, other, tasks⟩ :=
  hreached.move (.keepBooks halike) Party.noConfusion Party.noConfusion

theorem kindred (hreached : start.Reaches crowd) :
    start.place.pipeline.Kindred crowd.place.pipeline := by
  induction hreached with
  | refl => exact .refl _
  | tail hreached hstirs ih =>
      obtain ⟨party, -, -, hmove⟩ := hstirs
      exact ih.trans hmove.kindred

end Reaches

/-! ## Looks at a job -/

variable {start : Crowd} {now position number : Nat} {tasks : List Task}
  {before place : Workplace} {worker : Worker} {submission : Submission}

/-- A job is in the course of a look: with the job put back the workplace can be reached, and but
for the bookkeeping the staff is as it was before. -/
structure Handles (start : Crowd) (now : Nat) (tasks : List Task) (before : Workplace)
    (position number : Nat) (place : Workplace) (submission : Submission) : Prop where
  reached : start.Reaches
    ⟨now, place.changeWorker position (·.putJob number (.new submission)), tasks⟩
  staff : place.staff = before.staff

/-- The worker whose job is looked at. -/
theorem Handles.staffed (hhandles : Handles start now tasks before position number place submission)
    (hworker : before.workers[position]? = some worker) :
    ∃ worker', place.workers[position]? = some worker' ∧ worker'.bare = worker.bare := by
  have hstaff : place.staff[position]? = before.staff[position]? := by rw [hhandles.staff]
  simpa [Workplace.staff, hworker] using hstaff

/-- A look at a job is made of moves. -/
theorem handles_keeps (hstart : start.place.pipeline.Kindred before.pipeline)
    (hworker : before.workers[position]? = some worker) :
    Look.Keeps before.submission now (Handles start now tasks before position number) where
  step := by
    intro place next submission later hhandles hstep
    obtain ⟨worker', hworker', -⟩ := hhandles.staffed hworker
    obtain ⟨⟨pipeline, later⟩, hinner, hafter⟩ := Option.map_eq_some_iff.mp hstep
    cases hafter
    let put := place.changeWorker position (·.putJob number (.new submission))
    have hput : put.workers[position]? = some (worker'.putJob number (.new submission)) :=
      Workplace.getElem?_changeWorker hworker' _
    have hmove : put.submission.step? now put submission =
        some (put.afterStep submission pipeline, later) := by
      show (submission.step? now place.pipeline).map _ = _
      rw [hinner]
      rfl
    have hreached := hhandles.reached.move
      (.stepJob hput (worker'.job?_putJob number _) hmove) Party.noConfusion Party.noConfusion
    refine ⟨hreached.alike ?_, (place.alike_afterStep submission pipeline).staff.trans
      hhandles.staff⟩
    -- Both have told the news, each to the workers as it has them.
    have hchange (worker : Worker) := worker.bare_putJob_bare number (.new later)
    have hleft := (put.alike_afterStep submission pipeline).symm.changeWorker position hchange
    have hright := (place.alike_afterStep submission pipeline).changeWorker position hchange
    refine hleft.trans (.trans ?_ hright)
    have hsame : ({ put with pipeline } : Workplace) =
        ({ place with pipeline } : Workplace).changeWorker position
          (·.putJob number (.new submission)) := rfl
    rw [hsame, Workplace.changeWorker_changeWorker]
    simp only [Worker.putJob_putJob]
    exact .refl _
  cut := by
    intro place submission later chosen hhandles hwait hcut
    obtain ⟨worker', hworker', -⟩ := hhandles.staffed hworker
    let put := place.changeWorker position (·.putJob number (.new submission))
    have hput : put.workers[position]? = some (worker'.putJob number (.new submission)) :=
      Workplace.getElem?_changeWorker hworker' _
    have hkindred : before.pipeline.Kindred put.pipeline := by
      have hreached := hhandles.reached.kindred
      exact ⟨hreached.settings.trans hstart.settings.symm,
        hreached.clock.trans hstart.clock.symm⟩
    have hsame := hkindred.submission
    have hmove : put.submission.cut? chosen submission = some later := by
      show (Submission.operation put.pipeline).cut? chosen submission = some later
      rw [hsame]
      exact hcut
    have hmust : put.submission.wait? submission ≠ none := by
      show (Submission.operation put.pipeline).wait? submission ≠ none
      rw [hsame]
      exact hwait
    have hreached := hhandles.reached.move
      (.cutJob hput (worker'.job?_putJob number _) hmust hmove) Party.noConfusion
      Party.noConfusion
    refine ⟨hreached.alike ?_, hhandles.staff⟩
    rw [Workplace.changeWorker_changeWorker]
    simp only [Worker.putJob_putJob]
    exact .refl _

namespace Handles

variable (hhandles : Handles start now tasks before position number place submission)

include hhandles

/-- The number of looks does not matter. -/
theorem looked (looks : Nat) :
    Handles start now tasks before position number { place with looks } submission :=
  ⟨hhandles.reached.alike ⟨rfl, rfl⟩, hhandles.staff⟩

/-- After the look the job is put back. -/
theorem put {watched : Watched Submission} (hstate : watched.state = submission) :
    start.Reaches ⟨now, place.changeWorker position (·.putJob number watched), tasks⟩ := by
  refine hhandles.reached.alike ⟨rfl, ?_⟩
  rw [Workplace.staff_modify _ _ fun worker => worker.bare_putJob_bare number watched,
    Workplace.staff_modify _ _ fun worker => worker.bare_putJob_bare number (.new submission)]
  simp only [Worker.bare_putJob, hstate]
  rfl

/-- A job that is done is taken away. -/
theorem finish (hworker : before.workers[position]? = some worker)
    {result : Except Failure Transaction}
    (hending : submission.ending? = some (.returned result)) :
    start.Reaches
      ⟨now, place.changeWorker position
        (·.finish (.ofBatch start.place.pipeline worker.format) number result), tasks⟩ := by
  obtain ⟨worker', hworker', hbare⟩ := hhandles.staffed hworker
  have hput := Workplace.getElem?_changeWorker hworker' (·.putJob number (.new submission))
  have hreached := hhandles.reached.move
    (.finishJob hput (worker'.job?_putJob number _) hending) Party.noConfusion Party.noConfusion
  have hformat : worker'.format = worker.format := congrArg (·.format) hbare
  have hsubmit : Submission.ofBatch place.pipeline =
      Submission.ofBatch start.place.pipeline := hhandles.reached.kindred.ofBatch
  rw [Workplace.changeWorker_changeWorker] at hreached
  simp only [Worker.finish_putJob] at hreached
  rw [← hformat, ← hsubmit]
  exact hreached

/-- When a job was aborted its worker is lost. -/
theorem lose (hworker : before.workers[position]? = some worker) {cause : Abort}
    (hending : submission.ending? = some (.aborted cause)) :
    start.Reaches ⟨now, place.loseWorker now position number, tasks⟩ := by
  obtain ⟨worker', hworker', -⟩ := hhandles.staffed hworker
  have hput := Workplace.getElem?_changeWorker hworker' (·.putJob number (.new submission))
  have hreached := hhandles.reached.move
    (.loseJob hput (worker'.job?_putJob number _) hending) Party.noConfusion Party.noConfusion
  exact hreached.alike (Workplace.loseWorker_putJob hworker' ..)

end Handles

/-! ## Turns -/

namespace Reaches

/-- A job is in the course of a look when the look begins, and when it is over. -/
theorem look {job : Job} (hreached : start.Reaches ⟨now, place, tasks⟩)
    (hworker : place.workers[position]? = some worker) (hjob : worker.job? number = some job)
    (looks allowance : Nat) :
    Handles start now tasks place position number
      (place.submission.look now looks allowance place job.watched).shared
      (place.submission.look now looks allowance place job.watched).watched.state := by
  have hfirst := hreached.move (.lookAtJob hworker hjob) Party.noConfusion Party.noConfusion
  exact (handles_keeps hreached.kindred hworker).look looks allowance ⟨hfirst, rfl⟩

/-- **What a worker does in its turn is made of moves.** -/
theorem work (fuel allowance round looked : Nat) (hreached : start.Reaches ⟨now, place, tasks⟩) :
    start.Reaches
      ⟨now, Workplace.work now position fuel allowance round looked place, tasks⟩ := by
  induction fuel generalizing allowance round looked place with
  | zero => exact hreached
  | succ fuel ih =>
      unfold Workplace.work
      split
      · exact hreached
      · rename_i worker hworker
        dsimp only
        split
        · rename_i hempty
          have hjobs := List.isEmpty_iff.mp hempty
          split
          · exact hreached.alike ⟨rfl, rfl⟩
          · split
            · rename_i hbegin
              exact hreached.move (.closeWorker hworker hjobs hbegin) Party.noConfusion
                Party.noConfusion
            · rename_i later hbegin
              exact ih _ _ _ (hreached.move (.beginWorker hworker hjobs hbegin)
                Party.noConfusion Party.noConfusion)
        · split
          · exact hreached
          · rename_i number ready hready
            have hsubmit := hreached.kindred.ofBatch
            have hnext : start.Reaches
                ⟨now, place.changeWorker position ({ · with ready }), tasks⟩ :=
              hreached.alike (place.alike_changeWorker position fun _ => rfl)
            have hworker' := Workplace.getElem?_changeWorker hworker ({ · with ready })
            -- The job that is looked at is no longer to be looked at.
            generalize place.changeWorker position ({ · with ready }) = next
              at hnext hworker' ⊢
            split
            · exact ih _ _ _ hnext
            · rename_i job hjob
              have hhandles := hnext.look hworker' hjob next.looks allowance
              generalize next.submission.look now next.looks allowance next job.watched = look
                at hhandles ⊢
              have hlooked := hhandles.looked (look.shared.looks + 1)
              split
              · rename_i result hending
                have hdone := hlooked.finish hworker' hending
                rw [← hsubmit] at hdone
                exact ih _ _ _ hdone
              · rename_i cause hending
                exact hlooked.lose hworker' hending
              · -- It waits, and is put back as it is now.
                have hput := hlooked.put rfl
                split
                · refine alike ?_ (Workplace.alike_callUp ..)
                  split
                  · exact hput.alike ⟨rfl, rfl⟩
                  · exact hput
                · refine ih _ _ _ ?_
                  split
                  · exact hput.alike ⟨rfl, rfl⟩
                  · exact hput

theorem turn (hreached : start.Reaches ⟨now, place, tasks⟩) (position : Nat) :
    start.Reaches ⟨now, place.turn now position, tasks⟩ := by
  unfold Workplace.turn
  split
  · exact hreached
  · have hcurrent : start.Reaches ⟨now, { place with current := some (position, false) }, tasks⟩ :=
      hreached.alike ⟨rfl, rfl⟩
    exact (hcurrent.work _ _ _ _).alike ⟨rfl, rfl⟩

theorem nextTurn (hreached : start.Reaches ⟨now, place, tasks⟩) :
    start.Reaches ⟨now, place.nextTurn now, tasks⟩ := by
  unfold Workplace.nextTurn
  split
  · exact hreached
  · rename_i position turns hturns
    have hnext : start.Reaches ⟨now, { place with turns }, tasks⟩ := hreached.alike ⟨rfl, rfl⟩
    exact hnext.turn position

end Reaches

end Crowd

end Clearing
