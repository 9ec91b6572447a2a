import Clearing.Proofs.Crowd

/-!
# Workers in a crowd

What can become of the staff in one move is listed once, in `Crowd.StaffBecame`:
a task may have hired workers, or one worker or one of its jobs has moved
(`Crowd.WorkerMoved`).  Everything else about workers and jobs goes by that.  It
speaks of workers apart from the bookkeeping.
-/

namespace Clearing

/-! ## Jobs of a worker -/

namespace Worker

variable {worker : Worker} {number other : Nat} {submission : Submission}
  {submit : Transaction → Submission}

/-- Among the jobs other than one there are all others and not that one. -/
theorem find?_others (jobs : List Job) (number other : Nat) :
    (jobs.filter fun job => job.number ≠ number).find? (fun job => job.number = other) =
      if other = number then none else jobs.find? fun job => job.number = other := by
  rw [List.find?_filter]
  split
  · rename_i hsame
    rw [List.find?_eq_none]
    intro job _
    simp [hsame]
  · rename_i hother
    congr 1
    funext job
    by_cases hjob : job.number = other
    · simp [hjob, hother]
    · simp [hjob]

theorem submission?_putJob (worker : Worker) (number other : Nat)
    (watched : Watched Submission) :
    (worker.putJob number watched).submission? other =
      if other = number then some watched.state else worker.submission? other := by
  simp only [submission?, job?, putJob, List.find?_append, find?_others, List.find?_singleton]
  split
  · rename_i hsame
    simp [hsame]
  · rename_i hother
    have hne : ¬ number = other := fun hsame => hother hsame.symm
    simp [hne]

/-- A job after others were started is one that was there or a new one. -/
theorem submission?_fill (hjob : (worker.fill submit).submission? number = some submission) :
    worker.submission? number = some submission ∨
      ∃ transaction ∈ worker.pending, submission = submit transaction := by
  obtain ⟨job, hfound, rfl⟩ := Option.map_eq_some_iff.mp hjob
  simp only [job?, fill, List.find?_append, Option.or_eq_some_iff] at hfound
  rcases hfound with hold | ⟨-, hnew⟩
  · exact .inl (Option.map_eq_some_iff.mpr ⟨job, hold, rfl⟩)
  · right
    obtain ⟨⟨transaction, _⟩, hstarted, rfl⟩ := List.mem_map.mp (List.mem_of_find?_eq_some hnew)
    refine ⟨transaction, ?_, rfl⟩
    exact List.mem_of_mem_take (List.fst_mem_of_mem_zipIdx hstarted)

theorem submission?_begin? {later : Worker} (hbegin : worker.begin? submit = some later)
    (hjob : later.submission? number = some submission) :
    ∃ transaction, submission = submit transaction := by
  unfold begin? at hbegin
  split at hbegin
  · rename_i hjobs _ _
    cases hbegin
    rcases submission?_fill hjob with hold | ⟨transaction, -, hnew⟩
    · simp [submission?, job?, hjobs] at hold
    · exact ⟨transaction, hnew⟩
  · cases hbegin

theorem submission?_finish {result : Except Failure Transaction}
    (hjob : (worker.finish submit number result).submission? other = some submission) :
    worker.submission? other = some submission ∨
      ∃ transaction, submission = submit transaction := by
  rcases submission?_fill hjob with hold | ⟨transaction, -, hnew⟩
  · left
    simp only [submission?, job?, find?_others] at hold
    split at hold
    · cases hold
    · exact hold
  · exact .inr ⟨transaction, hnew⟩

theorem bare_putJob (worker : Worker) (number : Nat) (watched : Watched Submission) :
    (worker.putJob number watched).bare = worker.bare.putJob number (.new watched.state) := by
  simp only [putJob, bare, List.map_append, List.filter_map, List.map_cons, List.map_nil]
  rfl

theorem bare_fill (worker : Worker) (submit : Transaction → Submission) :
    (worker.fill submit).bare = (worker.bare.fill submit).bare := by
  simp only [fill, bare, List.map_append, List.map_map, List.length_map]
  rfl

theorem bare_finish (worker : Worker) (submit : Transaction → Submission) (number : Nat)
    (result : Except Failure Transaction) :
    (worker.finish submit number result).bare =
      (worker.bare.finish submit number result).bare := by
  unfold finish
  rw [bare_fill]
  conv_rhs => rw [bare_fill]
  simp only [bare, List.filter_map, List.map_map]
  rfl

theorem bare_begin? (worker : Worker) (submit : Transaction → Submission) :
    (worker.begin? submit).map bare = (worker.bare.begin? submit).map bare := by
  obtain ⟨format, limit, queue, pending, jobs, nextNumber, processed, fate, ready⟩ := worker
  cases jobs with
  | cons job jobs => rfl
  | nil =>
      cases pending with
      | cons transaction pending => rfl
      | nil =>
          cases queue with
          | nil => rfl
          | cons subBatch queue => exact congrArg some (bare_fill ..)

theorem processed_begin? {later : Worker} (hbegin : worker.begin? submit = some later) :
    later.processed = worker.processed := by
  unfold begin? at hbegin
  split at hbegin <;> cases hbegin
  rfl

end Worker

/-! ## Losing a worker -/

namespace Workplace

theorem mem_collected {place : Workplace} {first count : Nat} {saved : Transaction}
    (hsaved : saved ∈ place.collected first count) :
    ∃ (position : Nat) (worker : Worker), place.staff[position]? = some worker ∧
      saved ∈ worker.processed := by
  obtain ⟨worker, hworker, hmem⟩ := List.mem_flatMap.mp hsaved
  rw [Array.toList_extract, List.extract_eq_take_drop] at hworker
  have hstaff := List.mem_of_mem_drop (List.mem_of_mem_take hworker)
  obtain ⟨position, hposition⟩ := List.mem_iff_getElem?.mp hstaff
  refine ⟨position, worker.bare, ?_, hmem⟩
  rw [getElem?_staff, ← Array.getElem?_toList, hposition, Option.map_some]

/-- To drop submissions touches nothing but guards and the bookkeeping. -/
theorem drop_spec (now : Nat) (jobs : List Job) (place : Workplace) :
    let dropped := jobs.foldl
      (fun (place : Workplace) job =>
        place.afterStep job.watched.state (job.watched.state.abandon now place.pipeline)) place
    dropped.staff = place.staff ∧
      dropped.pipeline = { place.pipeline with guards := dropped.pipeline.guards } := by
  induction jobs generalizing place with
  | nil => exact ⟨rfl, rfl⟩
  | cons job jobs ih =>
      obtain ⟨hstaff, hpipeline⟩ := ih
        (place.afterStep job.watched.state (job.watched.state.abandon now place.pipeline))
      have halike := place.alike_afterStep job.watched.state
        (job.watched.state.abandon now place.pipeline)
      refine ⟨hstaff.trans halike.staff, hpipeline.trans ?_⟩
      rw [halike.pipeline]
      rfl

/-- To lose a worker touches nothing else but guards and the bookkeeping. -/
theorem loseWorker_spec {place : Workplace} {position : Nat} {worker : Worker}
    (hworker : place.workers[position]? = some worker) (now number : Nat) :
    (place.loseWorker now position number).staff = place.staff.set position worker.lose ∧
      (place.loseWorker now position number).pipeline =
        { place.pipeline with
          guards := (place.loseWorker now position number).pipeline.guards } := by
  have hspec := drop_spec now (worker.jobs.filter fun job => job.number ≠ number).reverse
    (place.changeWorker position Worker.lose)
  rw [staff_changeWorker hworker] at hspec
  unfold loseWorker
  rw [hworker]
  exact hspec

end Workplace

/-! ## What becomes of the staff -/

namespace Crowd

/-- What a worker or one of its jobs can have done in a move, with what is left of the worker
after it. -/
inductive WorkerMoved (crowd next : Crowd) (mover : Party) (position : Nat)
    (worker later : Worker) : Prop
  | begun {begun : Worker} (hmover : mover = .worker position) (hjobs : worker.jobs = [])
      (hbegin : worker.begin? (.ofBatch crowd.place.pipeline worker.format) = some begun)
      (hlater : later = begun.bare) (hpipeline : next.place.pipeline = crowd.place.pipeline)
  | closed (hmover : mover = .worker position) (hjobs : worker.jobs = [])
      (hbegin : worker.begin? (.ofBatch crowd.place.pipeline worker.format) = none)
      (hlater : later = worker.close) (hpipeline : next.place.pipeline = crowd.place.pipeline)
  | stepped {number : Nat} {submission submission' : Submission}
      (hmover : mover = .job position number)
      (hjob : worker.submission? number = some submission)
      (hstep : submission.step? crowd.now crowd.place.pipeline =
        some (next.place.pipeline, submission'))
      (hlater : later = worker.putJob number (.new submission'))
  | cut {number : Nat} {submission submission' : Submission} {chosen : Deadline → Bool}
      (hmover : mover = .job position number)
      (hjob : worker.submission? number = some submission)
      (hwait : (Submission.operation crowd.place.pipeline).wait? submission ≠ none)
      (hcut : (Submission.operation crowd.place.pipeline).cut? chosen submission =
        some submission')
      (hlater : later = worker.putJob number (.new submission'))
      (hpipeline : next.place.pipeline = crowd.place.pipeline)
  | looked {number : Nat} {submission : Submission}
      (hmover : mover = .bookkeeping)
      (hjob : worker.submission? number = some submission)
      (hlater : later = worker.putJob number (.new submission))
      (hpipeline : next.place.pipeline = crowd.place.pipeline)
  | finished {number : Nat} {submission : Submission} {result : Except Failure Transaction}
      (hmover : mover = .worker position)
      (hjob : worker.submission? number = some submission)
      (hending : submission.ending? = some (.returned result))
      (hlater : later =
        (worker.finish (.ofBatch crowd.place.pipeline worker.format) number result).bare)
      (hpipeline : next.place.pipeline = crowd.place.pipeline)
  | lost {number : Nat} {submission : Submission} {cause : Abort}
      (hmover : mover = .worker position)
      (hjob : worker.submission? number = some submission)
      (hending : submission.ending? = some (.aborted cause)) (hlater : later = worker.lose)

/-- What can have become of the staff in a move: a task has made a step and may have hired workers,
or one worker has moved, or it is as before. -/
inductive StaffBecame (crowd next : Crowd) (mover : Party) : Prop
  | task {position : Nat} (hmover : mover = .task position)
      (hhires : Task.Hires crowd.place next.place)
  | moved {position : Nat} {worker later : Worker}
      (hworker : crowd.place.staff[position]? = some worker)
      (hmoved : WorkerMoved crowd next mover position worker later)
      (hstaff : next.place.staff = crowd.place.staff.set position later)
  | same (hstaff : next.place.staff = crowd.place.staff)
      (hstatistics : next.place.pipeline.statistics = crowd.place.pipeline.statistics)

variable {crowd next : Crowd} {mover : Party} {position : Nat} {later : Worker}

private theorem staff_of_worker {place : Workplace} {worker : Worker}
    (hworker : place.workers[position]? = some worker) :
    place.staff[position]? = some worker.bare := by
  rw [Workplace.getElem?_staff, hworker, Option.map_some]

private theorem submission?_of_job? {worker : Worker} {number : Nat} {job : Job}
    (hjob : worker.job? number = some job) :
    worker.bare.submission? number = some job.watched.state := by
  rw [Worker.submission?_bare, Worker.submission?, hjob, Option.map_some]

theorem submission?_of_job (crowd : Crowd) {position number : Nat} {worker : Worker} {job : Job}
    (hworker : crowd.place.workers[position]? = some worker)
    (hjob : worker.job? number = some job) :
    crowd.submission? (.job position number) = some job.watched.state := by
  rw [submission?_job, Workplace.submission?_of_worker hworker, Worker.submission?, hjob]
  rfl

theorem Move.staffBecame (hmove : Move mover crowd next) : StaffBecame crowd next mover := by
  cases hmove with
  | keepBooks halike =>
      refine .same halike.staff ?_
      dsimp only
      rw [halike.pipeline]
  | stepTask htask hstep => exact .task rfl (Task.act_of_step? hstep).2.hires
  | @beginWorker _ position worker worker' hworker hjobs hbegin =>
      -- Whether there is something to take up does not depend on the bookkeeping.
      have hbare := worker.bare_begin? (.ofBatch crowd.place.pipeline worker.format)
      rw [hbegin, Option.map_some] at hbare
      obtain ⟨begun, hbegun, hsame⟩ := Option.map_eq_some_iff.mp hbare.symm
      refine .moved (staff_of_worker hworker) (.begun rfl ?_ hbegun hsame.symm rfl)
        (Workplace.staff_changeWorker hworker _)
      simp [Worker.bare, hjobs]
  | @closeWorker _ position worker hworker hjobs hbegin =>
      have hbare := worker.bare_begin? (.ofBatch crowd.place.pipeline worker.format)
      rw [hbegin, Option.map_none] at hbare
      refine .moved (staff_of_worker hworker)
        (.closed rfl ?_ (Option.map_eq_none_iff.mp hbare.symm) rfl rfl) ?_
      · simp [Worker.bare, hjobs]
      · exact Workplace.staff_changeWorker hworker Worker.close
  | @stepJob _ position number worker job place stepped hworker hjob hstep =>
      obtain ⟨⟨pipeline, stepped⟩, hinner, hafter⟩ := Option.map_eq_some_iff.mp hstep
      cases hafter
      -- The news that the step makes change nothing but what the workers are to look at.
      have halike := crowd.place.alike_afterStep job.watched.state pipeline
      obtain ⟨worker', hworker', hbare⟩ := halike.worker hworker
      have hstepped : job.watched.state.step? crowd.now crowd.place.pipeline =
          some ((crowd.place.afterStep job.watched.state pipeline).pipeline, stepped) := by
        rw [halike.pipeline]
        exact hinner
      refine .moved (staff_of_worker hworker)
        (.stepped rfl (submission?_of_job? hjob) hstepped rfl) ?_
      dsimp only
      rw [Workplace.staff_changeWorker hworker', Worker.bare_putJob, hbare, halike.staff]
      rfl
  | @cutJob _ position number worker job chosen stepped hworker hjob hwait hcut =>
      refine .moved (staff_of_worker hworker)
        (.cut rfl (submission?_of_job? hjob) hwait hcut rfl rfl) ?_
      dsimp only
      rw [Workplace.staff_changeWorker hworker, Worker.bare_putJob]
      rfl
  | @lookAtJob _ position number worker job hworker hjob =>
      refine .moved (staff_of_worker hworker) (.looked rfl (submission?_of_job? hjob) rfl rfl) ?_
      dsimp only
      rw [Workplace.staff_changeWorker hworker, Worker.bare_putJob]
      rfl
  | @finishJob _ position number worker job result hworker hjob hending =>
      refine .moved (staff_of_worker hworker)
        (.finished rfl (submission?_of_job? hjob) hending rfl rfl) ?_
      dsimp only
      rw [Workplace.staff_changeWorker hworker, Worker.bare_finish]
      rfl
  | loseJob hworker hjob hending =>
      exact .moved (staff_of_worker hworker)
        (.lost rfl (submission?_of_job? hjob) hending rfl)
        (Workplace.loseWorker_spec hworker ..).1
  | _ => exact .same rfl rfl

/-- What can have become of a worker in a move: it was hired, it is as before, or it or one of its
jobs has moved. -/
inductive WorkerBecame (crowd next : Crowd) (mover : Party) (position : Nat) (later : Worker) :
    Prop
  | hired {format : WireFormat} {limit : Nat} {queue : List (List Transaction)}
      (hlater : later = .new format limit queue)
  | same (hsame : crowd.place.staff[position]? = some later)
  | moved {worker : Worker} (hworker : crowd.place.staff[position]? = some worker)
      (hmoved : WorkerMoved crowd next mover position worker later)

theorem Move.workerBecame (hmove : Move mover crowd next)
    (hlater : next.place.staff[position]? = some later) :
    WorkerBecame crowd next mover position later := by
  cases hmove.staffBecame with
  | task hmover hhires =>
      obtain ⟨format, limit, queues, hstaff⟩ := hhires
      rw [hstaff, List.getElem?_append] at hlater
      split at hlater
      · exact .same hlater
      · obtain ⟨queue, -, hnew⟩ := List.mem_map.mp (List.mem_of_getElem? hlater)
        exact .hired hnew.symm
  | @moved mover' worker worker' hworker hmoved hstaff =>
      -- Either it is the worker that has moved, or one that is as before.
      rw [hstaff, List.getElem?_set] at hlater
      split at hlater
      · rename_i hposition
        subst hposition
        obtain ⟨-, hsame⟩ := Option.ite_none_right_eq_some.mp hlater
        cases hsame
        exact .moved hworker hmoved
      · exact .same hlater
  | same hstaff hstatistics =>
      rw [hstaff] at hlater
      exact .same hlater

end Crowd

end Clearing
