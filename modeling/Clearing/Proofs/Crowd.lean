import Clearing.Proofs.Crowd.Task
import Clearing.Proofs.Processing.Course

/-!
# Crowds

A crowd is a workplace and the tasks at it, at some time.  It moves when one of
its parties does: a task or a job makes one step or is cut short, a worker takes
up a sub-batch or is done, the clock goes on, the store changes behind
everyone's back, a command arrives.  All that the schedule decides is who moves
when; here that is left open, so that a run of a crowd may be any interleaving
of the atomic actions.

Nothing in a move depends on the bookkeeping of the workplace, which changes in
moves of its own.
-/

namespace Clearing

/-- A new pipeline has empty caches and was told nothing. -/
theorem Pipeline.eq_of_new? {settings : Settings} {ledger : Ledger} {clock : Nat → Timestamp}
    {pipeline : Pipeline} (hnew : Pipeline.new? settings ledger clock = some pipeline) :
    ∃ guards, pipeline =
      { settings
        clock
        guards
        resources := .new ledger settings.cacheMillis
        statistics := .empty } := by
  unfold Pipeline.new? at hnew
  simp only [Option.bind_eq_bind, Option.bind_eq_some_iff, Option.pure_def,
    Option.some.injEq] at hnew
  obtain ⟨shared, -, text, -, binary, -, rfl⟩ := hnew
  exact ⟨_, rfl⟩

/-- A workplace and the tasks at it, at some time. -/
structure Crowd where
  now : Nat
  place : Workplace
  tasks : List Task

/-- Who moves. -/
inductive Party where
  | clock
  | store
  | arrival
  | bookkeeping
  | task (position : Nat)
  | worker (position : Nat)
  | job (worker number : Nat)
  deriving DecidableEq

namespace Crowd

/-- The store and the caches. -/
def resources (crowd : Crowd) : Resources :=
  crowd.place.pipeline.resources

/-- The ledger. -/
def ledger (crowd : Crowd) : Ledger :=
  crowd.resources.store.ledger

/-- The cache of summaries. -/
def summaries (crowd : Crowd) : SummaryCache :=
  crowd.resources.summaries

/-- The submission that a party is about: that of a task or of a job. -/
def submission? (crowd : Crowd) : Party → Option Submission
  | .task position => crowd.tasks[position]?.bind Task.submission?
  | .job worker number => crowd.place.submission? worker number
  | _ => none

theorem submission?_job (crowd : Crowd) (worker number : Nat) :
    crowd.submission? (.job worker number) = crowd.place.submission? worker number := rfl

/-- One move of a party. -/
inductive Move : Party → Crowd → Crowd → Prop
  /-- Time passes. -/
  | pass {crowd : Crowd} {later : Nat} (hlater : crowd.now ≤ later) :
      Move .clock crowd { crowd with now := later }
  /-- The store changes: what requests meet, or what it holds. -/
  | change {crowd : Crowd} (store : Store) :
      Move .store crowd
        { crowd with place := crowd.place.mapResources fun resources => { resources with store } }
  /-- A command arrives. -/
  | arrive {crowd : Crowd} (command : Command) :
      Move .arrival crowd { crowd with tasks := crowd.tasks ++ [.new command] }
  /-- The bookkeeping changes. -/
  | keepBooks {crowd : Crowd} {place : Workplace} (halike : crowd.place.Alike place) :
      Move .bookkeeping crowd { crowd with place }
  /-- A task makes a step. -/
  | stepTask {crowd : Crowd} {position : Nat} {task later : Task} {place : Workplace}
      (htask : crowd.tasks[position]? = some task)
      (hstep : task.step? crowd.now crowd.place = some (place, later)) :
      Move (.task position) crowd
        { crowd with place, tasks := crowd.tasks.set position later }
  /-- A task that waits is cut short by one of its deadlines. -/
  | cutTask {crowd : Crowd} {position : Nat} {task later : Task} {chosen : Deadline → Bool}
      (htask : crowd.tasks[position]? = some task)
      (hwait : (Task.operation crowd.place.pipeline).wait? task ≠ none)
      (hcut : (Task.operation crowd.place.pipeline).cut? chosen task = some later) :
      Move (.task position) crowd { crowd with tasks := crowd.tasks.set position later }
  /-- A worker without jobs takes up its next sub-batch. -/
  | beginWorker {crowd : Crowd} {position : Nat} {worker later : Worker}
      (hworker : crowd.place.workers[position]? = some worker) (hjobs : worker.jobs = [])
      (hbegin : worker.begin? (.ofBatch crowd.place.pipeline worker.format) = some later) :
      Move (.worker position) crowd
        { crowd with place := crowd.place.changeWorker position fun _ => later }
  /-- A worker without jobs is done. -/
  | closeWorker {crowd : Crowd} {position : Nat} {worker : Worker}
      (hworker : crowd.place.workers[position]? = some worker) (hjobs : worker.jobs = [])
      (hbegin : worker.begin? (.ofBatch crowd.place.pipeline worker.format) = none) :
      Move (.worker position) crowd { crowd with place := crowd.place.closeWorker position }
  /-- A job makes a step. -/
  | stepJob {crowd : Crowd} {position number : Nat} {worker : Worker} {job : Job}
      {place : Workplace} {later : Submission}
      (hworker : crowd.place.workers[position]? = some worker)
      (hjob : worker.job? number = some job)
      (hstep : crowd.place.submission.step? crowd.now crowd.place job.watched.state =
        some (place, later)) :
      Move (.job position number) crowd
        { crowd with place := place.changeWorker position (·.putJob number (.new later)) }
  /-- A job that waits is cut short by one of its deadlines. -/
  | cutJob {crowd : Crowd} {position number : Nat} {worker : Worker} {job : Job}
      {chosen : Deadline → Bool} {later : Submission}
      (hworker : crowd.place.workers[position]? = some worker)
      (hjob : worker.job? number = some job)
      (hwait : crowd.place.submission.wait? job.watched.state ≠ none)
      (hcut : crowd.place.submission.cut? chosen job.watched.state = some later) :
      Move (.job position number) crowd
        { crowd with place := crowd.place.changeWorker position (·.putJob number (.new later)) }
  /-- A job is looked at and nothing happens; it is the last in line then. -/
  | lookAtJob {crowd : Crowd} {position number : Nat} {worker : Worker} {job : Job}
      (hworker : crowd.place.workers[position]? = some worker)
      (hjob : worker.job? number = some job) :
      Move .bookkeeping crowd
        { crowd with
          place := crowd.place.changeWorker position
            (·.putJob number (.new job.watched.state)) }
  /-- A job is done, and its worker starts others in its place. -/
  | finishJob {crowd : Crowd} {position number : Nat} {worker : Worker} {job : Job}
      {result : Except Failure Transaction}
      (hworker : crowd.place.workers[position]? = some worker)
      (hjob : worker.job? number = some job)
      (hending : job.watched.state.ending? = some (.returned result)) :
      Move (.worker position) crowd
        { crowd with
          place := crowd.place.changeWorker position
            (·.finish (.ofBatch crowd.place.pipeline worker.format) number result) }
  /-- A job was aborted, and its worker loses everything. -/
  | loseJob {crowd : Crowd} {position number : Nat} {worker : Worker} {job : Job} {cause : Abort}
      (hworker : crowd.place.workers[position]? = some worker)
      (hjob : worker.job? number = some job)
      (hending : job.watched.state.ending? = some (.aborted cause)) :
      Move (.worker position) crowd
        { crowd with place := crowd.place.loseWorker crowd.now position number }

/-- A run: crowds, and who moves from each to the next.  Nothing has to happen in a move: the clock
may stand still. -/
structure Run where
  moment : Nat → Crowd
  party : Nat → Party
  move : ∀ index, Move (party index) (moment index) (moment (index + 1))

/-- A run of a new pipeline, which nothing was told yet. -/
def Run.Begins (run : Run) : Prop :=
  ∃ settings ledger clock pipeline now, Pipeline.new? settings ledger clock = some pipeline ∧
    run.moment 0 = { now, place := .new pipeline, tasks := [] }

end Crowd

end Clearing
