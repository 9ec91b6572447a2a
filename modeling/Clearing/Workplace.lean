import Clearing.Batch
import Clearing.Schedule

/-!
# Where workers work

The workers of all batches share a pipeline.  One worker at a time has a turn.
In its turn it looks at the jobs that are ready, and the turn ends when none is
ready or when all that were in flight have been looked at since the last one was
done.  A turn has one allowance for all jobs, and to take up a sub-batch, or to
find that there is none, counts like the end of a wait.

A job becomes ready when it is started, when a slot is assigned to its ticket,
at its alarms, and after it was put off.  Alarms of the same time ring in the
order in which they were set.
-/

namespace Clearing

/-- Who can be put off: a worker that would take up a sub-batch, or a job of a worker. -/
inductive Attendant where
  | worker (position : Nat)
  | job (worker number : Nat)
  deriving DecidableEq, Repr

/-- A pipeline and its workers. -/
structure Workplace where
  pipeline : Pipeline
  workers : Array Worker
  /-- The positions of the workers that are to have a turn, in order. -/
  turns : List Nat
  /-- The worker whose turn it is, and whether it is to have another one. -/
  current : Option (Nat × Bool)
  /-- Who was put off, the last one first. -/
  putOff : List Attendant
  /-- The news for those who are no workers, in order. -/
  news : List News
  /-- The number of looks so far. -/
  looks : Nat

namespace Workplace

/-- A pipeline without workers. -/
def new (pipeline : Pipeline) : Workplace :=
  { pipeline, workers := #[], turns := [], current := none, putOff := [], news := [], looks := 0 }

/-- The workplace after a change of the resources. -/
def mapResources (place : Workplace) (change : Resources → Resources) : Workplace :=
  { place with
    pipeline := { place.pipeline with resources := change place.pipeline.resources } }

/-- The workplace after a change of one worker. -/
def changeWorker (place : Workplace) (position : Nat) (change : Worker → Worker) : Workplace :=
  { place with workers := place.workers.modify position change }

/-- The worker at a position is not working any more, if it ever was. -/
def isOver (place : Workplace) (position : Nat) : Bool :=
  place.workers[position]?.all fun worker => worker.fate ≠ .working

/-- A worker is to have a turn, after the one it has. -/
def callUp (place : Workplace) (position : Nat) : Workplace :=
  match place.current with
  | some (current, again) =>
    if current = position then { place with current := some (current, true) }
    else if position ∈ place.turns then place
    else { place with current := some (current, again), turns := place.turns ++ [position] }
  | none =>
    if position ∈ place.turns then place else { place with turns := place.turns ++ [position] }

/-- A job of a worker is to be looked at; jobs that are done are not. -/
def notify (place : Workplace) (position number : Nat) : Workplace :=
  if place.workers[position]?.any fun worker => (worker.job? number).isSome then
    (place.changeWorker position (·.markReady number)).callUp position
  else place

/-! ## News -/

/-- The worker and the number of the job that waits for some news. -/
def addressee? (place : Workplace) (news : News) : Option (Nat × Nat) :=
  place.workers.toList.zipIdx.findSome? fun (worker, position) =>
    (worker.jobs.find? fun job =>
      ((Submission.operation place.pipeline).wait? job.watched.state).any news.ends).map
        fun job => (position, job.number)

/-- Some news come in: they are for a job or for the foreground. -/
def tell (place : Workplace) (news : List News) : Workplace :=
  news.foldl
    (fun place item =>
      match place.addressee? item with
      | some (position, number) => place.notify position number
      | none => { place with news := place.news ++ [item] })
    place

/-- A worker has finished, which matters to the foreground alone. -/
def announceEnd (place : Workplace) (position : Nat) : Workplace :=
  { place with news := place.news ++ [.finished position] }

/-- The news for the foreground since they were asked for. -/
def takeNews (place : Workplace) : List News × Workplace :=
  (place.news, { place with news := [] })

/-- The workplace after something was done about a submission that changed the pipeline. -/
def afterStep (place : Workplace) (submission : Submission) (pipeline : Pipeline) : Workplace :=
  ({ place with pipeline } : Workplace).tell
    (Guard.news submission.protection.path place.pipeline.guards pipeline.guards)

/-- The handling of submissions as an operation on a workplace like this. -/
def submission (place : Workplace) : Operation Workplace Submission Transaction :=
  { Submission.operation place.pipeline with
    step? := fun now place submission =>
      (submission.step? now place.pipeline).map fun (pipeline, next) =>
        (place.afterStep submission pipeline, next) }

/-! ## Turns -/

/-- The number of waits that may end in the turn of a worker. -/
def allowance : Nat := 128

/-- A worker is done with all it had to do. -/
def closeWorker (place : Workplace) (position : Nat) : Workplace :=
  (place.changeWorker position Worker.close).announceEnd position

/-- A transaction of a worker was aborted: its other transactions are dropped, the one that was
looked at last first, and everything it had is gone. -/
def loseWorker (now : Nat) (place : Workplace) (position number : Nat) : Workplace :=
  match place.workers[position]? with
  | none => place
  | some worker =>
    let others := (worker.jobs.filter fun job => job.number ≠ number).reverse
    let lost := place.changeWorker position Worker.lose
    let dropped := others.foldl
      (fun (place : Workplace) job =>
        place.afterStep job.watched.state (job.watched.state.abandon now place.pipeline))
      lost
    dropped.announceEnd position

/-- A worker looks at the jobs that are ready; `round` of them were in flight when the last one was
done or the turn began, and `looked` of them were looked at since. -/
def work (now position : Nat) : Nat → Nat → Nat → Nat → Workplace → Workplace
  | 0, _, _, _, place => place
  | fuel + 1, allowance, round, looked, place =>
    match place.workers[position]? with
    | none => place
    | some worker =>
      let submit := Submission.ofBatch place.pipeline worker.format
      if worker.jobs.isEmpty then
        if allowance = 0 then { place with putOff := .worker position :: place.putOff }
        else
          match worker.begin? submit with
          | none => place.closeWorker position
          | some worker =>
            work now position fuel (allowance - 1) worker.jobs.length 0
              (place.changeWorker position fun _ => worker)
      else
        match worker.ready with
        | [] => place
        | number :: ready =>
          let place := place.changeWorker position ({ · with ready })
          match worker.job? number with
          | none => work now position fuel allowance round looked place
          | some job =>
            let look := place.submission.look now place.looks allowance place job.watched
            let place := { look.shared with looks := look.shared.looks + 1 }
            match look.watched.state.ending? with
            | some (.returned result) =>
              let place := place.changeWorker position (·.finish submit number result)
              let inFlight := (place.workers[position]?.map fun worker => worker.jobs.length).getD 0
              work now position fuel look.allowance inFlight 0 place
            | some (.aborted _) => place.loseWorker now position number
            | none =>
              let place := place.changeWorker position (·.putJob number look.watched)
              let place :=
                if look.putOff then { place with putOff := .job position number :: place.putOff }
                else place
              if looked + 1 = round then place.callUp position
              else work now position fuel look.allowance round (looked + 1) place

/-- The turn of a worker. -/
def turn (now : Nat) (place : Workplace) (position : Nat) : Workplace :=
  match place.workers[position]? with
  | none => place
  | some worker =>
    let left := worker.remaining + 2
    let place :=
      work now position (left * left + worker.queue.length) allowance worker.jobs.length 0
        { place with current := some (position, false) }
    let again := place.current = some (position, true) && !place.isOver position
    { place with
      current := none
      turns := if again then place.turns ++ [position] else place.turns }

/-- The next turn, if a worker is to have one. -/
def nextTurn (now : Nat) (place : Workplace) : Workplace :=
  match place.turns with
  | [] => place
  | position :: turns => turn now { place with turns } position

/-- Those who were put off are to be looked at again, the last one first. -/
def resume? (place : Workplace) : Option Workplace :=
  if place.putOff.isEmpty then none
  else
    some (place.putOff.foldl
      (fun place attendant =>
        match attendant with
        | .worker position => place.callUp position
        | .job position number => place.notify position number)
      { place with putOff := [] })

/-! ## Alarms -/

/-- All alarms: the time, the number, the worker and the job. -/
def alarms (place : Workplace) : List (Nat × Nat × Nat × Nat) :=
  place.workers.toList.zipIdx.flatMap fun (worker, position) =>
    worker.jobs.flatMap fun job =>
      job.watched.alarms.map fun (alarm, number) => (alarm.due, number, position, job.number)

/-- The time of the first alarm. -/
def nextAlarm? (place : Workplace) : Option Nat :=
  (place.alarms.map (·.1)).min?

/-- The alarms up to a time ring. -/
def ring (now : Nat) (place : Workplace) : Workplace :=
  let due := place.alarms.filter fun alarm => alarm.1 ≤ now
  let inOrder := due.mergeSort fun a b => a.1 < b.1 || (a.1 = b.1 && a.2.1 ≤ b.2.1)
  inOrder.foldl (fun place (_, _, position, number) => place.notify position number) place

/-! ## Batches -/

/-- Workers for a batch, who will have their turns in order: the position of the first one, and how
many there are.  There are none if they would be too many. -/
def hire? (place : Workplace) (format : WireFormat) (transactions : List Transaction) :
    Option ((Nat × Nat) × Workplace) :=
  (Worker.ofBatch? place.pipeline.settings.batch format transactions).map fun hired =>
    ((place.workers.size, hired.length),
      { place with
        workers := place.workers ++ hired.toArray
        turns := place.turns ++ List.range' place.workers.size hired.length })

/-- What some workers have saved. -/
def collected (place : Workplace) (first count : Nat) : List Transaction :=
  (place.workers.extract first (first + count)).toList.flatMap (·.processed)

end Workplace

end Clearing
