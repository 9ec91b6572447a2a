import Clearing.Operation.Look
import Clearing.Pipeline

/-!
# Batches

A batch is cut into sub-batches, consecutive pieces of a fixed size, and these
are dealt to workers in turn.  A worker has a limited number of transactions of
one sub-batch in flight: it starts another one whenever one is done, and the
next sub-batch when all of the present one are done.

Who looks at which transaction when is not decided here.
-/

namespace Clearing

/-- The consecutive pieces of a list; all but the last have the size, which is at least one. -/
def subBatches {α : Type} (size : Nat) : List α → List (List α)
  | [] => []
  | first :: rest =>
    (first :: rest.take (size - 1)) :: subBatches size (rest.drop (size - 1))
termination_by items => items.length

/-- What is dealt to the worker at a position: every sub-batch whose number leaves that
remainder. -/
def share {α : Type} (workers position : Nat) (pieces : List α) : List α :=
  (pieces.zipIdx.filter fun piece => piece.2 % workers = position).map (·.1)

/-- The pieces dealt to a number of workers; those for whom there is nothing come last. -/
def deal {α : Type} (workers : Nat) (pieces : List α) : List (List α) :=
  let busy := min workers pieces.length
  (List.range busy).map (share workers · pieces) ++ List.replicate (workers - busy) []

/-- A transaction in flight. -/
structure Job where
  /-- Jobs of a worker are numbered in the order in which they were started. -/
  number : Nat
  watched : Watched Submission

/-- What became of a worker. -/
inductive WorkerFate where
  | working
  | finished
  /-- A transaction was aborted, and everything the worker had is gone. -/
  | lost
  deriving DecidableEq, Repr

/-- A worker. -/
structure Worker where
  format : WireFormat
  /-- The number of transactions that may be in flight. -/
  limit : Nat
  /-- The sub-batches that were not started. -/
  queue : List (List Transaction)
  /-- The transactions of the present sub-batch that were not started. -/
  pending : List Transaction
  /-- The transactions in flight: the last one is the one that was started or looked at last. -/
  jobs : List Job
  nextNumber : Nat
  /-- The transactions that were saved. -/
  processed : List Transaction
  fate : WorkerFate
  /-- The numbers of the jobs that are to be looked at, in order. -/
  ready : List Nat

namespace Worker

/-- A worker that was handed sub-batches. -/
def new (format : WireFormat) (limit : Nat) (queue : List (List Transaction)) : Worker :=
  { format
    limit := max limit 1
    queue
    pending := []
    jobs := []
    nextNumber := 0
    processed := []
    fate := .working
    ready := [] }

/-- Starts pending transactions as long as the limit allows. -/
def fill (submit : Transaction → Submission) (worker : Worker) : Worker :=
  let room := worker.limit - worker.jobs.length
  let started := (worker.pending.take room).zipIdx worker.nextNumber
  { worker with
    pending := worker.pending.drop room
    jobs := worker.jobs ++ started.map fun (transaction, number) =>
      { number, watched := .new (submit transaction) }
    nextNumber := worker.nextNumber + started.length
    ready := worker.ready ++ started.map (·.2) }

/-- Starts the next sub-batch, if all transactions of the present one are done. -/
def begin? (submit : Transaction → Submission) (worker : Worker) : Option Worker :=
  match worker.jobs, worker.pending, worker.queue with
  | [], [], subBatch :: queue => some (fill submit { worker with queue, pending := subBatch })
  | _, _, _ => none

/-- A transaction in flight is done; another one is started in its place. -/
def finish (submit : Transaction → Submission) (worker : Worker) (number : Nat)
    (result : Except Failure Transaction) : Worker :=
  fill submit
    { worker with
      jobs := worker.jobs.filter fun job => job.number ≠ number
      processed := worker.processed ++ result.toOption.toList }

/-- All sub-batches are done. -/
def close (worker : Worker) : Worker :=
  { worker with fate := .finished }

/-- The worker without anything it had. -/
def lose (worker : Worker) : Worker :=
  { worker with
    queue := []
    pending := []
    jobs := []
    processed := []
    fate := .lost
    ready := [] }

/-- The job with a number. -/
def job? (worker : Worker) (number : Nat) : Option Job :=
  worker.jobs.find? fun job => job.number = number

/-- The worker after a look at the job with a number. -/
def putJob (worker : Worker) (number : Nat) (watched : Watched Submission) : Worker :=
  { worker with
    jobs := (worker.jobs.filter fun job => job.number ≠ number) ++ [{ number, watched }] }

/-- A job is to be looked at. -/
def markReady (worker : Worker) (number : Nat) : Worker :=
  if number ∈ worker.ready then worker
  else { worker with ready := worker.ready ++ [number] }

/-- The number of transactions that are not done. -/
def remaining (worker : Worker) : Nat :=
  sumOf (worker.queue.map List.length) + worker.pending.length + worker.jobs.length

end Worker

/-- The largest number of workers that there can be. -/
def maxWorkers : Nat := 1152921504606846975

/-- The workers of a batch; there is always one, even if there is nothing to do. -/
def Worker.ofBatch? (settings : BatchSettings) (format : WireFormat)
    (transactions : List Transaction) : Option (List Worker) :=
  let workers := max settings.workers 1
  if workers ≤ maxWorkers then
    some ((deal workers (subBatches settings.subBatchSize transactions)).map
      (.new format settings.inFlightPerWorker))
  else none

end Clearing
