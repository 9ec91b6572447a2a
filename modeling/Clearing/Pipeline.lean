import Clearing.Guard.Call
import Clearing.Processing
import Clearing.Statistics

/-!
# The pipeline

A pipeline processes transactions under guards.  All transactions pass the
shared guard; those of a batch pass the guard of the batch's format before it.
What became of a transaction is counted, under its own format if it came alone
and under the format of its batch otherwise.
-/

namespace Clearing

/-- A pipeline. -/
structure Pipeline where
  settings : Settings
  /-- The time of day at each moment. -/
  clock : Nat → Timestamp
  /-- The shared guard and then those of the formats. -/
  guards : List Guard
  resources : Resources
  statistics : Statistics

namespace Pipeline

/-- The position of the shared guard. -/
def sharedGuard : Nat := 0

/-- The position of the guard of a format. -/
def formatGuard : WireFormat → Nat
  | .text => 1
  | .binary => 2

/-- The name of the shared guard. -/
def sharedGuardName : String := "global"

/-- A pipeline that nothing was handed to, unless its bulkheads would have too many slots. -/
def new? (settings : Settings) (ledger : Ledger) (clock : Nat → Timestamp) :
    Option Pipeline := do
  let shared ←
    Guard.new? sharedGuardName settings.breakers.shared settings.bulkheads.shared
  let text ←
    Guard.new? WireFormat.text.name settings.breakers.perFormat settings.bulkheads.perFormat
  let binary ←
    Guard.new? WireFormat.binary.name settings.breakers.perFormat settings.bulkheads.perFormat
  pure
    { settings
      clock
      guards := [shared, text, binary]
      resources := .new ledger settings.cacheMillis
      statistics := .empty }

/-- The policy for attempts. -/
def retry (pipeline : Pipeline) : RetryPolicy :=
  .ofSettings pipeline.settings.retry

/-- How a transaction that comes alone is guarded. -/
def protection (pipeline : Pipeline) : Protection :=
  { path := [sharedGuard], retry := pipeline.retry }

/-- How a transaction of a batch is guarded. -/
def batchProtection (pipeline : Pipeline) (format : WireFormat) : Protection :=
  { path := [formatGuard format, sharedGuard], retry := pipeline.retry }

/-- Something is counted. -/
def record (pipeline : Pipeline) (format : WireFormat) (failure : Option FailureKind) : Pipeline :=
  { pipeline with statistics := pipeline.statistics.record format failure }

end Pipeline

/-- A transaction that was handed to a pipeline. -/
structure Submission where
  transaction : Transaction
  protection : Protection
  /-- The format that it is counted under. -/
  format : WireFormat
  call : GuardedCall (Timed ProcessState) Transaction
  /-- It was counted. -/
  counted : Bool

namespace Submission

/-- A transaction that comes alone. -/
def single (pipeline : Pipeline) (transaction : Transaction) : Submission :=
  { transaction
    protection := pipeline.protection
    format := transaction.format
    call := .new pipeline.protection
    counted := false }

/-- A transaction of a batch. -/
def ofBatch (pipeline : Pipeline) (format : WireFormat) (transaction : Transaction) : Submission :=
  { transaction
    protection := pipeline.batchProtection format
    format
    call := .new (pipeline.batchProtection format)
    counted := false }

/-- What is done with the transaction under the guards. -/
def work (pipeline : Pipeline) (submission : Submission) :
    Operation Resources (Timed ProcessState) Transaction :=
  timedProcessing pipeline.clock pipeline.settings.deadlineMillis submission.transaction

/-- The failure that is counted; none for a success. -/
def failureKind? (result : Except Failure Transaction) : Option FailureKind :=
  match result with
  | .ok _ => none
  | .error failure => some failure.kind

/-- One step: one of the guarded call, or the counting of its result.  A call that was aborted is
not counted. -/
def step? (now : Nat) (pipeline : Pipeline) (submission : Submission) :
    Option (Pipeline × Submission) :=
  let limit := pipeline.settings.deadlineMillis
  match submission.call.step? submission.protection (submission.work pipeline)
      (fun now _ => startProcessing now limit) now pipeline.guards pipeline.resources with
  | some (guards, resources, call) =>
    some ({ pipeline with guards, resources }, { submission with call })
  | none =>
    match submission.call.ending? with
    | some (.returned result) =>
      if submission.counted then none
      else
        some (pipeline.record submission.format (failureKind? result),
          { submission with counted := true })
    | _ => none

/-- The ending, once it is reached and counted. -/
def ending? (submission : Submission) : Option (Ending Transaction) :=
  match submission.call.ending? with
  | some (.returned result) => if submission.counted then some (.returned result) else none
  | ending => ending

/-- The pipeline after the submission was dropped where it stands. -/
def abandon (now : Nat) (pipeline : Pipeline) (submission : Submission) : Pipeline :=
  { pipeline with guards := submission.call.abandon pipeline.guards now }

/-- More steps than this are not left. -/
def effort (pipeline : Pipeline) (submission : Submission) : Nat :=
  let work := submission.work pipeline
  submission.call.effort submission.protection work (work.effort (startProcessing 0 0)) +
    if submission.counted then 0 else 1

/-- The handling of submissions as an operation on a pipeline like the given one. -/
def operation (pipeline : Pipeline) : Operation Pipeline Submission Transaction where
  step? := step?
  ending? := ending?
  wait? submission := submission.call.wait? (submission.work pipeline)
  deadlines submission := submission.call.deadlines (submission.work pipeline)
  cut? chosen submission :=
    (submission.call.cut? (submission.work pipeline) chosen).map fun call =>
      { submission with call }
  effort := effort pipeline

end Submission

end Clearing
