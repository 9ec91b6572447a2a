import Clearing.SummaryQuery
import Clearing.Transaction.Record
import Clearing.Workplace

/-!
# Sessions

A session hands commands to a pipeline, one after the other or several at the
same time, and lets virtual time pass.  A command is a task of the foreground;
the workers of batches are the background.
-/

namespace Clearing

/-- What a pipeline can be told to do. -/
inductive Command where
  /-- Process a transaction that comes alone. -/
  | process (transaction : Transaction)
  /-- Process a batch. -/
  | batch (transactions : List Transaction) (format : WireFormat)
  /-- Read records and process what they hold as a batch; a record may have no content. -/
  | consume (records : List (Option Bytes)) (format : WireFormat)
  /-- Check a transaction, which may be missing. -/
  | validate (transaction : Option Transaction)
  | customerSummary
  | productSummary
  /-- Count the transactions of customers at a location. -/
  | count (location : String)
  | invalidateSummaries
  /-- From now on the store meets requests of a kind like this. -/
  | replan (kind : RequestKind) (delayMillis failures aborts : Nat)
  /-- Save a transaction behind the back of the store. -/
  | saveDirectly (transaction : Transaction)
  | putCustomer (customer : Customer)
  | putProduct (product : Product)
  /-- Show how things stand. -/
  | observe
  /-- Let time pass. -/
  | rest (millis : Nat)

/-- What a pipeline answers. -/
inductive Reply where
  | processed (ending : Ending Transaction)
  | batch (transactions : List Transaction)
  | checked (ending : Ending Unit)
  | customerSummary (ending : Ending (List CustomerTotal))
  | productSummary (ending : Ending (List ProductTotal))
  | counted (ending : Ending Nat)
  | saved (transaction : Transaction)
  | observed (pipeline : Pipeline)
  | aborted (cause : Abort)
  | done

/-- Where the execution of a command stands. -/
inductive TaskState where
  | starting
  | processing (submission : Submission)
  | validating (state : Timed CheckState)
  | customerSummary (state : SummaryState CustomerTotal)
  | productSummary (state : SummaryState ProductTotal)
  | counting (state : RequestState Unit Nat)
  /-- Waiting for workers: the position of the first, how many there are, and how many of them were
  found to have finished. -/
  | waiting (first count found : Nat)
  | resting (wakes : Nat)
  | done (reply : Reply)

/-- A command and where its execution stands. -/
structure Task where
  command : Command
  state : TaskState

namespace Task

/-- A command that nothing was done about. -/
def new (command : Command) : Task :=
  { command, state := .starting }

/-! ## Steps -/

/-- The records that cannot be read are counted; the transactions of the others. -/
def readRecords (pipeline : Pipeline) (format : WireFormat) (records : List (Option Bytes)) :
    Pipeline × List Transaction :=
  records.foldl
    (fun (pipeline, transactions) record =>
      match record with
      | none => (pipeline.record format (some .validation), transactions)
      | some bytes =>
        match Transaction.ofRecord bytes format with
        | .ok transaction => (pipeline, transactions ++ [transaction])
        | .error failure => (pipeline.record format (some failure.kind), transactions))
    (pipeline, [])

/-- Workers for a batch. -/
def hire (place : Workplace) (format : WireFormat) (transactions : List Transaction) :
    Workplace × TaskState :=
  match place.hire? format transactions with
  | some ((first, count), place) => (place, .waiting first count 0)
  | none => (place, .done (.aborted .tooManyWorkers))

/-- The first step of a command. -/
def begin (now : Nat) (place : Workplace) : Command → Workplace × TaskState
  | .process transaction => (place, .processing (.single place.pipeline transaction))
  | .batch transactions format => hire place format transactions
  | .consume records format =>
    let (pipeline, transactions) := readRecords place.pipeline format records
    hire { place with pipeline } format transactions
  | .validate _ =>
    (place, .validating (.start now place.pipeline.settings.deadlineMillis .starting))
  | .customerSummary => (place, .customerSummary .looking)
  | .productSummary => (place, .productSummary .looking)
  | .count _ => (place, .counting .arriving)
  | .invalidateSummaries => (place.mapResources (·.invalidateSummaries), .done .done)
  | .replan kind delayMillis failures aborts =>
    let change (resources : Resources) : Resources :=
      let condition := resources.store.conditions.of kind
      { resources with
        store := resources.store.withCondition kind
          (condition.replan delayMillis failures aborts) }
    (place.mapResources change, .done .done)
  | .saveDirectly transaction =>
    let (saved, ledger) := place.pipeline.resources.store.ledger.save transaction
    (place.mapResources (·.mapLedger fun _ => ledger), .done (.saved saved))
  | .putCustomer customer =>
    (place.mapResources (·.mapLedger (·.putCustomer customer)), .done .done)
  | .putProduct product =>
    (place.mapResources (·.mapLedger (·.putProduct product)), .done .done)
  | .observe => (place, .done (.observed place.pipeline))
  | .rest millis => (place, .resting (now + restMillis millis))

/-- One step of an operation on the resources, or its reply at the end. -/
def stepOn {ω α : Type} (operation : Operation Resources ω α) (keep : ω → TaskState)
    (reply : Ending α → Reply) (now : Nat) (place : Workplace) (state : ω) :
    Option (Workplace × TaskState) :=
  match operation.step? now place.pipeline.resources state with
  | some (resources, state) => some (place.mapResources fun _ => resources, keep state)
  | none => (operation.ending? state).map fun ending => (place, .done (reply ending))

/-- The check that a command asks for. -/
def validation (pipeline : Pipeline) (command : Command) :
    Operation Resources (Timed CheckState) Unit :=
  timedValidation pipeline.clock pipeline.settings.deadlineMillis
    (match command with
    | .validate transaction => transaction
    | _ => none)

/-- The count that a command asks for. -/
def counting (command : Command) : Operation Resources (RequestState Unit Nat) Nat :=
  (Request.countAt (match command with
    | .count location => location
    | _ => "")).operation.within (·.store) fun resources store => { resources with store }

/-- All workers for a batch have finished; whoever asked for it does not always see what was
saved. -/
def conclude (place : Workplace) (command : Command) (transactions : List Transaction) :
    Workplace × TaskState :=
  (if transactions.isEmpty then place else place.mapResources (·.invalidateSummaries),
    .done (match command with
      | .batch .. => .batch transactions
      | _ => .done))

/-- One step of a task, unless it goes on waiting or is done. -/
def step? (now : Nat) (place : Workplace) (task : Task) : Option (Workplace × Task) :=
  (match task.state with
    | .starting => some (begin now place task.command)
    | .processing submission =>
      match place.submission.step? now place submission with
      | some (place, submission) => some (place, .processing submission)
      | none => submission.ending?.map fun ending => (place, .done (.processed ending))
    | .validating state =>
      stepOn (validation place.pipeline task.command) .validating .checked now place state
    | .customerSummary state =>
      stepOn SummaryKind.customers.query .customerSummary .customerSummary now place state
    | .productSummary state =>
      stepOn SummaryKind.products.query .productSummary .productSummary now place state
    | .counting state => stepOn (counting task.command) .counting .counted now place state
    | .waiting first count found =>
      if found = count then some (conclude place task.command (place.collected first count))
      else if place.isOver (first + found) then some (place, .waiting first count (found + 1))
      else none
    | .resting wakes => if wakes ≤ now then some (place, .done .done) else none
    | .done _ => none).map fun (place, state) => (place, { task with state })

/-- The reply, once the task is done. -/
def reply? (task : Task) : Option Reply :=
  match task.state with
  | .done reply => some reply
  | _ => none

/-- More steps than this are not needed for a command, those of workers included. -/
def commandEffort (pipeline : Pipeline) (command : Command) : Nat :=
  let each (format : WireFormat) : Nat :=
    (Submission.ofBatch pipeline format (.new 0 "" 0 format)).effort pipeline + 4
  let batch (size : Nat) (format : WireFormat) : Nat :=
    size * each format + 4 * pipeline.settings.batch.workers + 8
  match command with
  | .batch transactions format => batch transactions.length format
  | .consume records format => batch records.length format
  | .process _ => each .text + 4
  | _ => 16

/-- More steps than this are not left. -/
def effort (pipeline : Pipeline) (task : Task) : Nat :=
  match task.state with
  | .starting => commandEffort pipeline task.command
  | .processing submission => submission.effort pipeline + 1
  | .waiting _ count found => count - found + 1
  | .done _ => 0
  | _ => 15

/-- The execution of commands as an operation on a workplace with a pipeline like the given one. -/
def operation (pipeline : Pipeline) : Operation Workplace Task Reply where
  step? := step?
  ending? task := task.reply?.map fun reply => .returned (.ok reply)
  wait? task :=
    match task.state with
    | .processing submission => (Submission.operation pipeline).wait? submission
    | .validating state => (validation pipeline task.command).wait? state
    | .customerSummary state => SummaryKind.customers.query.wait? state
    | .productSummary state => SummaryKind.products.query.wait? state
    | .counting state => (counting task.command).wait? state
    | .waiting first count found => if found = count then none else some (.worker (first + found))
    | .resting wakes => some (.time wakes)
    | _ => none
  deadlines task :=
    match task.state with
    | .processing submission => (Submission.operation pipeline).deadlines submission
    | .validating state => (validation pipeline task.command).deadlines state
    | _ => []
  cut? chosen task :=
    (match task.state with
      | .processing submission =>
        ((Submission.operation pipeline).cut? chosen submission).map TaskState.processing
      | .validating state => ((validation pipeline task.command).cut? chosen state).map
          TaskState.validating
      | _ => none).map fun state => { task with state }
  effort := effort pipeline

/-- Tasks at a workplace with a pipeline like the given one. -/
def schedule (pipeline : Pipeline) : Schedule Workplace Task Reply where
  task := operation pipeline
  takeNews := Workplace.takeNews
  isIdle _ place := place.turns.isEmpty
  turn := Workplace.nextTurn
  resume? := Workplace.resume?
  nextAlarm? := Workplace.nextAlarm?
  ring := Workplace.ring

end Task

/-- A pipeline at some time. -/
structure Session where
  now : Nat
  /-- What the commands so far left of the allowance for the foreground. -/
  allowance : Nat
  pipeline : Pipeline

namespace Session

/-- A session with a new pipeline. -/
def new? (settings : Settings) (ledger : Ledger) (clock : Nat → Timestamp) : Option Session :=
  (Pipeline.new? settings ledger clock).map fun pipeline =>
    { now := 0, allowance := Schedule.allowance, pipeline }

/-- Executes commands that are given at the same time: the replies and when they came. -/
def perform (session : Session) (commands : List Command) :
    List (Option Reply × Nat) × Session :=
  let pipeline := session.pipeline
  let steps := sumOf (commands.map (Task.commandEffort pipeline))
  let scene := (Task.schedule pipeline).run steps session.now session.allowance (.new pipeline)
    (commands.map Task.new)
  (scene.times.map fun (task, time) => (task.reply?, time),
    { now := scene.now, allowance := scene.allowance, pipeline := scene.world.pipeline })

/-- Executes a command. -/
def tell (session : Session) (command : Command) : Option Reply × Session :=
  let (replies, session) := session.perform [command]
  ((replies.head?.map (·.1)).join, session)

end Session

end Clearing
