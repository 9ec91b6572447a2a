import Clearing.Validation

/-!
# Processing

A transaction is checked, marked as processed, and saved; then the summaries are
invalidated.  The check and the saving have a deadline each, and both together
have one as well.
-/

namespace Clearing

/-- Where the processing of a transaction stands. -/
inductive ProcessState where
  | checking (state : Timed CheckState)
  /-- The transaction, marked as processed, is being saved. -/
  | saving (marked : Transaction) (state : Timed (RequestState Unit Transaction))
  /-- The transaction was saved. -/
  | saved (transaction : Transaction)
  | done (ending : Ending Transaction)

/-- The name of the saving when its deadline elapses. -/
def savingStage : String := "persistence"

/-- The name of the processing when its deadline elapses. -/
def processingStage : String := "transaction processing"

/-- Saving a transaction under a deadline. -/
def timedSaving (limitMillis : Nat) (marked : Transaction) :
    Operation Resources (Timed (RequestState Unit Transaction)) Transaction :=
  ((Request.save marked).operation.within (·.store)
    fun resources store => { resources with store }).timed savingStage limitMillis

namespace ProcessState

/-- The beginning of the processing. -/
def start (now limitMillis : Nat) : ProcessState :=
  .checking (.start now limitMillis .starting)

/-- The processing after the check. -/
def afterCheck (now limitMillis : Nat) (clock : Nat → Timestamp) (transaction : Transaction) :
    Ending Unit → ProcessState
  | .returned (.ok ()) =>
    .saving (transaction.markProcessed (clock now)) (.start now limitMillis .arriving)
  | .returned (.error failure) => .done (.returned (.error failure))
  | .aborted cause => .done (.aborted cause)

/-- The processing after the saving. -/
def afterSaving : Ending Transaction → ProcessState
  | .returned (.ok transaction) => .saved transaction
  | ending => .done ending

end ProcessState

/-- The processing of a transaction as an operation. -/
def processing (clock : Nat → Timestamp) (limitMillis : Nat) (transaction : Transaction) :
    Operation Resources ProcessState Transaction where
  step? now resources
    | .checking state =>
      let check := timedValidation clock limitMillis (some transaction)
      match check.step? now resources state with
      | some (resources, state) => some (resources, .checking state)
      | none => (check.ending? state).map fun ending =>
        (resources, .afterCheck now limitMillis clock transaction ending)
    | .saving marked state =>
      let saving := timedSaving limitMillis marked
      match saving.step? now resources state with
      | some (resources, state) => some (resources, .saving marked state)
      | none => (saving.ending? state).map fun ending => (resources, .afterSaving ending)
    | .saved transaction =>
      some (resources.invalidateSummaries, .done (.returned (.ok transaction)))
    | .done _ => none
  ending?
    | .done ending => some ending
    | _ => none
  wait?
    | .checking state => (timedValidation clock limitMillis (some transaction)).wait? state
    | .saving marked state => (timedSaving limitMillis marked).wait? state
    | _ => none
  deadlines
    | .checking state => (timedValidation clock limitMillis (some transaction)).deadlines state
    | .saving marked state => (timedSaving limitMillis marked).deadlines state
    | _ => []
  cut? chosen
    | .checking state =>
      ((timedValidation clock limitMillis (some transaction)).cut? chosen state).map .checking
    | .saving marked state =>
      ((timedSaving limitMillis marked).cut? chosen state).map (.saving marked)
    | _ => none
  effort
    | .checking state => (timedValidation clock limitMillis (some transaction)).effort state + 6
    | .saving marked state => (timedSaving limitMillis marked).effort state + 2
    | .saved _ => 1
    | .done _ => 0

/-- The processing of a transaction under its deadline. -/
def timedProcessing (clock : Nat → Timestamp) (limitMillis : Nat) (transaction : Transaction) :
    Operation Resources (Timed ProcessState) Transaction :=
  (processing clock limitMillis transaction).timed processingStage limitMillis

/-- The beginning of the processing under its deadline. -/
def startProcessing (now limitMillis : Nat) : Timed ProcessState :=
  .start now limitMillis (.start now limitMillis)

end Clearing
