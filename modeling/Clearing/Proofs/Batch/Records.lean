import Mathlib.Data.List.Induction
import Clearing.Proofs.Statistics
import Clearing.Session

/-!
# Reading records

The records of a batch are read one by one.  One that holds a transaction adds it
to the batch, and one that does not is counted, under the format of the batch:
as a validation failure if it has no content, and as a codec failure if that
cannot be read (`Task.readRecords_eq`).
-/

namespace Clearing

/-! ## Failures to read -/

namespace Transaction

theorem kind_of_withPayload {transaction : Transaction} {payload : Payload} {failure : Failure}
    (hfailure : transaction.withPayload payload = .error failure) : failure.kind = .codec := by
  unfold withPayload at hfailure
  cases hencode : EncodedPayload.encode transaction.format payload with
  | ok encoded =>
      rw [hencode] at hfailure
      cases hfailure
  | error cause =>
      rw [hencode] at hfailure
      cases hfailure
      unfold EncodedPayload.encode at hencode
      split at hencode
      · cases hencode
      · split at hencode <;> cases hencode
        rfl

/-- A record that cannot be read is a codec failure, whatever is wrong with it. -/
theorem kind_of_ofRecord {bytes : Bytes} {format : WireFormat} {failure : Failure}
    (hfailure : ofRecord bytes format = .error failure) : failure.kind = .codec := by
  unfold ofRecord at hfailure
  cases hdecode : Payload.decode format bytes with
  | error cause =>
      rw [hdecode] at hfailure
      cases hfailure
      unfold Payload.decode Payload.decodeWith Payload.codecFailure at hdecode
      split at hdecode <;> cases hdecode
      rfl
  | ok document =>
      rw [hdecode] at hfailure
      replace hfailure : ofDocument document format bytes.length = .error failure := hfailure
      unfold ofDocument at hfailure
      dsimp only at hfailure
      split at hfailure
      · cases hfailure
        rfl
      · cases hfailure
      · exact kind_of_withPayload hfailure

end Transaction

/-! ## Batches -/

/-- What a command hands in as a batch: how much it received, the transactions, and what the rest
is counted as. -/
structure Batch where
  format : WireFormat
  received : Nat
  transactions : List Transaction
  dropped : List FailureKind

namespace Task

/-- The transaction that a record holds, or what it is counted as. -/
def readRecord (format : WireFormat) : Option Bytes → Except FailureKind Transaction
  | none => .error .validation
  | some bytes => (Transaction.ofRecord bytes format).mapError fun _ => .codec

/-- The transactions that some records hold. -/
def readable (format : WireFormat) (records : List (Option Bytes)) : List Transaction :=
  records.filterMap fun record =>
    match readRecord format record with
    | .ok transaction => some transaction
    | .error _ => none

/-- The failures that the other records are counted as. -/
def unreadable (format : WireFormat) (records : List (Option Bytes)) : List FailureKind :=
  records.filterMap fun record =>
    match readRecord format record with
    | .ok _ => none
    | .error kind => some kind

/-- Each record holds a transaction or is counted as a failure. -/
theorem length_readable_add_unreadable (format : WireFormat) (records : List (Option Bytes)) :
    (readable format records).length + (unreadable format records).length = records.length := by
  induction records with
  | nil => rfl
  | cons record records ih =>
      simp only [readable, unreadable, List.filterMap_cons] at ih ⊢
      cases readRecord format record with
      | ok transaction =>
          simp only [List.length_cons]
          omega
      | error kind =>
          simp only [List.length_cons]
          omega

/-- The statistics with one more failure of each kind in a list, the last one first. -/
def withFailures (statistics : Statistics) (format : WireFormat) (kinds : List FailureKind) :
    Statistics :=
  ⟨(kinds.map fun kind => (format, some kind)).reverse ++ statistics.outcomes⟩

theorem grows_withFailures (statistics : Statistics) (format : WireFormat)
    (kinds : List FailureKind) :
    Statistics.Grows format (kinds.map some) statistics
      (withFailures statistics format kinds) := by
  refine (List.reverse_perm _).append_right _ |>.trans (.of_eq ?_)
  rw [List.map_map]
  rfl

/-- To read records adds the failures to the statistics and leaves the rest of the pipeline
alone. -/
theorem readRecords_eq (pipeline : Pipeline) (format : WireFormat)
    (records : List (Option Bytes)) :
    readRecords pipeline format records =
      ({ pipeline with
          statistics := withFailures pipeline.statistics format (unreadable format records) },
        readable format records) := by
  induction records using List.reverseRecOn with
  | nil => rfl
  | append_singleton records record ih =>
      unfold readRecords at ih ⊢
      rw [List.foldl_append, ih]
      cases record with
      | none => simp [readable, unreadable, readRecord, withFailures, Pipeline.record,
          Statistics.record]
      | some bytes =>
          rcases hread : Transaction.ofRecord bytes format with failure | transaction
          · simp [readable, unreadable, readRecord, withFailures, hread, Pipeline.record,
              Statistics.record, Except.mapError, Transaction.kind_of_ofRecord hread]
          · simp [readable, unreadable, readRecord, withFailures, hread, Except.mapError]

/-- The records that hold no transaction are counted before workers for the others are hired. -/
theorem begin_consume (now : Nat) (place : Workplace) (records : List (Option Bytes))
    (format : WireFormat) :
    Task.begin now place (.consume records format) =
      hire { place with
          pipeline := { place.pipeline with
            statistics := withFailures place.pipeline.statistics format
              (unreadable format records) } }
        format (readable format records) := by
  simp only [Task.begin, readRecords_eq]

end Task

namespace Command

/-- The batch that a command hands in. -/
def batch? : Command → Option Batch
  | .batch transactions format =>
    some { format, received := transactions.length, transactions, dropped := [] }
  | .consume records format =>
    some
      { format
        received := records.length
        transactions := Task.readable format records
        dropped := Task.unreadable format records }
  | _ => none

/-- What a command that hands in a batch replies; only some see what was saved. -/
def answer (processed : List Transaction) : Command → Reply
  | .batch .. => .batch processed
  | _ => .done

variable {command : Command} {batch : Batch} (hbatch : command.batch? = some batch)

include hbatch

/-- All that was received is a transaction or was dropped. -/
theorem received_of_batch? :
    batch.transactions.length + batch.dropped.length = batch.received := by
  cases command with
  | batch transactions format =>
      cases hbatch
      rfl
  | consume records format =>
      cases hbatch
      exact Task.length_readable_add_unreadable format records
  | _ => cases hbatch

/-- What was dropped is counted before workers for the rest are hired. -/
theorem begin_of_batch? (now : Nat) (place : Workplace) :
    Task.begin now place command =
      Task.hire { place with
          pipeline := { place.pipeline with
            statistics := Task.withFailures place.pipeline.statistics batch.format
              batch.dropped } }
        batch.format batch.transactions := by
  cases command with
  | batch transactions format =>
      cases hbatch
      rfl
  | consume records format =>
      cases hbatch
      exact Task.begin_consume now place records format
  | _ => cases hbatch

end Command

end Clearing
