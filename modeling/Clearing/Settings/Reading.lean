import Clearing.Settings.Check
import Clearing.Settings.Node

/-!
# Settings from a tree

Every field that is given is read and every other keeps its default.  Which
default that is depends on the table: profiles that are not given at all have
defaults of their own.
-/

namespace Clearing

open ConfigNode

/-- Batch settings from a tree. -/
def BatchSettings.ofNode? (dialect : ConfigDialect) (node : ConfigNode) :
    Option BatchSettings := do
  match ← node.fields? dialect ["sub_batch_size", "workers", "in_flight_per_worker"] with
  | [size, workers, inFlight] =>
    pure
      { subBatchSize := ← orDefault? count? initial.subBatchSize size
        workers := ← orDefault? count? initial.workers workers
        inFlightPerWorker := ← orDefault? count? initial.inFlightPerWorker inFlight }
  | _ => none

/-- Retry settings from a tree. -/
def RetrySettings.ofNode? (dialect : ConfigDialect) (node : ConfigNode) :
    Option RetrySettings := do
  match ← node.fields? dialect ["max_attempts", "initial_backoff_ms", "multiplier", "max_backoff_ms"] with
  | [attempts, initialBackoff, multiplier, maxBackoff] =>
    pure
      { maxAttempts := ← orDefault? smallCount? initial.maxAttempts attempts
        initialBackoffMillis := ← orDefault? count? initial.initialBackoffMillis initialBackoff
        multiplier := ← orDefault? number? initial.multiplier multiplier
        maxBackoffMillis := ← orDefault? count? initial.maxBackoffMillis maxBackoff }
  | _ => none

/-- Breaker settings from a tree. -/
def BreakerSettings.ofNode? (dialect : ConfigDialect) (node : ConfigNode) :
    Option BreakerSettings := do
  match ← node.fields? dialect ["sliding_window_size", "minimum_number_of_calls",
      "failure_rate_threshold", "wait_in_open_ms", "permitted_calls_in_half_open"] with
  | [window, minimum, threshold, wait, permitted] =>
    pure
      { windowSize := ← orDefault? count? initial.windowSize window
        minimumCalls := ← orDefault? count? initial.minimumCalls minimum
        failureThreshold := ← orDefault? number? initial.failureThreshold threshold
        openMillis := ← orDefault? count? initial.openMillis wait
        halfOpenCalls := ← orDefault? count? initial.halfOpenCalls permitted }
  | _ => none

/-- Bulkhead settings from a tree. -/
def BulkheadSettings.ofNode? (dialect : ConfigDialect) (node : ConfigNode) :
    Option BulkheadSettings := do
  match ← node.fields? dialect ["max_concurrent_calls", "max_wait_ms"] with
  | [concurrent, wait] =>
    pure
      { maxConcurrent := ← orDefault? count? initial.maxConcurrent concurrent
        maxWaitMillis := ← orDefault? count? initial.maxWaitMillis wait }
  | _ => none

/-- Two profiles from a tree; a profile that is not given at all keeps its default. -/
def Profiles.ofNode? {α : Type} (dialect : ConfigDialect)
    (read : ConfigDialect → ConfigNode → Option α) (default : Profiles α) (node : ConfigNode) :
    Option (Profiles α) := do
  match ← node.fields? dialect ["global", "per_format"] with
  | [shared, perFormat] =>
    pure
      { shared := ← orDefault? (read dialect) default.shared shared
        perFormat := ← orDefault? (read dialect) default.perFormat perFormat }
  | _ => none

/-- The lifetime of cached values from a tree. -/
def cacheMillisOfNode? (dialect : ConfigDialect) (node : ConfigNode) : Option Nat := do
  match ← node.fields? dialect ["ttl_ms"] with
  | [ttl] => orDefault? count? Settings.initial.cacheMillis ttl
  | _ => none

namespace Settings

/-- The names of all fields in order. -/
def fieldNames : List String :=
  ["processing_timeout_ms", "log_format", "batch", "retry", "circuit_breaker", "bulkhead", "cache"]

/-- Settings from a tree, not checked yet. -/
def ofNode? (dialect : ConfigDialect) (node : ConfigNode) : Option Settings := do
  match ← node.fields? dialect fieldNames with
  | [deadline, logFormat, batch, retry, breakers, bulkheads, cache] =>
    pure
      { deadlineMillis := ← orDefault? count? initial.deadlineMillis deadline
        logFormat := ← orDefault? (logFormat? dialect) initial.logFormat logFormat
        batch := ← orDefault? (BatchSettings.ofNode? dialect) initial.batch batch
        retry := ← orDefault? (RetrySettings.ofNode? dialect) initial.retry retry
        breakers := ←
          orDefault? (Profiles.ofNode? dialect BreakerSettings.ofNode? .initialBreakers) initial.breakers
            breakers
        bulkheads := ←
          orDefault? (Profiles.ofNode? dialect BulkheadSettings.ofNode? .initialBulkheads)
            initial.bulkheads bulkheads
        cacheMillis := ← orDefault? (cacheMillisOfNode? dialect) initial.cacheMillis cache }
  | _ => none

/-- Checked settings from a tree. -/
def ofNode (dialect : ConfigDialect) (node : ConfigNode) : Except SettingsError Settings :=
  match ofNode? dialect node with
  | some settings => settings.checked
  | none => .error .unreadable

end Settings

end Clearing
