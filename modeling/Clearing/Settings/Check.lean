import Clearing.Number.Shortest
import Clearing.Settings

/-!
# Checking settings

Settings are checked in a fixed order and the first violation is reported with
the field it concerns.  Counts must be positive, the multiplier of the backoff
must be a finite number of at least one, and the threshold of a breaker must be
a percentage above zero.
-/

namespace Clearing

/-- What is wrong with a setting. -/
inductive SettingFault where
  | notPositive
  | badMultiplier (value : Binary64)
  | badThreshold (value : Binary64)
  deriving DecidableEq, Repr

/-- The wording of a fault. -/
def SettingFault.text : SettingFault → String
  | .notPositive => "must be greater than 0"
  | .badMultiplier value =>
    "must be a finite number of at least 1.0, got " ++ Layout.plain.text value
  | .badThreshold value =>
    "failure_rate_threshold must be in (0, 100], got " ++ Layout.plain.text value

/-- Why settings cannot be used. -/
inductive SettingsError where
  /-- The text or tree cannot be read as settings. -/
  | unreadable
  /-- A field has a value it must not have. -/
  | invalid (field : String) (fault : SettingFault)
  deriving DecidableEq, Repr

/-- The wording of an error. -/
def SettingsError.message : SettingsError → String
  | .unreadable => "failed to parse config TOML"
  | .invalid field fault => "invalid config value for " ++ field ++ ": " ++ fault.text

namespace Settings

/-- A field with a fault, if the condition for it is violated. -/
def require (condition : Bool) (field : String) (fault : SettingFault) : Except SettingsError Unit :=
  if condition then .ok () else .error (.invalid field fault)

/-- A count that must be positive. -/
def requirePositive (field : String) (value : Nat) : Except SettingsError Unit :=
  require (0 < value) field .notPositive

/-- A multiplier that a backoff can use. -/
def isMultiplier (value : Binary64) : Bool :=
  value.isFinite && (Binary64.ofNat 1).le value

/-- A rate above zero and up to a hundred percent. -/
def isThreshold (value : Binary64) : Bool :=
  (Binary64.ofNat 0).lt value && value.le (Binary64.ofNat 100)

/-- Checks the settings of one breaker; all its faults are reported for the whole breaker. -/
def checkBreaker (field : String) (breaker : BreakerSettings) : Except SettingsError Unit := do
  requirePositive field breaker.windowSize
  requirePositive field breaker.minimumCalls
  requirePositive field breaker.halfOpenCalls
  require (isThreshold breaker.failureThreshold) field (.badThreshold breaker.failureThreshold)

/-- Checks all settings. -/
def check (settings : Settings) : Except SettingsError Unit := do
  requirePositive "processing_timeout_ms" settings.deadlineMillis
  requirePositive "batch.sub_batch_size" settings.batch.subBatchSize
  requirePositive "batch.workers" settings.batch.workers
  requirePositive "batch.in_flight_per_worker" settings.batch.inFlightPerWorker
  requirePositive "retry.max_attempts" settings.retry.maxAttempts
  require (isMultiplier settings.retry.multiplier) "retry.multiplier"
    (.badMultiplier settings.retry.multiplier)
  checkBreaker "circuit_breaker.global" settings.breakers.shared
  checkBreaker "circuit_breaker.per_format" settings.breakers.perFormat
  requirePositive "bulkhead.global.max_concurrent_calls" settings.bulkheads.shared.maxConcurrent
  requirePositive "bulkhead.per_format.max_concurrent_calls"
    settings.bulkheads.perFormat.maxConcurrent

/-- The settings themselves, if they can be used. -/
def checked (settings : Settings) : Except SettingsError Settings := do
  check settings
  pure settings

end Settings

end Clearing
