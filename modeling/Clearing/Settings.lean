import Clearing.Number.Binary64
import Clearing.Text.Blank

/-!
# Settings

What can be set about a pipeline, with the values it has when nothing is set.
Guards come in two profiles, one for the guard that all transactions share and
one for the guard of each format.  The profile per format has defaults of its
own only as long as nothing in it is set: a profile that is given in part takes
the rest from the defaults of its type, which are those of the shared guard.
-/

namespace Clearing

/-- How log lines are written. -/
inductive LogFormat where
  | pretty
  | json
  deriving DecidableEq, Repr

namespace LogFormat

/-- The name of a log format. -/
def name : LogFormat → String
  | .pretty => "pretty"
  | .json => "json"

/-- The log format with exactly this name. -/
def ofName? (name : String) : Option LogFormat :=
  if name = "pretty" then some .pretty else if name = "json" then some .json else none

/-- The log format that an environment variable names, in any case of its letters. -/
def ofVariable? (value : Option String) : Option LogFormat :=
  value.bind fun text => ofName? (Text.lower text)

/-- The log format when none is set. -/
def initial : LogFormat := .pretty

end LogFormat

/-- How a batch is spread over workers. -/
structure BatchSettings where
  subBatchSize : Nat
  workers : Nat
  inFlightPerWorker : Nat
  deriving DecidableEq, Repr

/-- How often and how soon a call is attempted again. -/
structure RetrySettings where
  maxAttempts : Nat
  initialBackoffMillis : Nat
  multiplier : Binary64
  maxBackoffMillis : Nat
  deriving DecidableEq, Repr

/-- When a circuit breaker opens, and how it closes again. -/
structure BreakerSettings where
  /-- The number of recent outcomes that count. -/
  windowSize : Nat
  /-- The number of outcomes before which the breaker does not open. -/
  minimumCalls : Nat
  /-- The rate of failures, in percent, from which on it opens. -/
  failureThreshold : Binary64
  /-- How long it stays open. -/
  openMillis : Nat
  /-- The number of trial calls after that. -/
  halfOpenCalls : Nat
  deriving DecidableEq, Repr

/-- How many calls a bulkhead lets through at a time. -/
structure BulkheadSettings where
  maxConcurrent : Nat
  maxWaitMillis : Nat
  deriving DecidableEq, Repr

/-- One value for the shared guard and one for the guard of each format. -/
structure Profiles (α : Type) where
  shared : α
  perFormat : α
  deriving DecidableEq, Repr

/-- Everything that can be set. -/
structure Settings where
  deadlineMillis : Nat
  logFormat : LogFormat
  batch : BatchSettings
  retry : RetrySettings
  breakers : Profiles BreakerSettings
  bulkheads : Profiles BulkheadSettings
  cacheMillis : Nat
  deriving DecidableEq, Repr

/-- The batch settings when nothing is set. -/
def BatchSettings.initial : BatchSettings :=
  { subBatchSize := 100, workers := 3, inFlightPerWorker := 16 }

/-- The retry settings when nothing is set. -/
def RetrySettings.initial : RetrySettings :=
  { maxAttempts := 3
    initialBackoffMillis := 100
    multiplier := Binary64.ofNat 2
    maxBackoffMillis := 2000 }

/-- The breaker settings when nothing is set. -/
def BreakerSettings.initial : BreakerSettings :=
  { windowSize := 100
    minimumCalls := 10
    failureThreshold := Binary64.ofNat 50
    openMillis := 10000
    halfOpenCalls := 5 }

/-- The bulkhead settings when nothing is set. -/
def BulkheadSettings.initial : BulkheadSettings :=
  { maxConcurrent := 50, maxWaitMillis := 500 }

/-- The breakers when neither profile is given. -/
def Profiles.initialBreakers : Profiles BreakerSettings :=
  { shared := .initial
    perFormat :=
      { BreakerSettings.initial with
        windowSize := 50
        failureThreshold := Binary64.ofNat 40
        openMillis := 5000 } }

/-- The bulkheads when neither profile is given. -/
def Profiles.initialBulkheads : Profiles BulkheadSettings :=
  { shared := .initial
    perFormat := { maxConcurrent := 40, maxWaitMillis := 200 } }

/-- The settings when nothing is set. -/
def Settings.initial : Settings :=
  { deadlineMillis := 5000
    logFormat := .initial
    batch := .initial
    retry := .initial
    breakers := .initialBreakers
    bulkheads := .initialBulkheads
    cacheMillis := 300000 }

end Clearing
