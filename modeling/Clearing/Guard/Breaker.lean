import Clearing.Failure
import Clearing.Settings

/-!
# Circuit breakers

A breaker watches the outcomes of calls.  While it is closed it keeps a window
of the most recent ones and opens when enough of them are failures.  While it is
open it admits nobody.  Once its wait has elapsed the next call finds it
half-open: a fixed number of trial calls is admitted, and when as many outcomes
are in, their rate of failures decides whether it closes or opens again.

Some outcomes say nothing about the called side.  They are ignored while the
breaker is closed or open and give back the place of a trial call while it is
half-open.  An outcome does not say which call it belongs to.

Time is counted in milliseconds.
-/

namespace Clearing

/-- What a call tells the breaker. -/
inductive Outcome where
  | success
  | failure
  | ignored
  deriving DecidableEq, Repr

namespace Outcome

/-- What a failure tells the breaker: a transaction that broke a rule or that was turned away by a
guard says nothing. -/
def ofFailure (cause : Failure) : Outcome :=
  match cause.kind with
  | .validation => .ignored
  | .bulkheadFull => .ignored
  | .circuitOpen => .ignored
  | _ => .failure

/-- What a result tells the breaker. -/
def of {α : Type} : Except Failure α → Outcome
  | .ok _ => .success
  | .error cause => ofFailure cause

end Outcome

/-- Where a breaker stands. -/
inductive BreakerState where
  | closed
  | opened (wakes : Nat)
  | halfOpen (admitted successes failures : Nat)
  deriving DecidableEq, Repr

/-- What a breaker shows of its state. -/
inductive BreakerStatus where
  | closed
  | opened
  | halfOpen
  deriving DecidableEq, Repr

/-- A circuit breaker. -/
structure Breaker where
  settings : BreakerSettings
  state : BreakerState
  /-- The recent outcomes, the oldest first; true marks a failure. -/
  window : List Bool
  /-- The number of failures in the window. -/
  failures : Nat
  deriving DecidableEq, Repr

namespace Breaker

/-- A closed breaker without history. -/
def new (settings : BreakerSettings) : Breaker :=
  { settings, state := .closed, window := [], failures := 0 }

/-- The state as it shows: an open breaker whose wait has elapsed shows as half-open. -/
def status (breaker : Breaker) (now : Nat) : BreakerStatus :=
  match breaker.state with
  | .closed => .closed
  | .opened wakes => if wakes ≤ now then .halfOpen else .opened
  | .halfOpen .. => .halfOpen

/-! ## The window -/

/-- Drops the oldest outcomes until the window has at most `size` of them. -/
def shrink (size : Nat) : List Bool → Nat → List Bool × Nat
  | [], failures => ([], failures)
  | oldest :: rest, failures =>
    if size < rest.length + 1 then shrink size rest (if oldest then failures - 1 else failures)
    else (oldest :: rest, failures)

/-- The window after one more outcome. -/
def push (breaker : Breaker) (failed : Bool) : Breaker :=
  let shrunk := shrink breaker.settings.windowSize (breaker.window ++ [failed])
    (breaker.failures + if failed then 1 else 0)
  { breaker with window := shrunk.1, failures := shrunk.2 }

/-- A rate in percent. -/
def percent (part whole : Nat) : Binary64 :=
  ((Binary64.ofNat part).mul (Binary64.ofNat 100)).div (Binary64.ofNat whole)

/-- The rate of failures reaches the threshold. -/
def tooMany (breaker : Breaker) (failures calls : Nat) : Bool :=
  breaker.settings.failureThreshold.le (percent failures calls)

/-- The breaker in another state and with an empty window. -/
def restart (breaker : Breaker) (state : BreakerState) : Breaker :=
  { breaker with state, window := [], failures := 0 }

/-- The breaker as it opens at a given time. -/
def trip (breaker : Breaker) (now : Nat) : Breaker :=
  breaker.restart (.opened (now + breaker.settings.openMillis))

/-! ## Calls -/

/-- The breaker as a call finds it: an open one whose wait has elapsed is half-open. -/
def approach (breaker : Breaker) (now : Nat) : Breaker :=
  match breaker.state with
  | .opened wakes => if wakes ≤ now then { breaker with state := .halfOpen 0 0 0 } else breaker
  | _ => breaker

/-- A call asks to be admitted. -/
def acquire (breaker : Breaker) (now : Nat) : Breaker × Bool :=
  let found := breaker.approach now
  match found.state with
  | .closed => (found, true)
  | .opened _ => (found, false)
  | .halfOpen admitted successes failures =>
    if admitted < found.settings.halfOpenCalls then
      ({ found with state := .halfOpen (admitted + 1) successes failures }, true)
    else (found, false)

/-- The outcome of a trial call is in. -/
def recordTrial (breaker : Breaker) (now admitted successes failures : Nat) : Breaker :=
  let completed := successes + failures
  if completed < breaker.settings.halfOpenCalls then
    { breaker with state := .halfOpen admitted successes failures }
  else if breaker.tooMany failures completed then breaker.trip now
  else breaker.restart .closed

/-- The outcome of an earlier call is in. -/
def record (breaker : Breaker) (now : Nat) (outcome : Outcome) : Breaker :=
  match breaker.state, outcome with
  | .opened _, _ => breaker
  | .closed, .ignored => breaker
  | .closed, outcome =>
    let pushed := breaker.push (outcome = .failure)
    if pushed.settings.minimumCalls ≤ pushed.window.length ∧
        pushed.tooMany pushed.failures pushed.window.length then
      pushed.trip now
    else pushed
  | .halfOpen admitted successes failures, .ignored =>
    { breaker with state := .halfOpen (admitted - 1) successes failures }
  | .halfOpen admitted successes failures, .success =>
    breaker.recordTrial now admitted (successes + 1) failures
  | .halfOpen admitted successes failures, .failure =>
    breaker.recordTrial now admitted successes (failures + 1)

end Breaker

end Clearing
