import Clearing.Number.Power
import Clearing.Settings
import Clearing.Time.Span

/-!
# Backoff

Before another attempt a call waits.  The wait grows by a constant factor from
attempt to attempt up to a limit.  It is computed in double precision: the
initial wait in seconds times a power of the multiplier, rounded to
nanoseconds.  A product that is no span of time, because it is negative, not a
number or too large, counts as the limit.
-/

namespace Clearing

/-- How often and how soon a call is attempted again. -/
structure RetryPolicy where
  maxAttempts : Nat
  initialBackoff : Span
  multiplier : Binary64
  maxBackoff : Span
  deriving DecidableEq, Repr

namespace RetryPolicy

/-- The policy that settings describe; there is always one attempt. -/
def ofSettings (settings : RetrySettings) : RetryPolicy :=
  { maxAttempts := max settings.maxAttempts 1
    initialBackoff := .ofMillis settings.initialBackoffMillis
    multiplier := settings.multiplier
    maxBackoff := .ofMillis settings.maxBackoffMillis }

/-- A single attempt. -/
def once : RetryPolicy :=
  { maxAttempts := 1, initialBackoff := .zero, multiplier := Binary64.ofNat 1, maxBackoff := .zero }

/-- A span in seconds: its whole seconds plus its rest divided by `10 ^ 9`. -/
def seconds (span : Span) : Binary64 :=
  (Binary64.ofNat (span.nanos / 1000000000)).addMagnitudes
    ((Binary64.ofNat (span.nanos % 1000000000)).div (Binary64.ofNat 1000000000))

/-- The span nearest to a number of seconds; of two equally near ones the even one. -/
def ofSeconds? (x : Binary64) : Option Span :=
  if x.isFinite && (!x.negative || x.isZero) then
    let nanos := divNearestEven (x.ratio.1 * 1000000000) x.ratio.2
    if nanos < twoTo 64 * 1000000000 then some ⟨nanos⟩ else none
  else none

/-- The largest exponent that the multiplier is raised to. -/
def maxExponent : Nat := 2147483647

/-- The wait after the attempt with a given number. -/
def backoff (policy : RetryPolicy) (attempt : Nat) : Span :=
  if policy.initialBackoff.nanos = 0 then .zero
  else
    let power := policy.multiplier.pow (min (attempt - 1) maxExponent)
    match ofSeconds? ((seconds policy.initialBackoff).mul power) with
    | some span => span.min policy.maxBackoff
    | none => policy.maxBackoff

end RetryPolicy

end Clearing
