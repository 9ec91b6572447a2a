import Clearing.Guard.Breaker
import Clearing.Guard.Bulkhead
import Clearing.Operation

/-!
# Guards

A guard is a circuit breaker and a bulkhead under one name.  A call passes the
breaker first.  A pipeline has a list of guards and a call names them by their
position in it.
-/

namespace Clearing

/-- A breaker and a bulkhead under one name. -/
structure Guard where
  name : String
  breaker : Breaker
  bulkhead : Bulkhead
  deriving DecidableEq, Repr

namespace Guard

/-- A guard that nobody has passed. -/
def new (name : String) (breaker : BreakerSettings) (bulkhead : BulkheadSettings) : Guard :=
  { name, breaker := .new breaker, bulkhead := .new bulkhead }

/-- A guard that nobody has passed, unless its bulkhead would have too many slots. -/
def new? (name : String) (breaker : BreakerSettings) (bulkhead : BulkheadSettings) :
    Option Guard :=
  (Bulkhead.new? bulkhead).map fun bulkhead => { name, breaker := .new breaker, bulkhead }

/-- The failure of a call that the breaker turned away. -/
def rejection (guard : Guard) : Failure :=
  .circuitOpen guard.name

/-- The failure of a call that got no slot. -/
def full (guard : Guard) : Failure :=
  .bulkheadFull guard.name (.ofMillis guard.bulkhead.maxWaitMillis)

/-- The outcome of a call is in. -/
def record (now : Nat) (outcome : Outcome) (guard : Guard) : Guard :=
  { guard with breaker := guard.breaker.record now outcome }

/-- A slot is given back. -/
def release (guard : Guard) : Guard :=
  { guard with bulkhead := guard.bulkhead.release }

/-- A ticket is given up. -/
def giveUp (ticket : Nat) (guard : Guard) : Guard :=
  { guard with bulkhead := guard.bulkhead.giveUp ticket }

/-- The slots that were assigned at the guards of a path since the guards were as they were
before. -/
def news (path : List Nat) (before after : List Guard) : List News :=
  path.flatMap fun position =>
    match before[position]?, after[position]? with
    | some before, some after =>
      (before.bulkhead.newlyAssigned after.bulkhead).map fun ticket => .assigned position ticket
    | _, _ => []

end Guard

/-- What a call holds of a guard, by the guard's position. -/
inductive Hold where
  /-- The breaker admitted the call and waits for its outcome. -/
  | permit (guard : Nat)
  /-- The call has a slot of the bulkhead. -/
  | slot (guard : Nat)
  deriving DecidableEq, Repr

/-- Gives back what a call holds of one guard. -/
def Hold.giveBack (guards : List Guard) (now : Nat) (outcome : Outcome) : Hold → List Guard
  | .permit guard => guards.modify guard (Guard.record now outcome)
  | .slot guard => guards.modify guard Guard.release

end Clearing
