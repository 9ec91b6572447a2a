import Clearing.Operation
import Clearing.Time.Rest

/-!
# Scripts

A rehearsal lets guards and deadlines work on operations that do nothing but
what a script says: they wait for some times and end with a given result.  The
starts of scripted operations are noted, and an operation that is started for
the n-th time by the same caller follows the n-th of its scripts, or the last
one if there are not so many.
-/

namespace Clearing

/-- What a scripted operation does: it waits and then ends. -/
structure Script where
  waits : List Nat
  result : Except Failure Unit

/-- The starts of scripted operations: the number of the caller and the time, the first first. -/
abbrev Starts := List (Nat × Nat)

/-- The times at which a caller started operations. -/
def Starts.of (starts : Starts) (caller : Nat) : List Nat :=
  (starts.filter fun start => start.1 = caller).map (·.2)

/-- Where a scripted operation stands. -/
inductive ScriptState where
  | starting
  | waiting (ordinal wakes : Nat) (rest : List Nat) (result : Except Failure Unit)
  | ended (result : Except Failure Nat)

namespace ScriptState

/-- The state in which the next wait begins. -/
def next (now ordinal : Nat) (waits : List Nat) (result : Except Failure Unit) : ScriptState :=
  match waits with
  | [] => .ended (result.map fun _ => ordinal)
  | wait :: rest => .waiting ordinal (now + restMillis wait) rest result

end ScriptState

namespace Script

/-- The script for a start with a given number, from one. -/
def forStart (scripts : List Script) (ordinal : Nat) : Script :=
  (scripts[ordinal - 1]?.or scripts.getLast?).getD { waits := [], result := .ok () }

/-- The operation that a caller starts; its result is the number of the start. -/
def operation (caller : Nat) (scripts : List Script) : Operation Starts ScriptState Nat where
  step? now starts
    | .starting =>
      let ordinal := (starts.of caller).length + 1
      let script := forStart scripts ordinal
      some (starts ++ [(caller, now)], .next now ordinal script.waits script.result)
    | .waiting ordinal wakes rest result =>
      if wakes ≤ now then some (starts, .next now ordinal rest result) else none
    | .ended _ => none
  ending?
    | .ended result => some (.returned result)
    | _ => none
  wait?
    | .waiting _ wakes _ _ => some (.time wakes)
    | _ => none
  effort
    | .starting => (scripts.map fun script => script.waits.length).foldl max 0 + 2
    | .waiting _ _ rest _ => rest.length + 1
    | .ended _ => 0

end Script

end Clearing
