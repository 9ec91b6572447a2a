import Clearing.Failure

/-!
# Operations

An operation is a state machine that works in small steps on something shared.
A step is one atomic action at a given time.  Where the next step is the end of
a wait, the operation says what it waits for, and it has no step before that.
All this time deadlines may be running that cut it short.  An operation ends
with a result or is aborted.

Any number of operations can work on the same thing, their steps interleaved in
any order.  Nothing here says in which: that is up to whoever runs them.
-/

namespace Clearing

/-- Why an operation was aborted. -/
inductive Abort where
  /-- It was told to. -/
  | requested
  /-- A product of amounts does not fit. -/
  | productOverflow
  /-- A sum of amounts does not fit. -/
  | sumOverflow
  /-- More workers were asked for than there can be. -/
  | tooManyWorkers
  deriving DecidableEq, Repr

/-- What is said about an abort, if anything. -/
def Abort.message? : Abort → Option String
  | .productOverflow => some "Multiplication overflowed"
  | .sumOverflow => some "Addition overflowed"
  | _ => none

/-- How an operation ends. -/
inductive Ending (α : Type) where
  | returned (result : Except Failure α)
  | aborted (cause : Abort)

/-- The ending with another value in place of the one that was returned. -/
def Ending.map {α β : Type} (f : α → β) : Ending α → Ending β
  | .returned result => .returned (result.map f)
  | .aborted cause => .aborted cause

/-- What an operation waits for. -/
inductive Wait where
  /-- A time. -/
  | time (due : Nat)
  /-- To be let into the line for the slots of a guard. -/
  | line (guard : Nat)
  /-- In line for a slot of a guard, with a ticket and until a given time at most. -/
  | slot (guard ticket latest : Nat)
  /-- A worker. -/
  | worker (position : Nat)
  deriving DecidableEq, Repr

/-- Something that happened for which someone may have waited. -/
inductive News where
  /-- A slot of a guard was assigned to a ticket. -/
  | assigned (guard ticket : Nat)
  /-- A worker has finished. -/
  | finished (position : Nat)
  deriving DecidableEq, Repr

/-- Some news end some waits; all other waits have an alarm or are looked at again anyway. -/
def News.ends : News → Wait → Bool
  | .assigned guard ticket, .slot other stub _ => guard = other && ticket = stub
  | .finished position, .worker other => position = other
  | _, _ => false

/-- What is under a deadline, and until when. -/
structure Deadline where
  stage : String
  latest : Nat
  deriving DecidableEq, Repr

/-- An operation on a shared `σ` with states `ω` and results `α`. -/
structure Operation (σ ω α : Type) where
  /-- One action, unless the operation goes on waiting or has ended. -/
  step? : Nat → σ → ω → Option (σ × ω)
  /-- The ending, once it is reached. -/
  ending? : ω → Option (Ending α)
  /-- What the operation waits for, if its next step is the end of a wait. -/
  wait? : ω → Option Wait
  /-- The deadlines that are running, the innermost first. -/
  deadlines : ω → List Deadline := fun _ => []
  /-- The operation, cut short by the innermost of the chosen deadlines. -/
  cut? : (Deadline → Bool) → ω → Option ω := fun _ _ => none
  /-- More steps than this are not left. -/
  effort : ω → Nat

namespace Operation

variable {σ τ ω α : Type}

/-- The operation on something larger, of which it sees a part. -/
def within (operation : Operation σ ω α) (part : τ → σ) (replace : τ → σ → τ) :
    Operation τ ω α :=
  { operation with
    step? := fun now whole state =>
      (operation.step? now (part whole) state).map fun (changed, state) =>
        (replace whole changed, state) }

@[simp] theorem ending?_within (operation : Operation σ ω α) (part : τ → σ) (replace : τ → σ → τ)
    (state : ω) : (operation.within part replace).ending? state = operation.ending? state := rfl

end Operation

end Clearing
