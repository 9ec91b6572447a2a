import Clearing.Operation

/-!
# Deadlines

An operation under a deadline is cut short when its time is over.  It is looked
at before the clock: an operation that can still take a step when its time is
over, or that has reached its end by then, is not cut short.
-/

namespace Clearing

/-- An operation and the time until which it may take. -/
structure Timed (ω : Type) where
  state : ω
  latest : Nat
  /-- The operation was cut short. -/
  elapsed : Bool
  deriving DecidableEq, Repr

/-- An operation that starts now and may take some time. -/
def Timed.start {ω : Type} (now limitMillis : Nat) (state : ω) : Timed ω :=
  { state, latest := now + limitMillis, elapsed := false }

namespace Operation

variable {σ ω α : Type}

/-- The operation under a deadline; `stage` and the limit are named when it elapses. -/
def timed (operation : Operation σ ω α) (stage : String) (limitMillis : Nat) :
    Operation σ (Timed ω) α where
  step? now shared timed :=
    if timed.elapsed then none
    else
      match operation.step? now shared timed.state with
      | some (shared, state) => some (shared, { timed with state })
      | none =>
        if (operation.ending? timed.state).isNone ∧ timed.latest ≤ now then
          some (shared, { timed with elapsed := true })
        else none
  ending? timed :=
    if timed.elapsed then some (.returned (.error (.timeout stage (.ofMillis limitMillis))))
    else operation.ending? timed.state
  wait? timed := if timed.elapsed then none else operation.wait? timed.state
  deadlines timed :=
    if timed.elapsed then []
    else operation.deadlines timed.state ++ [{ stage, latest := timed.latest }]
  cut? chosen timed :=
    if timed.elapsed then none
    else
      match operation.cut? chosen timed.state with
      | some state => some { timed with state }
      | none =>
        if chosen { stage, latest := timed.latest } then some { timed with elapsed := true }
        else none
  effort timed := if timed.elapsed then 0 else operation.effort timed.state + 1

/-- An operation that can take a step is not cut short. -/
theorem timed_step?_of_step? (operation : Operation σ ω α) (stage : String) (limitMillis : Nat)
    {now : Nat} {shared next : σ} {timed : Timed ω} {state : ω} (hrunning : timed.elapsed = false)
    (hstep : operation.step? now shared timed.state = some (next, state)) :
    (operation.timed stage limitMillis).step? now shared timed =
      some (next, { timed with state }) := by
  simp [Operation.timed, hrunning, hstep]

end Operation

end Clearing
