import Clearing.Operation

/-!
# Looking at an operation

A look at an operation takes its steps until it waits or has ended.  Only so
many waits may end in a look: each that does uses up one of an allowance, and
once that is used up the operation is put off at its next wait, even if the wait
is over.

When the look ends at a wait, alarms are set for the wait and for the deadlines
that are running.  At a wait that is put off no alarm is set, and a deadline is
heeded only if its alarm is set: it was so before, or it was running when the
allowance was used up.
-/

namespace Clearing

/-- What can ring for an operation. -/
inductive Alarm where
  /-- A wait is over, or has taken as long as it may. -/
  | wait (due : Nat)
  | deadline (limit : Deadline)
  deriving DecidableEq, Repr

/-- When an alarm rings. -/
def Alarm.due : Alarm → Nat
  | .wait due => due
  | .deadline limit => limit.latest

/-- The alarm that a wait needs, unless it ends by news alone. -/
def Wait.alarm? : Wait → Option Alarm
  | .time due => some (.wait due)
  | .slot _ _ latest => some (.wait latest)
  | _ => none

namespace Operation

variable {σ ω α : Type}

/-- The alarms for the deadlines that are running. -/
def deadlineAlarms (operation : Operation σ ω α) (state : ω) : List Alarm :=
  (operation.deadlines state).map .deadline

/-- The alarms for the wait and for the deadlines. -/
def alarms (operation : Operation σ ω α) (state : ω) : List Alarm :=
  ((operation.wait? state).bind Wait.alarm?).toList ++ operation.deadlineAlarms state

/-- What is used up of the allowance by the end of a wait that led to a state; to get into a line
is only another wait. -/
def price (operation : Operation σ ω α) (state : ω) : Nat :=
  match operation.wait? state with
  | some (.slot ..) => 0
  | _ => 1

end Operation

/-- An operation's state and the alarms that are set, each with the number of the look in which it
was. -/
structure Watched (ω : Type) where
  state : ω
  alarms : List (Alarm × Nat)

namespace Watched

variable {σ ω α : Type}

/-- A state for which no alarm is set. -/
def new (state : ω) : Watched ω :=
  { state, alarms := [] }

/-- The state has changed; the alarms that do not matter any more are turned off. -/
def become (watched : Watched ω) (operation : Operation σ ω α) (state : ω) : Watched ω :=
  { state, alarms := watched.alarms.filter fun alarm => alarm.1 ∈ operation.alarms state }

/-- An alarm is set. -/
def isSet (watched : Watched ω) (alarm : Alarm) : Bool :=
  watched.alarms.any fun entry => entry.1 = alarm

/-- Sets those of some alarms that are not. -/
def set (watched : Watched ω) (number : Nat) (alarms : List Alarm) : Watched ω :=
  { watched with
    alarms := watched.alarms ++
      (alarms.filter fun alarm => !watched.isSet alarm).map fun alarm => (alarm, number) }

end Watched

/-- The course of a look at an operation on a shared `σ`. -/
structure Look (σ ω : Type) where
  shared : σ
  watched : Watched ω
  /-- The number of waits that may still end. -/
  allowance : Nat
  /-- There was a step. -/
  moved : Bool
  /-- A wait was put off. -/
  putOff : Bool

namespace Look

variable {σ ω α : Type}

/-- The look after a step. -/
def become (look : Look σ ω) (operation : Operation σ ω α) (shared : σ) (state : ω) : Look σ ω :=
  { look with shared, watched := look.watched.become operation state, moved := true }

/-- The look after the end of a wait. -/
def passWait (look : Look σ ω) (operation : Operation σ ω α) (number : Nat) (shared : σ)
    (state : ω) : Look σ ω :=
  let passed := look.become operation shared state
  let allowance := look.allowance - operation.price state
  { passed with
    allowance
    watched :=
      if allowance = 0 then passed.watched.set number (operation.deadlineAlarms state)
      else passed.watched }

/-- Goes on with a look, for at most `fuel` steps; `heeding` says that deadlines are heeded when
the allowance is used up. -/
def goOn (operation : Operation σ ω α) (now number : Nat) (heeding : Bool) :
    Nat → Look σ ω → Look σ ω
  | 0, look => look
  | fuel + 1, look =>
    match operation.wait? look.watched.state with
    | none =>
      match operation.step? now look.shared look.watched.state with
      | some (shared, state) =>
        goOn operation now number heeding fuel (look.become operation shared state)
      | none => look
    | some _ =>
      if 0 < look.allowance then
        match operation.step? now look.shared look.watched.state with
        | some (shared, state) =>
          goOn operation now number heeding fuel (look.passWait operation number shared state)
        | none =>
          { look with
            watched := look.watched.set number (operation.alarms look.watched.state) }
      else
        let elapsed (deadline : Deadline) : Bool :=
          deadline.latest ≤ now && look.watched.isSet (.deadline deadline)
        let cut := if heeding then operation.cut? elapsed look.watched.state else none
        match cut with
        | some state =>
          goOn operation now number heeding fuel
            { look.become operation look.shared state with putOff := true }
        | none => { look with putOff := true }

end Look

namespace Operation

variable {σ ω α : Type}

/-- Looks at an operation; the look has a number and an allowance. -/
def look (operation : Operation σ ω α) (now number allowance : Nat) (shared : σ)
    (watched : Watched ω) : Look σ ω :=
  Look.goOn operation now number (0 < allowance) (operation.effort watched.state + 1)
    { shared, watched, allowance, moved := false, putOff := false }

end Operation

end Clearing
