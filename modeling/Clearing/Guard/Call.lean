import Clearing.Guard
import Clearing.Guard.Backoff
import Clearing.Operation
import Clearing.Time.Rest

/-!
# Guarded calls

A guarded call makes attempts at an operation.  An attempt passes a list of
guards in order, runs the operation, and tells every guard how it went.  An
attempt that a guard turns away does not run the operation and tells the guards
passed before that there is nothing to tell.  After a failure that is worth it,
the call waits and makes another attempt.

`GuardedCall.step?` is one atomic action: one question to a breaker, one look
at a bulkhead, one step of the operation, one thing given back.
-/

namespace Clearing

/-- How a call is guarded. -/
structure Protection where
  /-- The positions of the guards to pass, in order. -/
  path : List Nat
  retry : RetryPolicy
  deriving DecidableEq, Repr

/-- Where an attempt stands. -/
inductive Phase (ω α : Type) where
  /-- About to ask the breaker of the next guard ahead. -/
  | entering (held : List Hold) (ahead : List Nat)
  /-- Admitted by the breaker of a guard, about to look at its bulkhead. -/
  | taking (held : List Hold) (guard : Nat) (ahead : List Nat)
  /-- About to stand in line at the bulkhead of a guard, until a given time at most. -/
  | lining (held : List Hold) (guard : Nat) (ahead : List Nat) (latest : Nat)
  /-- In line at the bulkhead of a guard, until a given time at most. -/
  | queued (held : List Hold) (guard : Nat) (ahead : List Nat) (ticket : Nat) (latest : Nat)
  /-- Past all guards, in the operation. -/
  | operating (held : List Hold) (operation : ω)
  /-- Giving back what is held, with this outcome. -/
  | leaving (outcome : Outcome) (held : List Hold) (result : Except Failure α)
  /-- Waiting for the next attempt. -/
  | backingOff (wakes : Nat)
  /-- Done. -/
  | finished (ending : Ending α)

/-- A call that makes attempts at an operation. -/
structure GuardedCall (ω α : Type) where
  /-- The number of the current attempt, from one. -/
  attempt : Nat
  phase : Phase ω α

namespace GuardedCall

variable {σ ω α : Type}

/-- A call before its first attempt. -/
def new (protection : Protection) : GuardedCall ω α :=
  { attempt := 1, phase := .entering [] protection.path }

/-- What is held of a guard that was passed. -/
def holdsOf (guard : Nat) : List Hold := [.permit guard, .slot guard]

/-- The call after an attempt ended with a result and gave everything back. -/
def settle (protection : Protection) (now : Nat) (call : GuardedCall ω α)
    (result : Except Failure α) : GuardedCall ω α :=
  match result with
  | .ok value => { call with phase := .finished (.returned (.ok value)) }
  | .error failure =>
    if failure.isRetryable ∧ call.attempt < protection.retry.maxAttempts then
      let wait := (protection.retry.backoff call.attempt).toMillisUp
      { call with phase := .backingOff (now + restMillis wait) }
    else { call with phase := .finished (.returned (.error failure)) }

/-- Gives back everything that is held. -/
def giveBackAll (guards : List Guard) (now : Nat) (outcome : Outcome) (held : List Hold) :
    List Guard :=
  held.foldl (fun guards hold => hold.giveBack guards now outcome) guards

/-- One action of a call: on the guards, on what the operation works on, and on the call.  `start`
gives the state in which the operation begins at a given time in a given attempt. -/
def step? (protection : Protection) (operation : Operation σ ω α) (start : Nat → Nat → ω)
    (now : Nat) (guards : List Guard) (shared : σ) (call : GuardedCall ω α) :
    Option (List Guard × σ × GuardedCall ω α) :=
  let turnedAway (guards : List Guard) (held : List Hold) (failure : Failure) :=
    some (guards, shared, { call with phase := .leaving .ignored held (.error failure) })
  let answered (guards : List Guard) (held : List Hold) (position : Nat) (ahead : List Nat)
      (guard : Guard) : Bulkhead.SlotAnswer → Option (List Guard × σ × GuardedCall ω α)
    | .taken =>
      some (guards, shared, { call with phase := .entering (held ++ holdsOf position) ahead })
    | .refused => turnedAway guards (.permit position :: held) guard.full
    | .mayWait latest =>
      some (guards, shared, { call with phase := .lining held position ahead latest })
    | .queued ticket latest =>
      some (guards, shared, { call with phase := .queued held position ahead ticket latest })
  match call.phase with
  | .entering held [] =>
    some (guards, shared, { call with phase := .operating held (start now call.attempt) })
  | .entering held (position :: ahead) =>
    match guards[position]? with
    | none => some (guards, shared, { call with phase := .entering held ahead })
    | some guard =>
      let (breaker, admitted) := guard.breaker.acquire now
      let guards := guards.set position { guard with breaker }
      if admitted then
        some (guards, shared, { call with phase := .taking held position ahead })
      else turnedAway guards held guard.rejection
  | .taking held position ahead =>
    match guards[position]? with
    | none => some (guards, shared, { call with phase := .entering held ahead })
    | some guard =>
      let (answer, bulkhead) := guard.bulkhead.ask now
      answered (guards.set position { guard with bulkhead }) held position ahead guard answer
  | .lining held position ahead latest =>
    match guards[position]? with
    | none => some (guards, shared, { call with phase := .entering held ahead })
    | some guard =>
      let (answer, bulkhead) := guard.bulkhead.lineUp latest
      answered (guards.set position { guard with bulkhead }) held position ahead guard answer
  | .queued held position ahead ticket latest =>
    match guards[position]? with
    | none => some (guards, shared, { call with phase := .entering held ahead })
    | some guard =>
      (guard.bulkhead.askAgain? now ticket latest).bind fun (answer, bulkhead) =>
        answered (guards.set position { guard with bulkhead }) held position ahead guard answer
  | .operating held state =>
    match operation.step? now shared state with
    | some (shared, state) => some (guards, shared, { call with phase := .operating held state })
    | none =>
      match operation.ending? state with
      | some (.returned result) =>
        some (guards, shared, { call with phase := .leaving (.of result) held result })
      | some (.aborted cause) =>
        some (giveBackAll guards now .ignored held, shared,
          { call with phase := .finished (.aborted cause) })
      | none => none
  | .leaving outcome (hold :: held) result =>
    some (hold.giveBack guards now outcome, shared,
      { call with phase := .leaving outcome held result })
  | .leaving _ [] result => some (guards, shared, call.settle protection now result)
  | .backingOff wakes =>
    if wakes ≤ now then
      some (guards, shared,
        { attempt := call.attempt + 1, phase := .entering [] protection.path })
    else none
  | .finished _ => none

/-- The ending, once it is reached. -/
def ending? (call : GuardedCall ω α) : Option (Ending α) :=
  match call.phase with
  | .finished ending => some ending
  | _ => none

/-- What the call waits for, if its next step is the end of a wait. -/
def wait? (operation : Operation σ ω α) (call : GuardedCall ω α) : Option Wait :=
  match call.phase with
  | .lining _ guard _ _ => some (.line guard)
  | .queued _ guard _ ticket latest => some (.slot guard ticket latest)
  | .operating _ state => operation.wait? state
  | .backingOff wakes => some (.time wakes)
  | _ => none

/-- The deadlines that are running, the innermost first. -/
def deadlines (operation : Operation σ ω α) (call : GuardedCall ω α) : List Deadline :=
  match call.phase with
  | .operating _ state => operation.deadlines state
  | _ => []

/-- The call, cut short by the innermost of the chosen deadlines. -/
def cut? (operation : Operation σ ω α) (chosen : Deadline → Bool) (call : GuardedCall ω α) :
    Option (GuardedCall ω α) :=
  match call.phase with
  | .operating held state =>
    (operation.cut? chosen state).map fun state => { call with phase := .operating held state }
  | _ => none

/-- More steps than this are not left of an attempt at an operation with at most `bound` steps. -/
def phaseEffort (operation : Operation σ ω α) (bound : Nat) : Phase ω α → Nat
  | .entering held ahead => bound + held.length + 7 * ahead.length + 4
  | .taking held _ ahead => bound + held.length + 7 * ahead.length + 10
  | .lining held _ ahead _ => bound + held.length + 7 * ahead.length + 9
  | .queued held _ ahead _ _ => bound + held.length + 7 * ahead.length + 8
  | .operating held state => operation.effort state + held.length + 3
  | .leaving _ held _ => held.length + 2
  | .backingOff _ => 1
  | .finished _ => 0

/-- More steps than this are not left of a call of an operation with at most `bound` steps. -/
def effort (protection : Protection) (operation : Operation σ ω α) (bound : Nat)
    (call : GuardedCall ω α) : Nat :=
  phaseEffort operation bound call.phase +
    (protection.retry.maxAttempts - call.attempt) * (bound + 7 * protection.path.length + 6)

/-- The guards after the call was dropped where it stands. -/
def abandon (guards : List Guard) (now : Nat) (call : GuardedCall ω α) : List Guard :=
  match call.phase with
  | .entering held _ => giveBackAll guards now .ignored held
  | .taking held guard _ => giveBackAll guards now .ignored (.permit guard :: held)
  | .lining held guard _ _ => giveBackAll guards now .ignored (.permit guard :: held)
  | .queued held guard _ ticket _ =>
    giveBackAll (guards.modify guard (Guard.giveUp ticket)) now .ignored (.permit guard :: held)
  | .operating held _ => giveBackAll guards now .ignored held
  | .leaving outcome held _ => giveBackAll guards now outcome held
  | .backingOff _ => guards
  | .finished _ => guards

end GuardedCall

end Clearing
