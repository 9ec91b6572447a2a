import Clearing.Guard.Call
import Clearing.Operation.Deadline
import Clearing.Rehearsal.Script
import Clearing.Schedule

/-!
# Rehearsing guarded calls

Scripted operations are called under guards, one by one or several at the same
time.  What is observed of a call is its ending, the starts of its operation and
the time when it was done.
-/

namespace Clearing

/-- Guards, the starts of operations so far, and what those who wait in line are to be told. -/
structure Stage where
  guards : List Guard
  starts : Starts
  news : List News

namespace Stage

/-- A stage on which nothing was started. -/
def new (guards : List Guard) : Stage :=
  { guards, starts := [], news := [] }

/-- The news since they were asked for. -/
def takeNews (stage : Stage) : List News × Stage :=
  (stage.news, { stage with news := [] })

end Stage

/-- A call of a scripted operation. -/
structure Act (ω : Type) where
  caller : Nat
  protection : Protection
  operation : Operation Starts ω Nat
  /-- The state in which the operation begins at a given time. -/
  start : Nat → ω
  call : GuardedCall ω Nat

namespace Act

variable {ω : Type}

/-- A call that nothing has happened to. -/
def new (caller : Nat) (protection : Protection) (operation : Operation Starts ω Nat)
    (start : Nat → ω) : Act ω :=
  { caller, protection, operation, start, call := .new protection }

/-- A bound for the steps of the call. -/
def effort (act : Act ω) : Nat :=
  act.call.effort act.protection act.operation (act.operation.effort (act.start 0))

/-- Acts as an operation on a stage. -/
def performing : Operation Stage (Act ω) Nat where
  step? now stage act :=
    (act.call.step? act.protection act.operation (fun now _ => act.start now) now stage.guards
      stage.starts).map fun (guards, starts, call) =>
        let news := stage.news ++ Guard.news act.protection.path stage.guards guards
        ({ guards, starts, news }, { act with call })
  ending? act := act.call.ending?
  wait? act := act.call.wait? act.operation
  deadlines act := act.call.deadlines act.operation
  cut? chosen act := (act.call.cut? act.operation chosen).map fun call => { act with call }
  effort := effort

/-- Acts on a stage, with nothing in the background. -/
def schedule : Schedule Stage (Act ω) Nat :=
  .ofTask performing Stage.takeNews

end Act

/-- What is observed of a call. -/
structure Performance where
  ending : Option (Ending Nat)
  /-- The times at which the operation was started. -/
  starts : List Nat
  /-- When the call was done. -/
  time : Nat

/-- What is observed of the acts of a scene. -/
def Scene.performances {ω : Type} (scene : Scene Stage (Act ω)) : List Performance :=
  scene.times.map fun (act, time) =>
    { ending := act.call.ending?
      starts := scene.world.starts.of act.caller
      time }

/-- Runs acts that begin now, all at the same time: the scene when all are done. -/
def Stage.perform {ω : Type} (stage : Stage) (now allowance : Nat) (acts : List (Act ω)) :
    Scene Stage (Act ω) :=
  Act.schedule.run (sumOf (acts.map Act.effort)) now allowance stage acts

/-! ## Rehearsals -/

namespace Rehearsal

/-- An operation that is attempted by a policy, without guards and without a deadline. -/
def attempts (retry : RetryPolicy) (scripts : List Script) : List Performance :=
  let act := Act.new 0 { path := [], retry } (Script.operation 0 scripts) fun _ => .starting
  ((Stage.new []).perform 0 Schedule.allowance [act]).performances

/-- A scripted operation under a deadline, with guards to pass. -/
def guardedAct (caller : Nat) (protection : Protection) (stage : String) (limitMillis : Nat)
    (scripts : List Script) : Act (Timed ScriptState) :=
  .new caller protection ((Script.operation caller scripts).timed stage limitMillis)
    fun now => .start now limitMillis .starting

/-- A single attempt at an operation under a deadline, without guards. -/
def deadline (stage : String) (limitMillis : Nat) (script : Script) : List Performance :=
  let act := guardedAct 0 { path := [], retry := .once } stage limitMillis [script]
  ((Stage.new []).perform 0 Schedule.allowance [act]).performances

end Rehearsal

/-- Guards with a policy and a deadline for the calls that pass all of them in order. -/
structure Rehearsal where
  now : Nat
  /-- What is left of the allowance for the foreground. -/
  allowance : Nat
  guards : List Guard
  retry : RetryPolicy
  stage : String
  limitMillis : Nat

namespace Rehearsal

/-- A rehearsal that is about to start. -/
def new (guards : List Guard) (retry : RetryPolicy) (stage : String) (limitMillis : Nat) :
    Rehearsal :=
  { now := 0, allowance := Schedule.allowance, guards, retry, stage, limitMillis }

/-- Runs acts that begin now. -/
def perform (rehearsal : Rehearsal) (acts : List (Act (Timed ScriptState))) :
    Rehearsal × List Performance :=
  let scene := (Stage.new rehearsal.guards).perform rehearsal.now rehearsal.allowance acts
  ({ rehearsal with now := scene.now, allowance := scene.allowance, guards := scene.world.guards },
    scene.performances)

/-- Calls of scripted operations, all at the same time. -/
def runAll (rehearsal : Rehearsal) (calls : List (List Script)) :
    Rehearsal × List Performance :=
  let protection :=
    { path := List.range rehearsal.guards.length, retry := rehearsal.retry : Protection }
  rehearsal.perform (calls.zipIdx.map fun (scripts, caller) =>
    guardedAct caller protection rehearsal.stage rehearsal.limitMillis scripts)

/-- A single guard is passed and left at once with a result.  Without a result the guard is told
that there is nothing to tell. -/
def enter (rehearsal : Rehearsal) (guard : Nat) (result : Option (Except Failure Unit)) :
    Rehearsal × List Performance :=
  let silence := Except.error (Failure.validation .missingTransaction)
  rehearsal.perform
    [guardedAct 0 { path := [guard], retry := .once } rehearsal.stage rehearsal.limitMillis
      [{ waits := [], result := result.getD silence }]]

/-- Time passes. -/
def advance (rehearsal : Rehearsal) (millis : Nat) : Rehearsal :=
  { rehearsal with
    now := rehearsal.now + restMillis millis
    allowance := Schedule.afterRest millis rehearsal.allowance }

end Rehearsal

end Clearing
