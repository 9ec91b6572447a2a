import Clearing.Guard
import Clearing.Schedule
import Clearing.Time.Rest

/-!
# Rehearsing a bulkhead

Slots of a bulkhead are taken, one by one or several at the same time, and are
kept under names until they are given back, now or later.  A slot that is to be
given back later is given back in the background.
-/

namespace Clearing

/-- A bulkhead, the times at which slots will be given back, and what those who wait in line are to
be told. -/
structure BulkheadStage where
  bulkhead : Bulkhead
  returns : List Nat
  news : List News

namespace BulkheadStage

/-- A bulkhead to which no slots will be given back. -/
def new (bulkhead : Bulkhead) : BulkheadStage :=
  { bulkhead, returns := [], news := [] }

/-- The stage after something was done about the bulkhead. -/
def become (stage : BulkheadStage) (bulkhead : Bulkhead) : BulkheadStage :=
  { stage with
    bulkhead
    news := stage.news ++ (stage.bulkhead.newlyAssigned bulkhead).map (.assigned 0) }

/-- The news since they were asked for. -/
def takeNews (stage : BulkheadStage) : List News × BulkheadStage :=
  (stage.news, { stage with news := [] })

/-- It is not yet time to give a slot back. -/
def isIdle (now : Nat) (stage : BulkheadStage) : Bool :=
  stage.returns.all (now < ·)

/-- A slot is given back if it is time. -/
def giveBack (now : Nat) (stage : BulkheadStage) : BulkheadStage :=
  match stage.returns.find? (· ≤ now) with
  | some time => { stage.become stage.bulkhead.release with returns := stage.returns.erase time }
  | none => stage

end BulkheadStage

/-- Someone who asks a bulkhead for a slot, or lets time pass. -/
inductive Visitor where
  | asking
  | lining (latest : Nat)
  | queued (ticket latest : Nat)
  | answered (taken : Bool)
  | resting (wakes : Nat)
  deriving DecidableEq, Repr

namespace Visitor

/-- The visitor after an answer. -/
def ofAnswer : Bulkhead.SlotAnswer → Visitor
  | .taken => .answered true
  | .refused => .answered false
  | .mayWait latest => .lining latest
  | .queued ticket latest => .queued ticket latest

/-- A visit as an operation, with the result whether a slot was taken. -/
def operation : Operation BulkheadStage Visitor Bool where
  step? now stage
    | .asking =>
      let (answer, bulkhead) := stage.bulkhead.ask now
      some (stage.become bulkhead, ofAnswer answer)
    | .lining latest =>
      let (answer, bulkhead) := stage.bulkhead.lineUp latest
      some (stage.become bulkhead, ofAnswer answer)
    | .queued ticket latest =>
      (stage.bulkhead.askAgain? now ticket latest).map fun (answer, bulkhead) =>
        (stage.become bulkhead, ofAnswer answer)
    | .resting wakes => if wakes ≤ now then some (stage, .answered false) else none
    | .answered _ => none
  ending?
    | .answered taken => some (.returned (.ok taken))
    | _ => none
  wait?
    | .lining _ => some (.line 0)
    | .queued ticket latest => some (.slot 0 ticket latest)
    | .resting wakes => some (.time wakes)
    | _ => none
  effort
    | .asking => 3
    | .lining _ => 2
    | .answered _ => 0
    | _ => 1

/-- Visitors in the foreground; slots are given back in the background. -/
def schedule : Schedule BulkheadStage Visitor Bool where
  task := operation
  takeNews := BulkheadStage.takeNews
  isIdle := BulkheadStage.isIdle
  turn := BulkheadStage.giveBack
  resume? _ := none
  nextAlarm? stage := stage.returns.min?
  ring _ stage := stage

end Visitor

/-- A bulkhead, and the names under which slots are kept. -/
structure BulkheadRehearsal where
  name : String
  stage : BulkheadStage
  slots : List String
  now : Nat
  /-- What is left of the allowance for the foreground. -/
  allowance : Nat

namespace BulkheadRehearsal

/-- A rehearsal that is about to start. -/
def new? (name : String) (settings : BulkheadSettings) : Option BulkheadRehearsal :=
  (Bulkhead.new? settings).map fun bulkhead =>
    { name, stage := .new bulkhead, slots := [], now := 0, allowance := Schedule.allowance }

/-- The number of free slots. -/
def free (rehearsal : BulkheadRehearsal) : Nat :=
  rehearsal.stage.bulkhead.free

/-- Takes the slot that is kept under a name and gives it back, if there is one. -/
def release (rehearsal : BulkheadRehearsal) (slot : String) : Bool × BulkheadRehearsal :=
  if slot ∈ rehearsal.slots then
    (true,
      { rehearsal with
        stage := { rehearsal.stage with bulkhead := rehearsal.stage.bulkhead.release }
        slots := rehearsal.slots.erase slot })
  else (false, rehearsal)

/-- Keeps a slot under a name and gives back the one that was there before. -/
def keep (rehearsal : BulkheadRehearsal) (slot : String) : BulkheadRehearsal :=
  let released := (rehearsal.release slot).2
  { released with slots := slot :: released.slots }

/-- Takes the slot that is kept under a name, to give it back later; whatever is to be given back
by now is given back before anything else happens. -/
def releaseLater (rehearsal : BulkheadRehearsal) (slot : String) (millis : Nat) :
    BulkheadRehearsal :=
  if slot ∈ rehearsal.slots then
    let time := rehearsal.now + restMillis millis
    let stage := { rehearsal.stage with returns := rehearsal.stage.returns ++ [time] }
    let (stage, _) := Visitor.schedule.runTurns rehearsal.now Schedule.turnsInARow stage
    { rehearsal with
      stage
      slots := rehearsal.slots.erase slot
      allowance := Schedule.allowance }
  else rehearsal

/-- Visitors come at the same time: what they are when all have what they came for, and when. -/
def visit (rehearsal : BulkheadRehearsal) (visitors : List Visitor) :
    List (Visitor × Nat) × BulkheadRehearsal :=
  let steps := 3 * visitors.length + rehearsal.stage.returns.length
  let scene := Visitor.schedule.run steps rehearsal.now rehearsal.allowance rehearsal.stage visitors
  (scene.times,
    { rehearsal with stage := scene.world, now := scene.now, allowance := scene.allowance })

/-- Asks for slots at the same time and keeps those that were got under the given names, after all
answers are in: for each the answer and when it came. -/
def acquireAll (rehearsal : BulkheadRehearsal) (slots : List String) :
    List (Except Failure Unit × Nat) × BulkheadRehearsal :=
  let (visitors, visited) := rehearsal.visit (slots.map fun _ => .asking)
  let full := Failure.bulkheadFull rehearsal.name
    (.ofMillis rehearsal.stage.bulkhead.maxWaitMillis)
  let answers := visitors.map fun (visitor, time) =>
    (if visitor = .answered true then Except.ok () else .error full, time)
  let taken := (slots.zip answers).filterMap fun (slot, answer) =>
    answer.1.toOption.map fun _ => slot
  (answers, taken.foldl keep visited)

/-- Time passes. -/
def advance (rehearsal : BulkheadRehearsal) (millis : Nat) : BulkheadRehearsal :=
  (rehearsal.visit [.resting (rehearsal.now + restMillis millis)]).2

end BulkheadRehearsal

end Clearing
