import Clearing.Operation.Look

/-!
# Schedules

A schedule runs the tasks of the foreground and whatever a world does in the
background on a clock that only moves when everything waits.

A round begins with a look at the foreground, which has one allowance for all
its tasks; the first round of tasks that begin has what the tasks before them
left of theirs.  A few tasks are looked at one after the other, all that are not
done.  Of many tasks only those that are ready are looked at, in the order in
which they became so: as they begin, by news, by their alarms, or because they
were put off.  Then the background has a number of turns, and at the end of the
round those who were put off are ready again, the last one first.

When a round has moved nothing the clock moves to the earliest alarm; alarms of
the same time ring in the order in which they were set.  A schedule ends when
all tasks of the foreground are done.
-/

namespace Clearing

/-- How the tasks in the foreground and a world behind them move. -/
structure Schedule (W T α : Type) where
  /-- A task, as an operation on the world. -/
  task : Operation W T α
  /-- The news for the foreground since they were asked for, and the world without them. -/
  takeNews : W → List News × W
  /-- Nobody in the background is to have a turn. -/
  isIdle : Nat → W → Bool
  /-- One turn of a background that is not idle. -/
  turn : Nat → W → W
  /-- Those of the background who were put off are to have a turn again, if there are any. -/
  resume? : W → Option W
  /-- When the background may have a turn again. -/
  nextAlarm? : W → Option Nat
  /-- The clock has come to an alarm. -/
  ring : Nat → W → W

namespace Schedule

/-- A schedule with nothing in the background. -/
def ofTask {W T α : Type} (task : Operation W T α) (takeNews : W → List News × W) :
    Schedule W T α where
  task
  takeNews
  isIdle _ _ := true
  turn _ world := world
  resume? _ := none
  nextAlarm? _ := none
  ring _ world := world

/-- The number of waits of the foreground that may end in a look. -/
def allowance : Nat := 128

/-- The number of turns that the background has between two looks at the foreground. -/
def turnsInARow : Nat := 61

/-- So many tasks are all looked at in every round. -/
def few : Nat := 30

end Schedule

/-- A task, and when it was done. -/
structure Lane (T : Type) where
  watched : Watched T
  done : Option Nat

/-- A world and the tasks in it at some time. -/
structure Scene (W T : Type) where
  now : Nat
  world : W
  lanes : Array (Lane T)
  /-- The positions of the lanes that are ready, in order, unless all are looked at. -/
  ready : Option (List Nat)
  /-- The positions of the lanes that were put off, the last one first. -/
  putOff : List Nat
  /-- The number of looks so far. -/
  looks : Nat
  /-- What is left of the allowance for the look at the foreground. -/
  allowance : Nat
  /-- Something has moved in this round. -/
  moved : Bool

namespace Scene

variable {W T α : Type}

/-- Tasks that begin now, with what is left of an allowance. -/
def start (now allowance : Nat) (world : W) (tasks : List T) : Scene W T :=
  { now
    world
    lanes := (tasks.map fun task => { watched := .new task, done := none }).toArray
    ready := if tasks.length ≤ Schedule.few then none else some (List.range tasks.length)
    putOff := []
    looks := 0
    allowance
    moved := false }

/-- The number of tasks that are not done. -/
def unfinished (scene : Scene W T) : Nat :=
  scene.lanes.toList.countP fun lane => lane.done.isNone

/-- The tasks, and when they were done; one that is not done would be done now. -/
def times (scene : Scene W T) : List (T × Nat) :=
  scene.lanes.toList.map fun lane => (lane.watched.state, lane.done.getD scene.now)

/-- Some lanes are ready, after those that are. -/
def call (scene : Scene W T) (positions : List Nat) : Scene W T :=
  { scene with
    ready := scene.ready.map fun ready =>
      positions.foldl
        (fun ready position => if position ∈ ready then ready else ready ++ [position]) ready }

/-- The lanes whose tasks wait for some news. -/
def waitingFor (scene : Scene W T) (task : Operation W T α) (news : News) : List Nat :=
  (scene.lanes.toList.zipIdx.filter fun (lane, _) =>
    lane.done.isNone && (task.wait? lane.watched.state).any news.ends).map (·.2)

/-- The alarms of lanes that are not done: when, their numbers, and the lanes. -/
def alarms (scene : Scene W T) : List (Nat × Nat × Nat) :=
  (scene.lanes.toList.zipIdx.filter fun (lane, _) => lane.done.isNone).flatMap
    fun (lane, position) =>
      lane.watched.alarms.map fun (alarm, number) => (alarm.due, number, position)

/-- The lanes whose alarms ring up to now, in the order of the alarms. -/
def due (scene : Scene W T) : List Nat :=
  let due := scene.alarms.filter fun alarm => alarm.1 ≤ scene.now
  (due.mergeSort fun a b => a.1 < b.1 || (a.1 = b.1 && a.2.1 ≤ b.2.1)).map (·.2.2)

end Scene

namespace Schedule

variable {W T α : Type}

/-- The lanes that wait for the news there are become ready. -/
def spread (schedule : Schedule W T α) (scene : Scene W T) : Scene W T :=
  let (news, world) := schedule.takeNews scene.world
  ({ scene with world } : Scene W T).call
    (if scene.ready.isSome then news.flatMap (scene.waitingFor schedule.task) else [])

/-- A look at a lane that is not done. -/
def lookAt (schedule : Schedule W T α) (scene : Scene W T) (position : Nat) (lane : Lane T) :
    Scene W T :=
  let look := schedule.task.look scene.now scene.looks scene.allowance scene.world lane.watched
  let done := (schedule.task.ending? look.watched.state).map fun _ => scene.now
  schedule.spread
    { scene with
      world := look.shared
      lanes := scene.lanes.setIfInBounds position { watched := look.watched, done }
      putOff := if look.putOff then position :: scene.putOff else scene.putOff
      looks := scene.looks + 1
      allowance := look.allowance
      moved := scene.moved || look.moved }

/-- A look at all lanes that are not done. -/
def lookAtAll (schedule : Schedule W T α) (scene : Scene W T) : Scene W T :=
  (List.range scene.lanes.size).foldl
    (fun scene position =>
      match scene.lanes[position]? with
      | some lane => if lane.done.isSome then scene else schedule.lookAt scene position lane
      | none => scene)
    scene

/-- A look at the lanes that are ready, until there are none or as many were looked at since the
last one was done as are left. -/
def lookAtReady (schedule : Schedule W T α) : Nat → Nat → Scene W T → Scene W T
  | 0, _, scene => scene
  | fuel + 1, looked, scene =>
    match scene.ready with
    | none => scene
    | some [] => scene
    | some (position :: ready) =>
      let scene := { scene with ready := some ready }
      match scene.lanes[position]? with
      | none => lookAtReady schedule fuel looked scene
      | some lane =>
        if lane.done.isSome then lookAtReady schedule fuel looked scene
        else
          let left := scene.unfinished
          let scene := schedule.lookAt scene position lane
          if scene.unfinished < left then lookAtReady schedule fuel 0 scene
          else if looked + 1 = left then scene
          else lookAtReady schedule fuel (looked + 1) scene

/-- The look at the foreground with which a round begins. -/
def lookAtFront (schedule : Schedule W T α) (scene : Scene W T) : Scene W T :=
  let scene := { scene with moved := false }
  match scene.ready with
  | none => schedule.lookAtAll scene
  | some _ =>
    let bound := scene.lanes.size + 2
    schedule.lookAtReady (bound * bound) 0 scene

/-- Some turns of the background, and whether there were any. -/
def runTurns (schedule : Schedule W T α) (now : Nat) : Nat → W → W × Bool
  | 0, world => (world, false)
  | count + 1, world =>
    if schedule.isIdle now world then (world, false)
    else ((runTurns schedule now count (schedule.turn now world)).1, true)

/-- The turns that the background has in a round. -/
def giveTurns (schedule : Schedule W T α) (scene : Scene W T) : Scene W T :=
  let (world, moved) := schedule.runTurns scene.now turnsInARow scene.world
  schedule.spread { scene with world, moved := scene.moved || moved }

/-- The end of a round: those who were put off are ready again, and the next look has an allowance
of its own. -/
def endRound (schedule : Schedule W T α) (scene : Scene W T) : Scene W T :=
  let resumed := schedule.resume? scene.world
  let called := scene.call scene.putOff
  { called with
    world := resumed.getD scene.world
    putOff := []
    allowance
    moved := scene.moved || !scene.putOff.isEmpty || resumed.isSome ||
      called.ready.any fun ready => !ready.isEmpty }

/-- The earliest alarm of all. -/
def nextTime? (schedule : Schedule W T α) (scene : Scene W T) : Option Nat :=
  (scene.alarms.map (·.1) ++ (schedule.nextAlarm? scene.world).toList).min?

/-- The clock moves, and the alarms up to a time ring. -/
def ringAt (schedule : Schedule W T α) (scene : Scene W T) (time : Nat) : Scene W T :=
  let now := max scene.now time
  let scene := { scene with now, world := schedule.ring now scene.world }
  scene.call scene.due

/-- The scene when all tasks are done, or when the fuel is used up: in each round something moves
or the clock does after it. -/
def runScene (schedule : Schedule W T α) : Nat → Scene W T → Scene W T
  | 0, scene => scene
  | fuel + 1, scene =>
    let scene := schedule.lookAtFront scene
    if scene.unfinished = 0 then scene
    else
      let scene := schedule.endRound (schedule.giveTurns scene)
      if scene.moved then runScene schedule fuel scene
      else
        match schedule.nextTime? scene with
        | none => scene
        | some time => runScene schedule fuel (schedule.ringAt scene time)

/-- Runs tasks that start now with what is left of an allowance; `steps` is a bound for all steps
that the tasks and the background can have. -/
def run (schedule : Schedule W T α) (steps now left : Nat) (world : W) (tasks : List T) :
    Scene W T :=
  schedule.runScene (4 * (steps + tasks.length) + 4) (.start now left world tasks)

/-- What is left of an allowance after a rest: a rest of some length ends in a look of its own. -/
def afterRest (millis left : Nat) : Nat :=
  (if millis = 0 ∧ 0 < left then left else allowance) - 1

end Schedule

end Clearing
