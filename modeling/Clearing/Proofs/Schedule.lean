import Clearing.Schedule

/-!
# What a schedule keeps

A schedule decides who moves and when, and nothing else.  So a property of the
time, the world and the tasks holds at the end of a schedule if it held at its
beginning and each single thing that can happen keeps it: the clock goes on, a
task makes a step or is cut short while it waits, and whatever the background
does (`Schedule.Keeps.run`).

## Strategy

The rule is proved for a look at one operation first (`Look.Keeps.goOn`), and
then in layers, for a look at a lane, at all lanes or at those that are ready,
and for a round.  What a schedule notes about its lanes is no part of the
property.
-/

namespace Clearing

/-! ## Looks -/

namespace Look

variable {σ ω α : Type} {operation : Operation σ ω α} {now : Nat} {holds : σ → ω → Prop}

/-- What can happen in a look at an operation keeps a property. -/
structure Keeps (operation : Operation σ ω α) (now : Nat) (holds : σ → ω → Prop) : Prop where
  step {shared next : σ} {state later : ω} (hholds : holds shared state)
    (hstep : operation.step? now shared state = some (next, later)) : holds next later
  cut {shared : σ} {state later : ω} {chosen : Deadline → Bool} (hholds : holds shared state)
    (hwait : operation.wait? state ≠ none) (hcut : operation.cut? chosen state = some later) :
    holds shared later

theorem Keeps.goOn (hkeeps : Keeps operation now holds) (number : Nat) (heeding : Bool)
    (fuel : Nat) (look : Look σ ω) (hholds : holds look.shared look.watched.state) :
    holds (Look.goOn operation now number heeding fuel look).shared
      (Look.goOn operation now number heeding fuel look).watched.state := by
  -- The fuel bounds the steps of the look; each of them keeps the property.
  induction fuel generalizing look with
  | zero => exact hholds
  | succ fuel ih =>
      unfold Look.goOn
      split
      · split
        · rename_i hstep
          exact ih _ (hkeeps.step hholds hstep)
        · exact hholds
      · rename_i hwait
        split
        · split
          · rename_i shared state hstep
            refine ih _ ?_
            have hnext := hkeeps.step hholds hstep
            unfold passWait
            dsimp only
            split <;> exact hnext
          · exact hholds
        · dsimp only
          split
          · -- Only who waits is cut short.
            rename_i state hcut
            obtain ⟨-, hcut⟩ := Option.ite_none_right_eq_some.mp hcut
            have hwaits : operation.wait? look.watched.state ≠ none := by
              rw [hwait]
              exact Option.some_ne_none _
            exact ih _ (hkeeps.cut hholds hwaits hcut)
          · exact hholds

/-- A look keeps what can happen in it keeps. -/
theorem Keeps.look (hkeeps : Keeps operation now holds) (number allowance : Nat) {shared : σ}
    {watched : Watched ω} (hholds : holds shared watched.state) :
    holds (operation.look now number allowance shared watched).shared
      (operation.look now number allowance shared watched).watched.state :=
  hkeeps.goOn number _ _ _ hholds

end Look

/-! ## Schedules -/

namespace Schedule

variable {W T α : Type} {schedule : Schedule W T α} {holds : Nat → W → List T → Prop}

/-- What can happen in a schedule keeps a property of the time, the world and the tasks. -/
structure Keeps (schedule : Schedule W T α) (holds : Nat → W → List T → Prop) : Prop where
  pass {now later : Nat} {world : W} {tasks : List T} (hholds : holds now world tasks)
    (hlater : now ≤ later) : holds later world tasks
  takeNews {now : Nat} {world : W} {tasks : List T} (hholds : holds now world tasks) :
    holds now (schedule.takeNews world).2 tasks
  turn {now : Nat} {world : W} {tasks : List T} (hholds : holds now world tasks) :
    holds now (schedule.turn now world) tasks
  resume {now : Nat} {world resumed : W} {tasks : List T} (hholds : holds now world tasks)
    (hresume : schedule.resume? world = some resumed) : holds now resumed tasks
  ring {now : Nat} {world : W} {tasks : List T} (hholds : holds now world tasks) :
    holds now (schedule.ring now world) tasks
  step {now position : Nat} {world next : W} {tasks : List T} {task later : T}
    (hholds : holds now world tasks) (htask : tasks[position]? = some task)
    (hstep : schedule.task.step? now world task = some (next, later)) :
    holds now next (tasks.set position later)
  cut {now position : Nat} {world : W} {tasks : List T} {task later : T}
    {chosen : Deadline → Bool} (hholds : holds now world tasks)
    (htask : tasks[position]? = some task) (hwait : schedule.task.wait? task ≠ none)
    (hcut : schedule.task.cut? chosen task = some later) :
    holds now world (tasks.set position later)

end Schedule

/-- The tasks of a scene. -/
def Scene.tasks {W T : Type} (scene : Scene W T) : List T :=
  scene.lanes.toList.map fun lane => lane.watched.state

namespace Schedule.Keeps

variable {W T α : Type} {schedule : Schedule W T α} {holds : Nat → W → List T → Prop}
  (hkeeps : schedule.Keeps holds) {scene : Scene W T}

/-- A property of a scene. -/
private abbrev At (holds : Nat → W → List T → Prop) (scene : Scene W T) : Prop :=
  holds scene.now scene.world scene.tasks

include hkeeps

/-- A look at a task in its place among the others keeps the property. -/
private theorem look {now position : Nat} {tasks : List T} (hposition : position < tasks.length) :
    Look.Keeps schedule.task now fun world task => holds now world (tasks.set position task) where
  step hholds hstep := by
    have hnext := hkeeps.step hholds (List.getElem?_set_self hposition) hstep
    rwa [List.set_set] at hnext
  cut hholds hwait hcut := by
    have hnext := hkeeps.cut hholds (List.getElem?_set_self hposition) hwait hcut
    rwa [List.set_set] at hnext

private theorem spread (hholds : At holds scene) : At holds (schedule.spread scene) :=
  hkeeps.takeNews hholds

private theorem lookAt {position : Nat} {lane : Lane T} (hholds : At holds scene)
    (hlane : scene.lanes[position]? = some lane) :
    At holds (schedule.lookAt scene position lane) := by
  have htask : scene.tasks[position]? = some lane.watched.state := by
    rw [Scene.tasks, List.getElem?_map, Array.getElem?_toList, hlane, Option.map_some]
  obtain ⟨hposition, hsame⟩ := List.getElem?_eq_some_iff.mp htask
  have hbefore : holds scene.now scene.world (scene.tasks.set position lane.watched.state) := by
    rwa [← hsame, List.set_getElem_self]
  have hlooked := (hkeeps.look hposition).look scene.looks scene.allowance hbefore
  refine hkeeps.spread ?_
  unfold At Scene.tasks at hlooked ⊢
  dsimp only
  rw [Array.toList_setIfInBounds, List.map_set]
  exact hlooked

private theorem lookAtAll (hholds : At holds scene) : At holds (schedule.lookAtAll scene) := by
  unfold Schedule.lookAtAll
  generalize List.range scene.lanes.size = positions
  induction positions generalizing scene with
  | nil => exact hholds
  | cons position positions ih =>
      refine ih ?_
      dsimp only
      split
      · rename_i hlane
        split
        · exact hholds
        · exact hkeeps.lookAt hholds hlane
      · exact hholds

private theorem lookAtReady (fuel looked : Nat) (hholds : At holds scene) :
    At holds (schedule.lookAtReady fuel looked scene) := by
  induction fuel generalizing looked scene with
  | zero => exact hholds
  | succ fuel ih =>
      unfold Schedule.lookAtReady
      split
      · exact hholds
      · exact hholds
      · rename_i position ready hready
        dsimp only
        split
        · exact ih _ hholds
        · rename_i lane hlane
          split
          · exact ih _ hholds
          · have hnow : At holds { scene with ready := some ready } := hholds
            have hlooked := hkeeps.lookAt hnow hlane
            split
            · exact ih _ hlooked
            · split
              · exact hlooked
              · exact ih _ hlooked

private theorem lookAtFront (hholds : At holds scene) :
    At holds (schedule.lookAtFront scene) := by
  unfold Schedule.lookAtFront
  dsimp only
  split
  · exact hkeeps.lookAtAll hholds
  · exact hkeeps.lookAtReady _ _ hholds

private theorem runTurns {now : Nat} {tasks : List T} (count : Nat) {world : W}
    (hholds : holds now world tasks) : holds now (schedule.runTurns now count world).1 tasks := by
  induction count generalizing world with
  | zero => exact hholds
  | succ count ih =>
      unfold Schedule.runTurns
      split
      · exact hholds
      · exact ih (hkeeps.turn hholds)

private theorem giveTurns (hholds : At holds scene) : At holds (schedule.giveTurns scene) :=
  hkeeps.spread (hkeeps.runTurns turnsInARow hholds)

private theorem endRound (hholds : At holds scene) : At holds (schedule.endRound scene) := by
  show holds scene.now ((schedule.resume? scene.world).getD scene.world) scene.tasks
  cases hresume : schedule.resume? scene.world with
  | none => exact hholds
  | some resumed => exact hkeeps.resume hholds hresume

private theorem ringAt (time : Nat) (hholds : At holds scene) :
    At holds (schedule.ringAt scene time) :=
  hkeeps.ring (hkeeps.pass hholds (Nat.le_max_left ..))

private theorem runScene (fuel : Nat) (hholds : At holds scene) :
    At holds (schedule.runScene fuel scene) := by
  induction fuel generalizing scene with
  | zero => exact hholds
  | succ fuel ih =>
      have hfront := hkeeps.lookAtFront hholds
      have hround := hkeeps.endRound (hkeeps.giveTurns hfront)
      unfold Schedule.runScene
      dsimp only
      split
      · exact hfront
      · split
        · exact ih hround
        · split
          · exact hround
          · exact ih (hkeeps.ringAt _ hround)

/-- **A schedule keeps what everything that can happen in it keeps.** -/
theorem run (steps now left : Nat) {world : W} {tasks : List T}
    (hholds : holds now world tasks) :
    holds (schedule.run steps now left world tasks).now
      (schedule.run steps now left world tasks).world
      (schedule.run steps now left world tasks).tasks := by
  have htasks : (Scene.start now left world tasks).tasks = tasks := by
    rw [Scene.tasks, Scene.start, List.map_map]
    simp only [Function.comp_def, Watched.new, List.map_id']
  have hstart : At holds (Scene.start now left world tasks) := by
    show holds now world _
    rwa [htasks]
  exact hkeeps.runScene (4 * (steps + tasks.length) + 4) hstart

end Schedule.Keeps

end Clearing
