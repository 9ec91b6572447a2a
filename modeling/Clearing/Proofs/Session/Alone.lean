import Clearing.Proofs.Operation.Proceeding
import Clearing.Session

/-!
# Commands that are given alone

A schedule with a single task looks at it at the beginning of each round
(`Schedule.lookAtFront_single`).  If it waits for nothing then the first look is
the last one (`Schedule.run_of_takes`), and the reply to the command is what its
task comes to by itself (`Session.tell_of_takes`).
-/

namespace Clearing

namespace Schedule

variable {W T α : Type} (schedule : Schedule W T α) {scene : Scene W T} {lane : Lane T}

/-- Where all lanes are looked at in every round the news are of no concern. -/
theorem spread_of_ready (hready : scene.ready = none) :
    schedule.spread scene = { scene with world := (schedule.takeNews scene.world).2 } := by
  simp only [spread, Scene.call, hready, Option.map_none]

/-- The look with which a round begins, if there is a single task. -/
theorem lookAtFront_single (hlanes : scene.lanes = #[lane]) (hready : scene.ready = none)
    (hdone : lane.done = none) {look : Look W T}
    (hlook : schedule.task.look scene.now scene.looks scene.allowance scene.world lane.watched =
      look) :
    schedule.lookAtFront scene =
      { scene with
        world := (schedule.takeNews look.shared).2
        lanes := #[⟨look.watched, (schedule.task.ending? look.watched.state).map fun _ =>
          scene.now⟩]
        putOff := if look.putOff then 0 :: scene.putOff else scene.putOff
        looks := scene.looks + 1
        allowance := look.allowance
        moved := look.moved } := by
  obtain ⟨now, world, lanes, ready, putOff, looks, allowance, moved⟩ := scene
  dsimp only at hlanes hready hlook
  subst hlanes hready
  simp only [lookAtFront, lookAtAll, List.size_toArray, List.length_singleton, List.range_one,
    List.foldl_cons, List.foldl_nil, List.getElem?_toArray, List.getElem?_cons_zero, hdone,
    Option.isSome_none, Bool.false_eq_true, if_false, lookAt, hlook, Bool.false_or]
  rw [spread_of_ready]
  · rfl
  · rfl

/-- The scene when a task that waits for nothing is done. -/
theorem run_of_takes {now count : Nat} {world last : W} {task final : T} {ending : Ending α}
    (htakes : schedule.task.Takes now count (world, task) (last, final))
    (hcount : count ≤ schedule.task.effort task) (hwait : schedule.task.wait? final = none)
    (hstep : schedule.task.step? now last final = none)
    (hending : schedule.task.ending? final = some ending) (steps left : Nat) :
    (schedule.run steps now left world [task]).times = [(final, now)] ∧
      (schedule.run steps now left world [task]).now = now ∧
        (schedule.run steps now left world [task]).allowance = left ∧
          (schedule.run steps now left world [task]).world = (schedule.takeNews last).2 := by
  obtain ⟨moved, hlook⟩ := Operation.look_of_takes htakes hcount hwait hstep 0 left
  have hfront : schedule.lookAtFront (.start now left world [task]) = _ :=
    schedule.lookAtFront_single
      (show (Scene.start now left world [task]).lanes = #[⟨.new task, none⟩] from rfl) rfl rfl hlook
  have hrun : schedule.run steps now left world [task] =
      schedule.lookAtFront (.start now left world [task]) := by
    unfold run
    rw [show 4 * (steps + [task].length) + 4 = (4 * (steps + [task].length) + 3) + 1 from rfl,
      runScene, hfront]
    simp only [Scene.unfinished, Watched.new, hending]
    rfl
  rw [hrun, hfront]
  refine ⟨?_, rfl, rfl, rfl⟩
  simp only [Scene.times, Watched.new, hending]
  rfl

end Schedule

/-- **What a command that waits for nothing comes to.** -/
theorem Session.tell_of_takes {session : Session} {command : Command} {count : Nat}
    {last : Workplace} {final : Task} {reply : Reply}
    (htakes : (Task.operation session.pipeline).Takes session.now count
      (.new session.pipeline, .new command) (last, final))
    (hcount : count ≤ Task.commandEffort session.pipeline command)
    (hfinal : final.state = .done reply) :
    session.tell command = (some reply, { session with pipeline := last.pipeline }) := by
  have hreply : final.reply? = some reply := by simp only [Task.reply?, hfinal]
  obtain ⟨htimes, hnow, hallowance, hworld⟩ := (Task.schedule session.pipeline).run_of_takes htakes
    hcount (by simp only [Task.schedule, Task.operation, hfinal])
    (by simp only [Task.schedule, Task.operation, Task.step?, hfinal, Option.map_none])
    (show final.reply?.map _ = _ by rw [hreply]; rfl)
    (sumOf ([command].map (Task.commandEffort session.pipeline))) session.allowance
  simp only [tell, perform, List.map_cons, List.map_nil] at htimes hnow hallowance hworld ⊢
  rw [htimes, hnow, hallowance, hworld]
  simp only [List.map_cons, List.map_nil, List.head?_cons, Option.map_some, Option.join_some,
    hreply, Task.schedule, Workplace.takeNews]

end Clearing
