import Clearing.Proofs.Operation.Clock
import Clearing.Proofs.Session.Alone

/-!
# Commands that have the clock to themselves

A schedule with a single task and an idle background does what the task does while nobody else
moves (`Schedule.Solitary.run_of_comesTo`): in the first round of each moment the task makes all
the steps that there are, in the second one it makes none, and then the clock moves to the
earliest alarm.

## Strategy

A look leaves the alarms set that there are (`Look.goOn_of_acts`), and nothing but these rings.
What is left to do bounds the number of steps, and every alarm is followed by a step; so the
proof is by induction on what is left to do, and the fuel of a schedule is enough.
-/

namespace Clearing

variable {σ ω α : Type}

/-! ## Looks -/

namespace Watched

variable {operation : Operation σ ω α} {watched : Watched ω}

/-- No alarm is set that there is not. -/
def Tidy (operation : Operation σ ω α) (watched : Watched ω) : Prop :=
  ∀ entry ∈ watched.alarms, entry.1 ∈ operation.alarms watched.state

/-- The alarms that are set are those that there are. -/
structure Attends (operation : Operation σ ω α) (watched : Watched ω) : Prop where
  tidy : watched.Tidy operation
  set : ∀ alarm ∈ operation.alarms watched.state, ∃ entry ∈ watched.alarms, entry.1 = alarm

theorem tidy_new (operation : Operation σ ω α) (state : ω) : (new state).Tidy operation := nofun

theorem tidy_become (operation : Operation σ ω α) (watched : Watched ω) (state : ω) :
    (watched.become operation state).Tidy operation := fun _ hentry =>
  of_decide_eq_true (List.mem_filter.mp hentry).2

/-- To set all alarms that there are turns none off. -/
theorem Tidy.attends (htidy : watched.Tidy operation) (number : Nat) :
    (watched.set number (operation.alarms watched.state)).Attends operation where
  tidy entry hentry := by
    rcases List.mem_append.mp hentry with hold | hnew
    · exact htidy entry hold
    · obtain ⟨alarm, halarm, rfl⟩ := List.mem_map.mp hnew
      exact (List.mem_filter.mp halarm).1
  set alarm halarm := by
    by_cases hset : watched.isSet alarm = true
    · obtain ⟨entry, hentry, hsame⟩ := List.any_eq_true.mp hset
      exact ⟨entry, List.mem_append_left _ hentry, of_decide_eq_true hsame⟩
    · refine ⟨(alarm, number), List.mem_append_right _ (List.mem_map.mpr ⟨alarm, ?_, rfl⟩), rfl⟩
      exact List.mem_filter.mpr ⟨halarm, by simp [hset]⟩

end Watched

/-- The operation gets from one state to the other in so many steps, all at one time. -/
inductive Operation.Acts (operation : Operation σ ω α) (now : Nat) : Nat → σ × ω → σ × ω → Prop
  | stay {point : σ × ω} : Acts operation now 0 point point
  | go {count : Nat} {before middle after : σ × ω}
      (hstep : operation.step? now before.1 before.2 = some middle)
      (hrest : Acts operation now count middle after) : Acts operation now (count + 1) before after

theorem Operation.price_le_one (operation : Operation σ ω α) (state : ω) :
    operation.price state ≤ 1 := by
  unfold price
  split
  · exact Nat.zero_le 1
  · exact Nat.le_refl 1

namespace Look

variable {operation : Operation σ ω α} {now number : Nat} {heeding : Bool}

/-- **A look takes all the steps that there are**, as long as the allowance lasts.  If it ends at a
wait then the alarms that are set are those that there are. -/
theorem goOn_of_acts {count : Nat} {before after : σ × ω}
    (hacts : operation.Acts now count before after)
    (hstep : operation.step? now after.1 after.2 = none) {fuel : Nat} {look : Look σ ω}
    (hshared : look.shared = before.1) (hstate : look.watched.state = before.2)
    (htidy : look.watched.Tidy operation) (hfuel : count < fuel)
    (hallowance : count < look.allowance) :
    ∃ watched allowance, goOn operation now number heeding fuel look =
        { look with
          shared := after.1, watched, allowance, moved := look.moved || decide (0 < count) } ∧
      watched.state = after.2 ∧ watched.Tidy operation ∧
      (operation.wait? after.2 ≠ none → watched.Attends operation) := by
  induction hacts generalizing fuel look with
  | stay =>
      obtain ⟨shared, watched, allowance, moved, putOff⟩ := look
      dsimp only at hshared hstate htidy hallowance
      subst hshared
      rw [← hstate] at hstep ⊢
      obtain ⟨fuel, rfl⟩ : ∃ less, fuel = less + 1 := ⟨fuel - 1, by omega⟩
      cases hwait : operation.wait? watched.state with
      | none =>
          refine ⟨watched, allowance, ?_, rfl, htidy, fun hsome => absurd rfl hsome⟩
          simp only [goOn, hwait, hstep, Nat.lt_irrefl, decide_false, Bool.or_false]
      | some wait =>
          have hattends := htidy.attends number
          refine ⟨watched.set number (operation.alarms watched.state), allowance, ?_, rfl,
            hattends.tidy, fun _ => hattends⟩
          simp only [goOn, hwait, hstep, if_pos hallowance, Nat.lt_irrefl, decide_false,
            Bool.or_false]
  | @go count before middle after hmove hrest ih =>
      obtain ⟨shared, watched, allowance, moved, putOff⟩ := look
      dsimp only at hshared hstate htidy hallowance
      subst hshared
      rw [← hstate] at hmove
      obtain ⟨fuel, rfl⟩ : ∃ less, fuel = less + 1 := ⟨fuel - 1, by omega⟩
      have hbecome := Watched.tidy_become operation watched middle.2
      cases hwait : operation.wait? watched.state with
      | none =>
          obtain ⟨seen, left, hlook, hseen⟩ := @ih hstep fuel
            { shared := middle.1, watched := watched.become operation middle.2, allowance,
              moved := true, putOff }
            rfl rfl hbecome (by omega) (by dsimp only; omega)
          refine ⟨seen, left, ?_, hseen⟩
          simp only [goOn, hwait, hmove, become]
          rw [hlook]
          simp
      | some wait =>
          have hprice := operation.price_le_one middle.2
          have hleft : allowance - operation.price middle.2 ≠ 0 := by omega
          obtain ⟨seen, left, hlook, hseen⟩ := @ih hstep fuel
            { shared := middle.1, watched := watched.become operation middle.2,
              allowance := allowance - operation.price middle.2, moved := true, putOff }
            rfl rfl hbecome (by omega) (by dsimp only; omega)
          refine ⟨seen, left, ?_, hseen⟩
          simp only [goOn, hwait, hmove, passWait, become, if_neg hleft,
            if_pos (Nat.lt_of_le_of_lt (Nat.zero_le _) hallowance)]
          rw [hlook]
          simp

end Look

theorem Operation.ComesTo.of_acts {operation : Operation σ ω α} {now count time : Nat}
    {before after : σ × ω} {ending : Ending α} {shared : σ}
    (hcomes : operation.ComesTo ⟨now, before.1, before.2⟩ ending time shared)
    (hacts : operation.Acts now count before after) :
    operation.ComesTo ⟨now, after.1, after.2⟩ ending time shared := by
  induction hacts with
  | stay => exact hcomes
  | go hstep _ ih => exact ih (hcomes.of_advances (.acts hstep))

/-! ## Rounds -/

variable {W T : Type}

/-- Nothing is to happen in the background, and there are no news from there. -/
structure Schedule.Unstirred (schedule : Schedule W T α) (world : W) : Prop where
  news : schedule.takeNews world = ([], world)
  idle (now : Nat) : schedule.isIdle now world = true
  resume : schedule.resume? world = none
  alarm : schedule.nextAlarm? world = none
  ring (now : Nat) : schedule.ring now world = world

/-- A single task, and when it was done. -/
def Scene.sole (now : Nat) (world : W) (watched : Watched T) (done : Option Nat)
    (looks allowance : Nat) (moved : Bool) : Scene W T :=
  { now, world, lanes := #[⟨watched, done⟩], ready := none, putOff := [], looks, allowance, moved }

namespace Schedule

variable {schedule : Schedule W T α} {now looks allowance fuel : Nat} {world last : W} {final : T}
  {watched : Watched T} {moved : Bool} {scene front after : Scene W T}

theorem runScene_of_ended (hfront : schedule.lookAtFront scene = front)
    (hended : front.unfinished = 0) : schedule.runScene (fuel + 1) scene = front := by
  simp only [runScene, hfront, hended, if_true]

theorem runScene_of_moved (hfront : schedule.lookAtFront scene = front)
    (hopen : front.unfinished ≠ 0) (hround : schedule.endRound (schedule.giveTurns front) = after)
    (hmoved : after.moved = true) :
    schedule.runScene (fuel + 1) scene = schedule.runScene fuel after := by
  simp only [runScene, hfront, if_neg hopen, hround, hmoved, if_true]

theorem runScene_of_still (hfront : schedule.lookAtFront scene = front)
    (hopen : front.unfinished ≠ 0) (hround : schedule.endRound (schedule.giveTurns front) = after)
    (hmoved : after.moved = false) {due : Nat} (hdue : schedule.nextTime? after = some due) :
    schedule.runScene (fuel + 1) scene = schedule.runScene fuel (schedule.ringAt after due) := by
  simp only [runScene, hfront, if_neg hopen, hround, hmoved, Bool.false_eq_true, if_false, hdue]

/-- The look with which a round begins. -/
theorem lookAtFront_sole (hquiet : schedule.Unstirred last) {count : Nat}
    (hacts : schedule.task.Acts now count (world, watched.state) (last, final))
    (hstep : schedule.task.step? now last final = none) (htidy : watched.Tidy schedule.task)
    (hfuel : count ≤ schedule.task.effort watched.state) (hallowance : count < allowance) :
    ∃ seen left, schedule.lookAtFront (.sole now world watched none looks allowance moved) =
        .sole now last seen ((schedule.task.ending? final).map fun _ => now) (looks + 1) left
          (0 < count) ∧
      seen.state = final ∧ seen.Tidy schedule.task ∧
      (schedule.task.wait? final ≠ none → seen.Attends schedule.task) := by
  obtain ⟨seen, left, hlook, hstate, hseen⟩ := @Look.goOn_of_acts _ _ _ _ _ looks
    (decide (0 < allowance)) _ _ _ hacts hstep _
    { shared := world, watched, allowance, moved := false, putOff := false }
    rfl rfl htidy (Nat.lt_succ_of_le hfuel) hallowance
  refine ⟨seen, left, ?_, hstate, hseen⟩
  have hfront := @lookAtFront_single _ _ _ schedule
    (.sole now world watched none looks allowance moved) _ rfl rfl rfl _ hlook
  rw [hfront, hstate, hquiet.news, Bool.false_or]
  rfl

/-- The rest of a round in which nothing happens in the background. -/
theorem endRound_sole (hquiet : schedule.Unstirred world) (now looks allowance : Nat)
    (watched : Watched T) (moved : Bool) :
    schedule.endRound (schedule.giveTurns (.sole now world watched none looks allowance moved)) =
      .sole now world watched none looks Schedule.allowance moved := by
  have hturns : schedule.runTurns now turnsInARow world = (world, false) := by
    simp only [turnsInARow, runTurns, hquiet.idle, if_true]
  simp [giveTurns, endRound, spread, Scene.sole, Scene.call, hturns, hquiet.news, hquiet.resume]

/-- The next alarm is the earliest one of the task. -/
theorem nextTime?_sole (hquiet : schedule.Unstirred world)
    (hattends : watched.Attends schedule.task) {due : Nat} (hdue : schedule.task.IsNextDue watched.state due) (now looks allowance : Nat)
    (moved : Bool) :
    schedule.nextTime? (.sole now world watched none looks allowance moved) = some due := by
  have halarms : (Scene.sole now world watched none looks allowance moved).alarms.map (·.1) =
      watched.alarms.map fun entry => entry.1.due := by
    simp [Scene.alarms, Scene.sole]
  have hnext : schedule.nextTime? (.sole now world watched none looks allowance moved) =
      (watched.alarms.map fun entry => entry.1.due).min? := by
    unfold nextTime?
    rw [halarms]
    simp only [Scene.sole, hquiet.alarm, Option.toList_none, List.append_nil]
  rw [hnext, List.min?_eq_some_iff]
  constructor
  · obtain ⟨alarm, halarm, hrings⟩ := hdue.rings
    obtain ⟨entry, hentry, hsame⟩ := hattends.set alarm halarm
    exact List.mem_map.mpr ⟨entry, hentry, by rw [hsame, hrings]⟩
  · intro time htime
    obtain ⟨entry, hentry, rfl⟩ := List.mem_map.mp htime
    exact hdue.earliest entry.1 (hattends.tidy entry hentry)

theorem ringAt_sole (hquiet : schedule.Unstirred world) (looks allowance : Nat)
    (watched : Watched T) (moved : Bool) {due : Nat} (hlater : now < due) :
    schedule.ringAt (.sole now world watched none looks allowance moved) due =
      .sole due world watched none looks allowance moved := by
  simp [ringAt, Scene.sole, Scene.call, hquiet.ring, Nat.max_eq_right (Nat.le_of_lt hlater)]

/-- After a round in which the task made steps there is another one. -/
theorem runScene_of_acts (hquiet : schedule.Unstirred last) {count : Nat}
    (hacts : schedule.task.Acts now count (world, watched.state) (last, final))
    (hstep : schedule.task.step? now last final = none) (htidy : watched.Tidy schedule.task)
    (hfuel : count ≤ schedule.task.effort watched.state) (hallowance : count < allowance)
    (hending : schedule.task.ending? final = none) (hcount : 0 < count) (fuel : Nat) :
    ∃ seen, schedule.runScene (fuel + 1) (.sole now world watched none looks allowance moved) =
        schedule.runScene fuel (.sole now last seen none (looks + 1) Schedule.allowance true) ∧
      seen.state = final ∧ seen.Tidy schedule.task := by
  obtain ⟨seen, left, hfront, hstate, hseen, -⟩ :=
    lookAtFront_sole hquiet hacts hstep htidy hfuel hallowance
  rw [hending, Option.map_none, decide_eq_true hcount] at hfront
  exact ⟨seen, runScene_of_moved hfront Nat.one_ne_zero (endRound_sole hquiet ..) rfl, hstate,
    hseen⟩

/-- After a round in which it made none the clock moves to the earliest alarm. -/
theorem runScene_of_waits (hquiet : schedule.Unstirred world)
    (hstep : schedule.task.step? now world watched.state = none)
    (htidy : watched.Tidy schedule.task) (hallowance : 0 < allowance)
    (hending : schedule.task.ending? watched.state = none)
    (hwait : schedule.task.wait? watched.state ≠ none) {due : Nat}
    (hdue : schedule.task.IsNextDue watched.state due) (hlater : now < due) (fuel : Nat) :
    ∃ seen, schedule.runScene (fuel + 1) (.sole now world watched none looks allowance moved) =
        schedule.runScene fuel (.sole due world seen none (looks + 1) Schedule.allowance false) ∧
      seen.state = watched.state ∧ seen.Tidy schedule.task := by
  obtain ⟨seen, left, hfront, hstate, htidy', hattends⟩ :=
    lookAtFront_sole hquiet .stay hstep htidy (Nat.zero_le _) hallowance
  rw [hending, Option.map_none, decide_eq_false (Nat.lt_irrefl 0)] at hfront
  have hnext := nextTime?_sole hquiet (hattends hwait) (hstate ▸ hdue)
  refine ⟨seen, ?_, hstate, htidy'⟩
  rw [← ringAt_sole hquiet (looks + 1) Schedule.allowance seen false hlater]
  exact runScene_of_still hfront Nat.one_ne_zero (endRound_sole hquiet ..) rfl (hnext ..)

/-- A task that may have a schedule to itself: the background is idle whatever the task does, what
is left to do bounds the steps of the task, and unless it has ended it makes a step or waits
for its alarms, each of which is followed by a step. -/
structure Solitary (schedule : Schedule W T α) (holds : W → T → Prop) (left : T → Nat) : Prop where
  quiet {world : W} {task : T} (hholds : holds world task) : schedule.Unstirred world
  keeps {now : Nat} {world next : W} {task later : T} (hholds : holds world task)
    (hstep : schedule.task.step? now world task = some (next, later)) : holds next later
  less {now : Nat} {world next : W} {task later : T} (hholds : holds world task)
    (hstep : schedule.task.step? now world task = some (next, later)) : left later < left task
  effort {world : W} {task : T} (hholds : holds world task) : left task ≤ schedule.task.effort task
  few {world : W} {task : T} (hholds : holds world task) : left task < Schedule.allowance
  waits {now : Nat} {world : W} {task : T} (hholds : holds world task)
    (hstep : schedule.task.step? now world task = none)
    (hending : schedule.task.ending? task = none) : schedule.task.wait? task ≠ none
  rings {due : Nat} {world : W} {task : T} (hholds : holds world task)
    (hdue : schedule.task.IsNextDue task due) : (schedule.task.step? due world task).isSome

namespace Solitary

variable {holds : W → T → Prop} {left : T → Nat} {task : T} {ending : Ending α} {time : Nat}

/-- The task makes all the steps that there are at a time. -/
theorem exists_acts (hsolitary : schedule.Solitary holds left) (hholds : holds world task)
    (now : Nat) : ∃ count last final, schedule.task.Acts now count (world, task) (last, final) ∧
      schedule.task.step? now last final = none ∧ holds last final ∧
      count + left final ≤ left task := by
  induction hleft : left task using Nat.strongRecOn generalizing world task with
  | _ bound ih =>
      cases hstep : schedule.task.step? now world task with
      | none => exact ⟨0, world, task, .stay, hstep, hholds, by omega⟩
      | some middle =>
          have hless := hsolitary.less hholds hstep
          obtain ⟨count, last, final, hacts, hstuck, hfinal, hcount⟩ :=
            ih (left middle.2) (hleft ▸ hless) (hsolitary.keeps hholds hstep) rfl
          exact ⟨count + 1, last, final, .go hstep hacts, hstuck, hfinal, by omega⟩

/-- From a wait on the schedule gets to where the task gets to. -/
theorem runScene_of_comesTo (hsolitary : schedule.Solitary holds left)
    (hholds : holds world watched.state)
    (hstep : schedule.task.step? now world watched.state = none)
    (hopen : schedule.task.ending? watched.state = none) (htidy : watched.Tidy schedule.task)
    (hallowance : 0 < allowance)
    (hcomes : schedule.task.ComesTo ⟨now, world, watched.state⟩ ending time last)
    (hfuel : 2 * left watched.state ≤ fuel) :
    ∃ seen looks' left' moved',
      schedule.runScene fuel (.sole now world watched none looks allowance moved) =
        .sole time last seen (some time) looks' left' moved' ∧
      schedule.task.ending? seen.state = some ending := by
  induction hbound : left watched.state using Nat.strongRecOn generalizing
    now world watched looks allowance moved fuel with
  | _ bound ih =>
      obtain ⟨due, hdue, hlater, hrest⟩ := hcomes.exists_due hstep hopen
      have hrings := hsolitary.rings hholds hdue
      obtain ⟨count, middle, final, hacts, hstuck, hfinal, hcount⟩ :=
        hsolitary.exists_acts hholds due
      have hpos : 0 < count := by
        cases hacts with
        | stay =>
            rw [hstuck] at hrings
            cases hrings
        | go => exact Nat.succ_pos _
      obtain ⟨fuel, rfl⟩ : ∃ less, fuel = less + 2 := ⟨fuel - 2, by omega⟩
      obtain ⟨seen, hround, hstate, htidy'⟩ := runScene_of_waits (hsolitary.quiet hholds) hstep
        htidy hallowance hopen (hsolitary.waits hholds hstep hopen) hdue hlater (fuel + 1)
      have hafter := hrest.of_acts hacts
      have hfew : count < Schedule.allowance :=
        Nat.lt_of_le_of_lt (by omega) (hsolitary.few hholds)
      have hsteps : count ≤ schedule.task.effort seen.state := by
        rw [hstate]
        exact Nat.le_trans (by omega) (hsolitary.effort hholds)
      rw [← hstate] at hacts
      rw [hround]
      cases hended : schedule.task.ending? final with
      | none =>
          obtain ⟨next, hnext, hsame, htidy''⟩ := runScene_of_acts (hsolitary.quiet hfinal) hacts
            hstuck htidy' hsteps hfew hended hpos fuel
          rw [hnext]
          rw [← hsame] at hfinal hstuck hended hafter hcount
          exact ih _ (by omega) hfinal hstuck hended htidy'' (by decide) hafter (by omega) rfl
      | some other =>
          obtain ⟨rfl, rfl, rfl⟩ := Operation.ComesTo.unique ⟨final, .refl, hended, hstuck⟩ hafter
          obtain ⟨final', left', hfront, hsame, -⟩ := lookAtFront_sole (hsolitary.quiet hfinal)
            hacts hstuck htidy' hsteps hfew
          rw [hended, Option.map_some] at hfront
          exact ⟨final', _, left', _, runScene_of_ended hfront rfl, hsame ▸ hended⟩

/-- **A task that has the schedule to itself comes to what it comes to while nobody else moves**,
and at the same time. -/
theorem run_of_comesTo (hsolitary : schedule.Solitary holds left) (hholds : holds world task)
    (hcomes : schedule.task.ComesTo ⟨now, world, task⟩ ending time last) {steps : Nat}
    (hsteps : left task ≤ steps) (hallowance : left task < allowance) :
    ∃ seen looks left moved, schedule.run steps now allowance world [task] =
        .sole time last seen (some time) looks left moved ∧
      schedule.task.ending? seen.state = some ending := by
  obtain ⟨count, middle, final, hacts, hstuck, hfinal, hcount⟩ := hsolitary.exists_acts hholds now
  have hafter := hcomes.of_acts hacts
  have htidy := Watched.tidy_new schedule.task task
  have heffort := hsolitary.effort hholds
  have hfuel : count ≤ schedule.task.effort task := by omega
  have hfew : count < allowance := by omega
  have hrun : schedule.run steps now allowance world [task] =
      schedule.runScene (4 * (steps + 1) + 3 + 1)
        (.sole now world (.new task) none 0 allowance false) := rfl
  rw [hrun]
  cases hended : schedule.task.ending? final with
  | none =>
      rcases Nat.eq_zero_or_pos count with rfl | hpos
      · cases hacts
        exact hsolitary.runScene_of_comesTo hholds hstuck hended htidy hfew hcomes
          (by dsimp only [Watched.new]; omega)
      · obtain ⟨seen, hround, hstate, htidy'⟩ := runScene_of_acts (hsolitary.quiet hfinal) hacts
          hstuck htidy hfuel hfew hended hpos (4 * (steps + 1) + 3)
        rw [hround]
        rw [← hstate] at hfinal hstuck hended hafter hcount
        exact hsolitary.runScene_of_comesTo hfinal hstuck hended htidy' (by decide) hafter
          (by omega)
  | some other =>
      obtain ⟨rfl, rfl, rfl⟩ := Operation.ComesTo.unique ⟨final, .refl, hended, hstuck⟩ hafter
      obtain ⟨seen, left, hfront, hstate, -⟩ := lookAtFront_sole (hsolitary.quiet hfinal) hacts
        hstuck htidy hfuel hfew
      rw [hended, Option.map_some] at hfront
      exact ⟨seen, _, left, _, runScene_of_ended hfront rfl, hstate ▸ hended⟩

end Solitary

end Schedule

/-- **What a command comes to that has the pipeline to itself.** -/
theorem Session.tell_of_comesTo {session : Session} {command : Command}
    {holds : Workplace → Task → Prop} {left : Task → Nat} {reply : Reply} {time : Nat}
    {last : Workplace} (hsolitary : (Task.schedule session.pipeline).Solitary holds left)
    (hholds : holds (.new session.pipeline) (.new command))
    (hcomes : (Task.operation session.pipeline).ComesTo
      ⟨session.now, .new session.pipeline, .new command⟩ (.returned (.ok reply)) time last)
    (hsteps : left (.new command) ≤ Task.commandEffort session.pipeline command)
    (hallowance : left (.new command) < session.allowance) :
    ∃ allowance, session.tell command =
      (some reply, { now := time, allowance, pipeline := last.pipeline }) := by
  have htotal : sumOf ([command].map (Task.commandEffort session.pipeline)) =
      Task.commandEffort session.pipeline command := by
    simp
  obtain ⟨seen, looks, left, moved, hrun, hending⟩ :=
    hsolitary.run_of_comesTo hholds hcomes (htotal ▸ hsteps) hallowance
  have hreply : seen.state.reply? = some reply := by
    obtain ⟨other, hother, hsame⟩ := Option.map_eq_some_iff.mp hending
    cases hsame
    exact hother
  refine ⟨left, ?_⟩
  simp only [tell, perform, List.map_cons, List.map_nil] at hrun ⊢
  rw [hrun]
  simp only [Scene.times, Scene.sole, List.map_cons, List.map_nil, List.head?_cons,
    Option.map_some, Option.join_some, hreply]

end Clearing
