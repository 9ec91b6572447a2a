import Clearing.Proofs.Batch.Split
import Clearing.Proofs.Batch.Staff
import Clearing.Proofs.Session.Alone

/-!
# The rounds of a batch

A batch that is given alone to a smooth pipeline is done after some rounds
(`Task.run_batch`).

## Strategy

A look at the task that waits for the workers finds as many of them to have
finished as there are in front of the first that has not, or as its allowance
permits (`Task.Waited`).  So a round after which the task is not done makes less
of what is left to do, or else there was no turn, all workers have finished, and
more of them are found to have done so.
-/

namespace Clearing

/-! ## The foreground -/

/-- What a look at the task that waits for the workers of a batch comes to: it is done, or it has
found as many workers to have finished as there are in front of the first that has not, or as its
allowance permits. -/
inductive Task.Waited (reference : Ledger) (base : Pipeline) (now : Nat)
    (shares : List (List (List Transaction))) (command : Command) (place : Workplace)
    (found allowance : Nat) : Look Workplace Task → Prop
  | concluded {left : Nat} {moved putOff : Bool}
      (hover : place.Staffed reference base now shares shares.length) :
      Waited reference base now shares command place found allowance
        { shared := (conclude place command (place.collected 0 shares.length)).1
          watched := .new ⟨command, (conclude place command (place.collected 0 shares.length)).2⟩
          allowance := left
          moved
          putOff }
  | waits {later left : Nat} {moved putOff : Bool}
      (hstaffed : place.Staffed reference base now shares later) (hle : found ≤ later)
      (hlt : later < shares.length) (hmoved : found < later → moved = true)
      (hstops : later < found + allowance → place.isOver later = false) :
      Waited reference base now shares command place found allowance
        { shared := place
          watched := .new ⟨command, .waiting 0 shares.length later⟩
          allowance := left
          moved
          putOff }

namespace Task

variable {reference : Ledger} {base : Pipeline} {now : Nat}
  {shares : List (List (List Transaction))} {command : Command} {place : Workplace} {found : Nat}

/-- The task waits for the next worker until it has found all of them to have finished. -/
private theorem wait?_waiting (pipeline : Pipeline) {count found : Nat} (hfound : found < count) :
    (operation pipeline).wait? ⟨command, .waiting 0 count found⟩ = some (.worker (0 + found)) :=
  if_neg (Nat.ne_of_lt hfound)

/-- A worker is found to have finished. -/
private theorem passWait_waiting (pipeline : Pipeline) (number : Nat) {count found allowance : Nat}
    {moved putOff : Bool} (state : TaskState) :
    (⟨place, .new ⟨command, state⟩, allowance, moved, putOff⟩ : Look Workplace Task).passWait
        (operation pipeline) number place ⟨command, .waiting 0 count (found + 1)⟩ =
      ⟨place, .new ⟨command, .waiting 0 count (found + 1)⟩, allowance - 1, true, putOff⟩ := by
  have hprice : (operation pipeline).price ⟨command, .waiting 0 count (found + 1)⟩ = 1 := by
    unfold Operation.price
    simp only [operation]
    split <;> simp_all
  have halarms : (operation pipeline).deadlineAlarms ⟨command, .waiting 0 count (found + 1)⟩ = [] :=
    rfl
  simp only [Look.passWait, hprice, halarms, Look.become, Watched.become, Watched.new,
    List.filter_nil, Watched.set, List.map_nil, List.append_nil, ite_self]

/-- The next worker is found if it has finished. -/
private theorem step?_waiting (pipeline : Pipeline) (hfound : found < shares.length) :
    (operation pipeline).step? now place ⟨command, .waiting 0 shares.length found⟩ =
      if place.isOver found then some (place, ⟨command, .waiting 0 shares.length (found + 1)⟩)
      else none := by
  simp only [operation, step?, if_neg (Nat.ne_of_lt hfound), Nat.zero_add]
  split <;> rfl

/-- When all have finished the task is done after one more step. -/
private theorem goOn_concluded (pipeline : Pipeline) (number : Nat) (heeding moved putOff : Bool)
    (fuel origin total allowance : Nat)
    (hstaffed : place.Staffed reference base now shares shares.length) :
    Waited reference base now shares command place origin total
      (Look.goOn (operation pipeline) now number heeding (fuel + 2)
        ⟨place, .new ⟨command, .waiting 0 shares.length shares.length⟩, allowance, moved,
          putOff⟩) := by
  have hwait : (operation pipeline).wait? ⟨command, .waiting 0 shares.length shares.length⟩ =
      none := if_pos rfl
  have hstep : (operation pipeline).step? now place
      ⟨command, .waiting 0 shares.length shares.length⟩ =
        some ((conclude place command (place.collected 0 shares.length)).1,
          ⟨command, (conclude place command (place.collected 0 shares.length)).2⟩) := by
    simp only [operation, step?, if_true, Option.map_some]
  rw [Look.goOn]
  simp only [Watched.new, hwait, hstep]
  rw [Look.goOn]
  simp only [Look.become, Watched.become, List.filter_nil, conclude, operation, step?,
    Option.map_none]
  exact .concluded hstaffed

/-- A look at the task that waits, while it goes on; it began with a number of workers that were
found to have finished and with an allowance, and each that is found uses up some of it. -/
private theorem goOn_waiting (pipeline : Pipeline) (number : Nat) (heeding putOff : Bool)
    (fuel : Nat) {origin total found allowance : Nat} {moved : Bool}
    (hstaffed : place.Staffed reference base now shares found) (hfound : found ≤ shares.length)
    (hfuel : shares.length - found + 1 < fuel) (horigin : origin ≤ found)
    (hspent : found + allowance = origin + total) (hmoved : origin < found → moved = true) :
    Waited reference base now shares command place origin total
      (Look.goOn (operation pipeline) now number heeding fuel
        ⟨place, .new ⟨command, .waiting 0 shares.length found⟩, allowance, moved, putOff⟩) := by
  induction fuel generalizing found allowance moved with
  | zero => exact absurd hfuel (Nat.not_lt_zero _)
  | succ fuel ih =>
      rcases Nat.eq_or_lt_of_le hfound with rfl | hlt
      · obtain ⟨fuel, rfl⟩ : ∃ less, fuel = less + 1 := ⟨fuel - 1, by omega⟩
        exact goOn_concluded pipeline number heeding moved putOff fuel origin total allowance hstaffed
      · rw [Look.goOn]
        simp only [Watched.new, wait?_waiting pipeline hlt]
        by_cases hallowance : 0 < allowance
        · rw [if_pos hallowance, step?_waiting pipeline hlt]
          cases hover : place.isOver found with
          | true =>
              have hnext : place.Staffed reference base now shares (found + 1) :=
                { hstaffed with
                  found := fun position hposition => by
                    rcases Nat.lt_succ_iff_lt_or_eq.mp hposition with hbefore | rfl
                    · exact hstaffed.found position hbefore
                    · exact hover }
              simp only [if_true]
              rw [← Watched.new, passWait_waiting]
              exact ih hnext hlt (by omega) (Nat.le_succ_of_le horigin) (by omega) fun _ => rfl
          | false =>
              -- The wait needs no alarm.
              simp only [Bool.false_eq_true, if_false]
              have hset :
                  (⟨⟨command, .waiting 0 shares.length found⟩, []⟩ : Watched Task).set number
                    ((operation pipeline).alarms ⟨command, .waiting 0 shares.length found⟩) =
                      .new ⟨command, .waiting 0 shares.length found⟩ := by
                simp only [Operation.alarms, wait?_waiting pipeline hlt]
                rfl
              rw [hset]
              exact .waits hstaffed horigin hlt hmoved fun _ => hover
        · rw [if_neg hallowance]
          have hcut : ∀ chosen, (operation pipeline).cut? chosen
              ⟨command, .waiting 0 shares.length found⟩ = none := fun _ => rfl
          simp only [hcut, ite_self]
          exact .waits hstaffed horigin hlt hmoved fun hless => absurd hless (by omega)

/-- A look at the task that waits. -/
theorem waited_look (hstaffed : place.Staffed reference base now shares found)
    (hfound : found ≤ shares.length) (pipeline : Pipeline) (number allowance : Nat) :
    Waited reference base now shares command place found allowance
      ((operation pipeline).look now number allowance place
        (.new ⟨command, .waiting 0 shares.length found⟩)) :=
  goOn_waiting pipeline number _ false _ hstaffed hfound (Nat.lt_succ_self _) le_rfl rfl
    fun hlt => absurd hlt (Nat.lt_irrefl _)

/-- The first look, in which the workers are found. -/
theorem waited_begin {before : Workplace}
    (hbegin : begin now before command = (place, .waiting 0 shares.length 0))
    (hstaffed : place.Staffed reference base now shares 0) {pipeline : Pipeline}
    (heffort : shares.length + 1 < commandEffort pipeline command) (number allowance : Nat) :
    Waited reference base now shares command place 0 allowance
      ((operation pipeline).look now number allowance before (.new (.new command))) := by
  have hstep : (operation pipeline).step? now before (.new command) =
      some (place, ⟨command, .waiting 0 shares.length 0⟩) := by
    simp only [operation, step?, new, hbegin, Option.map_some]
  have hwait : (operation pipeline).wait? (.new command) = none := rfl
  unfold Operation.look
  rw [Look.goOn]
  simp only [Watched.new, hwait, hstep]
  exact goOn_waiting pipeline number _ false _ hstaffed (Nat.zero_le _) heffort le_rfl rfl
    fun hlt => absurd hlt (Nat.lt_irrefl _)

/-! ## Rounds -/

/-- A scene whose task waits for the workers of a batch. -/
structure Awaits (reference : Ledger) (base : Pipeline) (now : Nat)
    (shares : List (List (List Transaction))) (command : Command) (found : Nat)
    (scene : Scene Workplace Task) : Prop where
  time : scene.now = now
  lanes : scene.lanes = #[⟨.new ⟨command, .waiting 0 shares.length found⟩, none⟩]
  ready : scene.ready = none
  staffed : scene.world.Staffed reference base now shares found
  found : found < shares.length

/-- A scene whose task is done, since all workers have finished. -/
structure Concluded (reference : Ledger) (base : Pipeline) (now : Nat)
    (shares : List (List (List Transaction))) (command : Command) (place : Workplace)
    (scene : Scene Workplace Task) : Prop where
  time : scene.now = now
  lanes : scene.lanes =
    #[⟨.new ⟨command, (conclude place command (place.collected 0 shares.length)).2⟩, some now⟩]
  staffed : place.Staffed reference base now shares shares.length
  pipeline : scene.world.pipeline =
    (conclude place command (place.collected 0 shares.length)).1.pipeline

variable {scene : Scene Workplace Task} {watched : Watched Task}

theorem Awaits.unfinished (hawaits : Awaits reference base now shares command found scene) :
    scene.unfinished ≠ 0 := by
  rw [Scene.unfinished, hawaits.lanes]
  exact Nat.one_ne_zero

theorem Concluded.unfinished
    (hconcluded : Concluded reference base now shares command place scene) :
    scene.unfinished = 0 := by
  rw [Scene.unfinished, hconcluded.lanes]
  rfl

/-- The look with which a round begins. -/
private theorem lookAtFront_of_waited {pipeline : Pipeline} (hnow : scene.now = now)
    (hlanes : scene.lanes = #[⟨watched, none⟩]) (hready : scene.ready = none)
    (hwaited : Waited reference base now shares command place found scene.allowance
      ((operation pipeline).look now scene.looks scene.allowance scene.world watched)) :
    Concluded reference base now shares command place ((schedule pipeline).lookAtFront scene) ∨
      ∃ later, Awaits reference base now shares command later
          ((schedule pipeline).lookAtFront scene) ∧
        ((schedule pipeline).lookAtFront scene).world = { place with news := [] } ∧
          found ≤ later ∧
            (found < later → ((schedule pipeline).lookAtFront scene).moved = true) ∧
              (later < found + scene.allowance → place.isOver later = false) := by
  subst hnow
  generalize hlook : (operation pipeline).look scene.now scene.looks scene.allowance scene.world
    watched = look at hwaited
  have hfront : (schedule pipeline).lookAtFront scene = _ :=
    (schedule pipeline).lookAtFront_single hlanes hready rfl hlook
  rw [hfront]
  cases hwaited with
  | concluded hover => exact .inl ⟨rfl, rfl, hover, rfl⟩
  | waits hstaffed hle hlt hmoved hstops =>
      exact .inr ⟨_, ⟨rfl, rfl, hready, hstaffed.dropNews, hlt⟩, rfl, hle, hmoved, hstops⟩

/-- The turns of the background and the end of a round. -/
private theorem Awaits.endRound (hawaits : Awaits reference base now shares command found scene)
    (pipeline : Pipeline) {next : Scene Workplace Task}
    (hnext : next = (schedule pipeline).endRound ((schedule pipeline).giveTurns scene)) :
    Awaits reference base now shares command found next ∧ next.world.putOff = [] ∧
      next.allowance = Schedule.allowance ∧ next.world.load ≤ scene.world.load ∧
        (scene.moved = true → next.moved = true) ∧
          (scene.world.turns ≠ [] →
            next.moved = true ∧ next.world.load < scene.world.load) := by
  obtain ⟨time, hlanes, hready, hstaffed, hfound⟩ := hawaits
  obtain ⟨now', world, lanes, ready, putOff, looks, allowance, moved⟩ := scene
  dsimp only at time hlanes hready hstaffed ⊢
  subst time hlanes hready
  obtain ⟨hturned, hle, hless⟩ := hstaffed.runTurns pipeline Schedule.turnsInARow
  obtain ⟨hresumed, hputOff, hload⟩ := hturned.dropNews.resume
  have hmoved : next.moved = true ↔ moved = true ∨
      ((schedule pipeline).runTurns now' Schedule.turnsInARow world).2 = true ∨
        putOff.isEmpty = false ∨ (Workplace.resume? { ((schedule pipeline).runTurns now'
          Schedule.turnsInARow world).1 with news := [] }).isSome = true := by
    subst hnext
    simp [Schedule.endRound, Schedule.giveTurns, Schedule.spread, Scene.call, schedule,
      Workplace.takeNews, or_assoc]
  subst hnext
  refine ⟨⟨rfl, rfl, rfl, hresumed, hfound⟩, hputOff, rfl, hload.trans hle,
    fun hbefore => hmoved.mpr (.inl hbefore), fun hturns => ?_⟩
  obtain ⟨hsome, hlt⟩ := hless hturns (by decide)
  exact ⟨hmoved.mpr (.inr (.inl hsome)), Nat.lt_of_le_of_lt hload hlt⟩

/-- If nobody is to have a turn then all have finished. -/
private theorem Awaits.isOver (hawaits : Awaits reference base now shares command found scene)
    (hputOff : scene.world.putOff = []) (hturns : scene.world.turns = []) (position : Nat) :
    scene.world.isOver position = true := by
  rw [Workplace.isOver, Option.all_eq_true]
  intro worker hworker
  rw [decide_eq_true_iff]
  intro hworking
  rcases hawaits.staffed.called position worker hworker hworking with hturn | hput
  · rw [hturns] at hturn
    cases hturn
  · rw [hputOff] at hput
    cases hput

/-- A round after which the task is not done makes less of what is left to do, or more workers are
found to have finished. -/
private theorem Awaits.round (hawaits : Awaits reference base now shares command found scene)
    (hputOff : scene.world.putOff = []) (hallowance : 0 < scene.allowance) (pipeline : Pipeline) :
    (∃ place, Concluded reference base now shares command place
        ((schedule pipeline).lookAtFront scene)) ∨
      ∃ later next, next =
          (schedule pipeline).endRound ((schedule pipeline).giveTurns
            ((schedule pipeline).lookAtFront scene)) ∧
        Awaits reference base now shares command later
            ((schedule pipeline).lookAtFront scene) ∧
          Awaits reference base now shares command later next ∧ next.world.putOff = [] ∧
            next.allowance = Schedule.allowance ∧ next.moved = true ∧
              next.world.load + (shares.length - later) <
                scene.world.load + (shares.length - found) := by
  rcases lookAtFront_of_waited hawaits.time hawaits.lanes hawaits.ready
    (waited_look hawaits.staffed hawaits.found.le pipeline scene.looks scene.allowance) with
      hdone | ⟨later, hlooked, hworld, hle, hmoved, hstops⟩
  · exact .inl ⟨_, hdone⟩
  · obtain ⟨hnext, hput, hfull, hload, hkept, hturned⟩ := hlooked.endRound pipeline rfl
    have hlt := hlooked.found
    rw [hworld, Workplace.load_dropNews] at hload hturned
    refine .inr ⟨later, _, rfl, hlooked, hnext, hput, hfull, ?_⟩
    by_cases hturns : scene.world.turns = []
    · have hfurther : found + scene.allowance ≤ later := by
        by_contra hless
        have hnot := hstops (Nat.not_le.mp hless)
        rw [hawaits.isOver hputOff hturns] at hnot
        cases hnot
      refine ⟨hkept (hmoved (by omega)), ?_⟩
      omega
    · obtain ⟨hsome, hless⟩ := hturned hturns
      exact ⟨hsome, by omega⟩

/-- **The rounds come to an end.** -/
theorem Awaits.runScene (hawaits : Awaits reference base now shares command found scene)
    (hputOff : scene.world.putOff = []) (hallowance : 0 < scene.allowance) (pipeline : Pipeline)
    {fuel : Nat} (hfuel : scene.world.load + (shares.length - found) < fuel) :
    ∃ place, Concluded reference base now shares command place
      ((schedule pipeline).runScene fuel scene) := by
  induction fuel generalizing scene found with
  | zero => exact absurd hfuel (Nat.not_lt_zero _)
  | succ fuel ih =>
      unfold Schedule.runScene
      rcases hawaits.round hputOff hallowance pipeline with
        ⟨place, hdone⟩ | ⟨later, next, hnext, hlooked, hwaits, hput, hfull, hmoved, hless⟩
      · dsimp only
        rw [if_pos hdone.unfinished]
        exact ⟨place, hdone⟩
      · dsimp only
        rw [if_neg hlooked.unfinished, ← hnext, if_pos hmoved]
        exact ih hwaits hput (by rw [hfull]; decide) (by omega)

end Task

/-! ## Batches -/

namespace BatchSettings

/-- The sub-batches that are dealt to the workers of a batch. -/
def shares (settings : BatchSettings) (transactions : List Transaction) :
    List (List (List Transaction)) :=
  deal (max settings.workers 1) (subBatches settings.subBatchSize transactions)

variable (settings : BatchSettings) (transactions : List Transaction)

private theorem one_le_workers : 0 < max settings.workers 1 :=
  Nat.lt_of_lt_of_le Nat.one_pos (Nat.le_max_right _ 1)

theorem length_shares : (settings.shares transactions).length = max settings.workers 1 :=
  length_deal _

theorem shares_pos : 0 < (settings.shares transactions).length := by
  rw [length_shares]
  exact settings.one_le_workers

/-- There are no more sub-batches than transactions. -/
theorem length_flatten_shares_le :
    (settings.shares transactions).flatten.length ≤ transactions.length := by
  rw [shares, (perm_deal settings.one_le_workers _).length_eq]
  exact length_subBatches_le _ _

/-- All transactions are dealt, each once. -/
theorem perm_shares :
    ((settings.shares transactions).flatMap List.flatten).Perm transactions :=
  perm_deal_subBatches settings.one_le_workers _ _

end BatchSettings

namespace Task

variable {reference : Ledger} {pipeline : Pipeline}

/-- **The workers for a batch**, none of whom has done anything. -/
theorem hire_spec (hsmooth : pipeline.Smooth reference)
    (hworkers : pipeline.settings.batch.workers ≤ maxWorkers) (now : Nat) (format : WireFormat)
    (transactions : List Transaction) {shares : List (List (List Transaction))}
    (hshares : shares = pipeline.settings.batch.shares transactions) :
    ∃ place, hire (.new pipeline) format transactions = (place, .waiting 0 shares.length 0) ∧
      place.Staffed reference pipeline now shares 0 ∧ place.turns ≠ [] ∧
        place.load ≤ transactions.length + shares.length := by
  have hmany : max pipeline.settings.batch.workers 1 ≤ maxWorkers :=
    Nat.max_le.mpr ⟨hworkers, by decide⟩
  have hlength : 0 < shares.length := hshares ▸ BatchSettings.shares_pos _ _
  refine ⟨{ Workplace.new pipeline with
    workers := (shares.map (.new format pipeline.settings.batch.inFlightPerWorker)).toArray
    turns := List.range' 0 shares.length },
    ?_, ⟨hsmooth, .refl _, rfl, ?_, ⟨[], rfl⟩, ?_, ?_⟩, ?_, ?_⟩
  · subst hshares
    simp [hire, Workplace.hire?, Worker.ofBatch?, hmany, Workplace.new, BatchSettings.shares]
  · exact List.forall₂_map_right_iff.mpr
      (List.forall₂_same.mpr fun share _ => Worker.holds_new format _)
  · intro position worker hworker _
    obtain ⟨hposition, -⟩ := Array.getElem?_eq_some_iff.mp hworker
    rw [List.size_toArray, List.length_map] at hposition
    exact .inl (List.mem_range'_1.mpr ⟨Nat.zero_le _, by omega⟩)
  · exact fun position hposition => absurd hposition (Nat.not_lt_zero _)
  · intro hnone
    rw [List.range'_eq_nil_iff] at hnone
    omega
  · have hqueues : (shares.map (Worker.new format
        pipeline.settings.batch.inFlightPerWorker)).flatMap Worker.queue = shares.flatten := by
      rw [List.flatMap_map]
      exact List.flatMap_id
    have hdealt : shares.flatten.length ≤ transactions.length :=
      hshares ▸ BatchSettings.length_flatten_shares_le _ _
    unfold Workplace.load
    dsimp only [Workplace.new]
    rw [hqueues, List.length_range', List.length_nil]
    omega

/-- **A batch that is given alone is done after some rounds.** -/
theorem run_batch (hsmooth : pipeline.Smooth reference)
    (hworkers : pipeline.settings.batch.workers ≤ maxWorkers) (now left : Nat) (format : WireFormat)
    (transactions : List Transaction) {shares : List (List (List Transaction))}
    (hshares : shares = pipeline.settings.batch.shares transactions) {command : Command}
    (hcommand : command = .batch transactions format) :
    ∃ place, Concluded reference pipeline now shares command place
      ((schedule pipeline).run (commandEffort pipeline command) now left (.new pipeline)
        [.new command]) := by
  obtain ⟨hired, hhire, hstaffed, hturns, hload⟩ :=
    hire_spec hsmooth hworkers now format transactions hshares
  have hlength : shares.length = max pipeline.settings.batch.workers 1 := by
    rw [hshares, BatchSettings.length_shares]
  have hbegin : begin now (.new pipeline) command = (hired, .waiting 0 shares.length 0) := by
    rw [hcommand]
    exact hhire
  have heffort : transactions.length + 4 * pipeline.settings.batch.workers + 8 ≤
      commandEffort pipeline command := by
    rw [hcommand]
    exact Nat.add_le_add_right (Nat.add_le_add_right
      (Nat.le_mul_of_pos_right _ (Nat.succ_pos _)) _) _
  have hsteps : shares.length + 1 < commandEffort pipeline command := by omega
  have hwaited := waited_begin hbegin hstaffed hsteps 0 left
  generalize commandEffort pipeline command = steps at heffort hsteps ⊢
  generalize hscene : Scene.start now left (Workplace.new pipeline) [Task.new command] = scene
  have hlanes : scene.lanes = #[⟨.new (.new command), none⟩] := hscene ▸ rfl
  have hlook : Waited reference pipeline now shares command hired 0 scene.allowance
      ((operation pipeline).look now scene.looks scene.allowance scene.world
        (.new (.new command))) :=
    hscene ▸ hwaited
  have hrun : (schedule pipeline).run steps now left (.new pipeline) [.new command] =
      (schedule pipeline).runScene (4 * (steps + 1) + 3 + 1) scene := hscene ▸ rfl
  rw [hrun]
  unfold Schedule.runScene
  dsimp only
  rcases lookAtFront_of_waited (hscene ▸ rfl) hlanes (hscene ▸ rfl) hlook with
    hdone | ⟨later, hlooked, hworld, -, -, -⟩
  · rw [if_pos hdone.unfinished]
    exact ⟨hired, hdone⟩
  · obtain ⟨hnext, hput, hfull, -, -, hturned⟩ := hlooked.endRound pipeline rfl
    rw [hworld, Workplace.load_dropNews] at hturned
    obtain ⟨hmoved, hless⟩ := hturned hturns
    rw [if_neg hlooked.unfinished, if_pos hmoved]
    exact hnext.runScene hput (by rw [hfull]; decide) pipeline (by omega)

end Task

end Clearing
