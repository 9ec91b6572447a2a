import Clearing.Proofs.Crowd

/-!
# Runs by a script

A script says who is to move next, and so makes a run: a party that cannot move
when it is its turn is passed over, and when the script is over time stands
still.  Every script gives a run (`Crowd.Run.ofScript`), so that runs can be
computed.
-/

namespace Clearing

namespace Crowd

/-- A new pipeline that knows one customer and one product. -/
def smallPipeline : Pipeline :=
  let settings := Settings.initial
  { settings
    clock := fun now => ⟨now, 0⟩
    guards :=
      [.new Pipeline.sharedGuardName settings.breakers.shared settings.bulkheads.shared,
        .new WireFormat.text.name settings.breakers.perFormat settings.bulkheads.perFormat,
        .new WireFormat.binary.name settings.breakers.perFormat settings.bulkheads.perFormat]
    resources := .new .oneOfEach settings.cacheMillis
    statistics := .empty }

theorem new?_smallPipeline :
    Pipeline.new? .initial .oneOfEach (fun now => ⟨now, 0⟩) = some smallPipeline := rfl

/-- What is to happen next. -/
inductive Instruction where
  /-- A command arrives. -/
  | tell (command : Command)
  /-- The clock goes on to a time. -/
  | pass (later : Nat)
  /-- A task makes a step. -/
  | task (position : Nat)
  /-- A worker takes up a sub-batch or is done. -/
  | worker (position : Nat)
  /-- A job makes a step. -/
  | job (worker number : Nat)
  /-- A job is done. -/
  | finish (worker number : Nat)

/-- What happens by an instruction, and who moves; if it is not possible time stands still. -/
def perform (crowd : Crowd) : Instruction → Party × Crowd
  | .tell command => (.arrival, { crowd with tasks := crowd.tasks ++ [.new command] })
  | .pass later => (.clock, { crowd with now := max crowd.now later })
  | .task position =>
    match crowd.tasks[position]? with
    | none => (.clock, crowd)
    | some task =>
      match task.step? crowd.now crowd.place with
      | none => (.clock, crowd)
      | some (place, later) =>
        (.task position, { crowd with place, tasks := crowd.tasks.set position later })
  | .worker position =>
    match crowd.place.workers[position]? with
    | none => (.clock, crowd)
    | some worker =>
      if worker.jobs.isEmpty then
        match worker.begin? (.ofBatch crowd.place.pipeline worker.format) with
        | none => (.worker position, { crowd with place := crowd.place.closeWorker position })
        | some later =>
          (.worker position,
            { crowd with place := crowd.place.changeWorker position fun _ => later })
      else (.clock, crowd)
  | .job position number =>
    match crowd.place.workers[position]? with
    | none => (.clock, crowd)
    | some worker =>
      match worker.job? number with
      | none => (.clock, crowd)
      | some job =>
        match crowd.place.submission.step? crowd.now crowd.place job.watched.state with
        | none => (.clock, crowd)
        | some (place, later) =>
          (.job position number,
            { crowd with place := place.changeWorker position (·.putJob number (.new later)) })
  | .finish position number =>
    match crowd.place.workers[position]? with
    | none => (.clock, crowd)
    | some worker =>
      match worker.job? number with
      | none => (.clock, crowd)
      | some job =>
        match job.watched.state.ending? with
        | some (.returned result) =>
          (.worker position,
            { crowd with
              place := crowd.place.changeWorker position
                (·.finish (.ofBatch crowd.place.pipeline worker.format) number result) })
        | _ => (.clock, crowd)

private theorem move_stay (crowd : Crowd) : Move .clock crowd crowd :=
  .pass (Nat.le_refl _)

/-- Every instruction is followed by a move. -/
theorem move_perform (crowd : Crowd) (instruction : Instruction) :
    Move (crowd.perform instruction).1 crowd (crowd.perform instruction).2 := by
  cases instruction with
  | tell command => exact .arrive command
  | pass later => exact .pass (Nat.le_max_left ..)
  | task position =>
      unfold perform
      dsimp only
      split
      · exact crowd.move_stay
      · rename_i task htask
        split
        · exact crowd.move_stay
        · rename_i place later hstep
          exact .stepTask htask hstep
  | worker position =>
      unfold perform
      dsimp only
      split
      · exact crowd.move_stay
      · rename_i worker hworker
        split
        · rename_i hjobs
          split
          · rename_i hbegin
            exact .closeWorker hworker (List.isEmpty_iff.mp hjobs) hbegin
          · rename_i later hbegin
            exact .beginWorker hworker (List.isEmpty_iff.mp hjobs) hbegin
        · exact crowd.move_stay
  | job position number =>
      unfold perform
      dsimp only
      split
      · exact crowd.move_stay
      · rename_i worker hworker
        split
        · exact crowd.move_stay
        · rename_i job hjob
          split
          · exact crowd.move_stay
          · rename_i place later hstep
            exact .stepJob hworker hjob hstep
  | finish position number =>
      unfold perform
      dsimp only
      split
      · exact crowd.move_stay
      · rename_i worker hworker
        split
        · exact crowd.move_stay
        · rename_i job hjob
          split
          · rename_i result hending
            exact .finishJob hworker hjob hending
          · exact crowd.move_stay

/-- No instruction changes the store from outside. -/
theorem party_perform_ne_store (crowd : Crowd) (instruction : Instruction) :
    (crowd.perform instruction).1 ≠ .store := by
  unfold perform
  repeat' split
  all_goals exact Party.noConfusion

/-- The command of a task after an instruction is the one that is told, or was told before. -/
theorem command_of_mem_perform {crowd : Crowd} {instruction : Instruction} {task : Task}
    (htask : task ∈ (crowd.perform instruction).2.tasks) :
    instruction = .tell task.command ∨ ∃ earlier ∈ crowd.tasks, task.command = earlier.command := by
  cases instruction with
  | tell command =>
      rcases List.mem_append.mp htask with hold | hnew
      · exact .inr ⟨task, hold, rfl⟩
      · rw [List.mem_singleton.mp hnew]
        exact .inl rfl
  | task position =>
      unfold perform at htask
      dsimp only at htask
      split at htask
      · exact .inr ⟨task, htask, rfl⟩
      · rename_i before hbefore
        split at htask
        · exact .inr ⟨task, htask, rfl⟩
        · rename_i place later hstep
          rcases List.mem_or_eq_of_mem_set htask with hold | rfl
          · exact .inr ⟨task, hold, rfl⟩
          · exact .inr ⟨before, List.mem_of_getElem? hbefore, (Task.act_of_step? hstep).1⟩
  | _ =>
      unfold perform at htask
      dsimp only at htask
      repeat' split at htask
      all_goals exact .inr ⟨task, htask, rfl⟩

/-- The instruction lets time pass. -/
def Instruction.isPass : Instruction → Bool
  | .pass _ => true
  | _ => false

theorem now_perform {crowd : Crowd} {instruction : Instruction}
    (hpass : instruction.isPass = false) : (crowd.perform instruction).2.now = crowd.now := by
  cases instruction with
  | pass later => cases hpass
  | tell command => rfl
  | _ =>
      unfold perform
      dsimp only
      repeat' split
      all_goals rfl

/-- The crowd after so many instructions of a script. -/
def after (start : Crowd) (script : List Instruction) : Nat → Crowd
  | 0 => start
  | index + 1 =>
    match script[index]? with
    | some instruction => ((after start script index).perform instruction).2
    | none => after start script index

/-- Nothing happens after the last instruction. -/
theorem after_of_length_le (start : Crowd) {script : List Instruction} {index : Nat}
    (hindex : script.length ≤ index) : start.after script index = start.after script script.length := by
  induction hindex with
  | refl => rfl
  | @step index hindex ih => rw [after, List.getElem?_eq_none hindex, ih]

/-- The run by a script. -/
def Run.ofScript (start : Crowd) (script : List Instruction) : Run where
  moment := start.after script
  party index :=
    match script[index]? with
    | some instruction => ((start.after script index).perform instruction).1
    | none => .clock
  move index := by
    cases hinstruction : script[index]? with
    | none =>
        simp only [after, hinstruction]
        exact move_stay _
    | some instruction =>
        simp only [after, hinstruction]
        exact move_perform ..

/-- No script changes the store from outside. -/
theorem Run.party_ofScript_ne_store (start : Crowd) (script : List Instruction) (index : Nat) :
    (ofScript start script).party index ≠ .store := by
  unfold ofScript
  dsimp only
  split
  · exact party_perform_ne_store _ _
  · exact Party.noConfusion

/-- What holds of the commands at the start and of those in a script holds of all commands. -/
theorem Run.command_ofScript {property : Command → Prop} {start : Crowd}
    {script : List Instruction} (hstart : ∀ task ∈ start.tasks, property task.command)
    (hscript : ∀ command, .tell command ∈ script → property command) (index : Nat) :
    ∀ task ∈ ((ofScript start script).moment index).tasks, property task.command := by
  show ∀ task ∈ (start.after script index).tasks, property task.command
  induction index with
  | zero => exact hstart
  | succ index ih =>
      intro task htask
      unfold after at htask
      split at htask
      · rename_i instruction hinstruction
        rcases command_of_mem_perform htask with rfl | ⟨earlier, hearlier, hsame⟩
        · exact hscript _ (List.mem_of_getElem? hinstruction)
        · rw [hsame]
          exact ih earlier hearlier
      · exact ih task htask

end Crowd

end Clearing
