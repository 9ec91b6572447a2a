import Clearing.Proofs.Crowd.Turns

/-!
# Sessions as runs

A session executes commands by a schedule, which decides who moves and when.
Whatever a session does is a run of a crowd in which nobody interferes from
outside (`Session.run_perform`), so what holds of all runs holds of it.
-/

namespace Clearing

/-- What tasks do in a schedule is made of moves. -/
theorem Task.schedule_keeps (start : Crowd) :
    (Task.schedule start.place.pipeline).Keeps fun now place tasks =>
      start.Reaches ⟨now, place, tasks⟩ where
  pass hreached hlater := hreached.move (.pass hlater) Party.noConfusion Party.noConfusion
  takeNews hreached := hreached.alike ⟨rfl, rfl⟩
  turn hreached := hreached.nextTurn
  resume hreached hresume := hreached.alike (Workplace.alike_resume? hresume)
  ring hreached := hreached.alike (Workplace.alike_ring ..)
  step hreached htask hstep :=
    hreached.move (.stepTask htask hstep) Party.noConfusion Party.noConfusion
  cut := by
    intro now position place tasks task later chosen hreached htask hwait hcut
    have hsame : Task.operation place.pipeline = Task.operation start.place.pipeline :=
      hreached.kindred.task
    have hmust : (Task.operation place.pipeline).wait? task ≠ none := by
      rw [hsame]
      exact hwait
    have hmove : (Task.operation place.pipeline).cut? chosen task = some later := by
      rw [hsame]
      exact hcut
    exact hreached.move (.cutTask htask hmust hmove) Party.noConfusion Party.noConfusion

namespace Crowd

/-- Nobody interferes from outside: no command comes in, and the store changes by requests alone. -/
def Run.Closed (run : Run) : Prop :=
  ∀ index, run.party index ≠ .arrival ∧ run.party index ≠ .store

/-- The run that stands still. -/
def Run.still (crowd : Crowd) : Run where
  moment _ := crowd
  party _ := .clock
  move _ := .pass (Nat.le_refl _)

/-- The run up to some time and then one more move, after which it stands still. -/
def Run.extend (run : Run) (finish : Nat) {mover : Party} {next : Crowd}
    (hmove : Move mover (run.moment finish) next) : Run where
  moment index := if index ≤ finish then run.moment index else next
  party index :=
    if index < finish then run.party index else if index = finish then mover else .clock
  move index := by
    rcases Nat.lt_trichotomy index finish with hbefore | hnow | hafter
    · rw [if_pos hbefore, if_pos (Nat.le_of_lt hbefore), if_pos (Nat.succ_le_of_lt hbefore)]
      exact run.move index
    · subst hnow
      rw [if_neg (Nat.lt_irrefl _), if_pos rfl, if_pos (Nat.le_refl _),
        if_neg (Nat.not_succ_le_self _)]
      exact hmove
    · rw [if_neg (by omega), if_neg (by omega), if_neg (by omega), if_neg (by omega)]
      exact .pass (Nat.le_refl _)

theorem Run.moment_extend_of_le (run : Run) {finish index : Nat} {mover : Party} {next : Crowd}
    (hmove : Move mover (run.moment finish) next) (hindex : index ≤ finish) :
    (run.extend finish hmove).moment index = run.moment index :=
  if_pos hindex

theorem Run.moment_extend_succ (run : Run) {finish : Nat} {mover : Party} {next : Crowd}
    (hmove : Move mover (run.moment finish) next) :
    (run.extend finish hmove).moment (finish + 1) = next :=
  if_neg (Nat.not_succ_le_self finish)

/-- What is reached is reached in a run. -/
theorem Reaches.run {start finish : Crowd} (hreached : start.Reaches finish) :
    ∃ (run : Run) (index : Nat), run.moment 0 = start ∧ run.moment index = finish ∧
      run.Closed := by
  induction hreached with
  | refl => exact ⟨.still start, 0, rfl, rfl, fun _ => ⟨Party.noConfusion, Party.noConfusion⟩⟩
  | tail hreached hstirs ih =>
      obtain ⟨run, index, hstart, rfl, hclosed⟩ := ih
      obtain ⟨mover, harrival, hstore, hmove⟩ := hstirs
      refine ⟨run.extend index hmove, index + 1, ?_, ?_, ?_⟩
      · rw [Run.moment_extend_of_le run hmove (Nat.zero_le index), hstart]
      · exact Run.moment_extend_succ run hmove
      · intro other
        unfold Run.extend
        dsimp only
        split
        · exact hclosed other
        · split
          · exact ⟨harrival, hstore⟩
          · exact ⟨Party.noConfusion, Party.noConfusion⟩

end Crowd

/-- **What a session does with commands is a run of a crowd**: it begins with the commands at a
workplace without workers, nobody interferes from outside, and the session ends with the time, the
pipeline and the replies of the run. -/
theorem Session.run_perform (session : Session) (commands : List Command) :
    ∃ (run : Crowd.Run) (finish : Nat),
      run.moment 0 = ⟨session.now, .new session.pipeline, commands.map Task.new⟩ ∧
        run.Closed ∧
          (run.moment finish).now = (session.perform commands).2.now ∧
            (run.moment finish).place.pipeline = (session.perform commands).2.pipeline ∧
              (run.moment finish).tasks.map Task.reply? =
                (session.perform commands).1.map (·.1) := by
  let start : Crowd := ⟨session.now, .new session.pipeline, commands.map Task.new⟩
  have hreached := (Task.schedule_keeps start).run
    (sumOf (commands.map (Task.commandEffort session.pipeline))) session.now session.allowance
    (.refl : start.Reaches start)
  obtain ⟨run, finish, hstart, hfinish, hclosed⟩ := hreached.run
  refine ⟨run, finish, hstart, hclosed, ?_, ?_, ?_⟩
  · rw [hfinish]
    rfl
  · rw [hfinish]
    rfl
  · rw [hfinish]
    simp only [Session.perform, Scene.tasks, Scene.times, List.map_map]
    rfl

end Clearing
