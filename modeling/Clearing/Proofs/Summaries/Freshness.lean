import Clearing.Proofs.Crowd.Script
import Clearing.Proofs.Summaries.Readers

/-!
# Fresh summaries

Once the processing of a transaction has returned successfully, whoever asks for
a summary is told one that was taken after the transaction was saved
(`Crowd.Run.fresh`).

## Strategy

The generation of the summaries puts the moves in order.  It has changed since
the transaction was saved, because its success comes after the invalidation
(`backs_of_submission`).  A query that begins later goes by a ledger that was
there in the generation of its beginning or a later one (`backed_since`), and so
by one from after the saving.
-/

namespace Clearing

namespace Crowd

namespace Run

variable {run : Run}

/-! ## Who has returned -/

/-- By an index the submission of a party has succeeded. -/
def Succeeded (run : Run) (index : Nat) (party : Party) (saved : Transaction) : Prop :=
  ∃ earlier ≤ index, ∃ submission, (run.moment earlier).submission? party = some submission ∧
    submission.ending? = some (.returned (.ok saved))

theorem Succeeded.succ {index : Nat} {party : Party} {saved : Transaction}
    (hsucceeded : run.Succeeded index party saved) : run.Succeeded (index + 1) party saved := by
  obtain ⟨earlier, hearlier, hsubmission⟩ := hsucceeded
  exact ⟨earlier, by omega, hsubmission⟩

/-- A command that processes a transaction replies with the ending of its submission. -/
theorem succeeded_of_processed (hbegins : run.Begins) {index position : Nat} {task : Task}
    {saved : Transaction} (htask : (run.moment index).tasks[position]? = some task)
    (hreply : task.state = .done (.processed (.returned (.ok saved)))) :
    run.Succeeded index (.task position) saved := by
  induction index generalizing task with
  | zero =>
      obtain ⟨settings, ledger, clock, pipeline, now, -, hstart⟩ := hbegins
      rw [hstart] at htask
      cases htask
  | succ index ih =>
      cases (run.move index).taskBecame htask with
      | new hnew =>
          rw [hnew] at hreply
          cases hreply
      | same hsame => exact (ih hsame hreply).succ
      | @step before hmover hbefore hstep =>
          obtain ⟨submission, hsubmission, hending⟩ := Task.submission?_of_reply hstep hreply
          exact ⟨index, Nat.le_succ _, submission,
            Option.bind_eq_some_iff.mpr ⟨before, hbefore, hsubmission⟩, hending⟩
      | cut hmover hbefore hwait hcut => exact absurd hreply (Task.state_of_cut? hcut _)

/-- What a worker has collected was returned by its jobs. -/
theorem succeeded_of_mem_processed (hbegins : run.Begins) {index position : Nat} {worker : Worker}
    {saved : Transaction} (hworker : (run.moment index).place.staff[position]? = some worker)
    (hsaved : saved ∈ worker.processed) :
    ∃ number, run.Succeeded index (.job position number) saved := by
  induction index generalizing worker with
  | zero =>
      obtain ⟨settings, ledger, clock, pipeline, now, -, hstart⟩ := hbegins
      rw [hstart] at hworker
      cases hworker
  | succ index ih =>
      have hearlier {earlier : Worker}
          (hworker : (run.moment index).place.staff[position]? = some earlier)
          (hsaved : saved ∈ earlier.processed) :
          ∃ number, run.Succeeded (index + 1) (.job position number) saved := by
        obtain ⟨number, hsucceeded⟩ := ih hworker hsaved
        exact ⟨number, hsucceeded.succ⟩
      cases (run.move index).workerBecame hworker with
      | hired hlater =>
          rw [hlater] at hsaved
          cases hsaved
      | same hsame => exact hearlier hsame hsaved
      | @moved before hbefore hmoved =>
          cases hmoved with
          | begun hmover hjobs hbegin hlater =>
              rw [hlater] at hsaved
              exact hearlier hbefore (Worker.processed_begin? hbegin ▸ hsaved)
          | closed hmover hjobs hbegin hlater =>
              rw [hlater] at hsaved
              exact hearlier hbefore hsaved
          | stepped hmover hjob hstep hlater =>
              rw [hlater] at hsaved
              exact hearlier hbefore hsaved
          | cut hmover hjob hwait hcut hlater =>
              rw [hlater] at hsaved
              exact hearlier hbefore hsaved
          | looked hmover hjob hlater =>
              rw [hlater] at hsaved
              exact hearlier hbefore hsaved
          | @finished number submission result hmover hjob hending hlater =>
              rw [hlater] at hsaved
              rcases List.mem_append.mp hsaved with hold | hnew
              · exact hearlier hbefore hold
              · -- It is the result of the job that is done.
                cases result with
                | error failure => cases hnew
                | ok transaction =>
                    obtain rfl := List.mem_singleton.mp hnew
                    exact ⟨number, index, Nat.le_succ _, submission,
                      Option.bind_eq_some_iff.mpr ⟨before, hbefore, hjob⟩, hending⟩
          | lost hmover hjob hending hlater =>
              rw [hlater] at hsaved
              cases hsaved

/-- A batch replies with what its workers have collected. -/
theorem succeeded_of_batch (hbegins : run.Begins) {index position : Nat} {task : Task}
    {processed : List Transaction} {saved : Transaction}
    (htask : (run.moment index).tasks[position]? = some task)
    (hreply : task.state = .done (.batch processed)) (hsaved : saved ∈ processed) :
    ∃ worker number, run.Succeeded index (.job worker number) saved := by
  induction index generalizing task with
  | zero =>
      obtain ⟨settings, ledger, clock, pipeline, now, -, hstart⟩ := hbegins
      rw [hstart] at htask
      cases htask
  | succ index ih =>
      cases (run.move index).taskBecame htask with
      | new hnew =>
          rw [hnew] at hreply
          cases hreply
      | same hsame =>
          obtain ⟨worker, number, hsucceeded⟩ := ih hsame hreply
          exact ⟨worker, number, hsucceeded.succ⟩
      | @step before hmover hbefore hstep =>
          obtain ⟨first, count, rfl⟩ := Task.collected_of_reply hstep hreply
          obtain ⟨worker, collector, hworker, hmem⟩ := Workplace.mem_collected hsaved
          obtain ⟨number, hsucceeded⟩ := succeeded_of_mem_processed hbegins hworker hmem
          exact ⟨worker, number, hsucceeded.succ⟩
      | cut hmover hbefore hwait hcut => exact absurd hreply (Task.state_of_cut? hcut _)

/-- A transaction was processed by an index, as far as one can tell by a party: its submission has
ended, or the command has replied. -/
inductive Returned (run : Run) (index : Nat) (saved : Transaction) : Option Party → Prop
  | ended {party : Party} (hsucceeded : run.Succeeded index party saved) :
      Returned run index saved (some party)
  | replied {position : Nat} {task : Task}
      (htask : (run.moment index).tasks[position]? = some task)
      (hreply : task.state = .done (.processed (.returned (.ok saved)))) :
      Returned run index saved (some (.task position))
  /-- A batch does not tell which job it was. -/
  | batched {position : Nat} {task : Task} {processed : List Transaction}
      (htask : (run.moment index).tasks[position]? = some task)
      (hreply : task.state = .done (.batch processed)) (hsaved : saved ∈ processed) :
      Returned run index saved none

theorem succeeded_of_returned (hbegins : run.Begins) {index : Nat} {saved : Transaction}
    {party? : Option Party} (hreturned : run.Returned index saved party?) :
    ∃ party, (∀ known ∈ party?, party = known) ∧ run.Succeeded index party saved := by
  cases hreturned with
  | ended hsucceeded => exact ⟨_, by simp, hsucceeded⟩
  | replied htask hreply => exact ⟨_, by simp, succeeded_of_processed hbegins htask hreply⟩
  | batched htask hreply hsaved =>
      obtain ⟨worker, number, hsucceeded⟩ := succeeded_of_batch hbegins htask hreply hsaved
      exact ⟨_, by simp, hsucceeded⟩

/-- What has succeeded was saved, and the generation of the summaries has changed since. -/
theorem saves_of_succeeded (hbegins : run.Begins) {index : Nat} {party : Party}
    {saved : Transaction} (hsucceeded : run.Succeeded index party saved) :
    ∃ save submitted, save < index ∧ run.Saves save party submitted saved ∧
      run.generation (save + 1) < run.generation index := by
  obtain ⟨earlier, hearlier, submission, hsubmission, hending⟩ := hsucceeded
  obtain ⟨footprint, hleft, hbacks⟩ := backs_of_submission hbegins earlier party submission
    hsubmission
  obtain rfl := Submission.left_of_ending? hleft hending
  cases hbacks with
  | published hsave hsaves hgeneration =>
      exact ⟨_, _, hsave.trans_le hearlier, hsaves,
        hgeneration.trans_le (generation_mono hbegins hearlier)⟩

/-! ## Freshness -/

/-- **Summaries are fresh.**  A command that has not begun when a transaction was processed and
that replies with a summary replies with that of a ledger from after the saving. -/
theorem fresh (hbegins : run.Begins) {returned started replied reader : Nat}
    {saved : Transaction} {party? : Option Party} {task : Task} {reply : Reply}
    (hreturned : run.Returned returned saved party?) (hstarted : returned ≤ started)
    (hunbegun : ∀ task, (run.moment started).tasks[reader]? = some task → task.state = .starting)
    (hreplied : started ≤ replied)
    (htask : (run.moment replied).tasks[reader]? = some task)
    (hreply : task.reply? = some reply) (hsummary : reply.isSummary) :
    ∃ party save submitted, (∀ known ∈ party?, party = known) ∧ save < returned ∧
      run.Saves save party submitted saved ∧
        ∃ queried, save < queried ∧ queried ≤ replied ∧
          reply.Shows (run.moment queried).ledger := by
  obtain ⟨party, hparty, hsucceeded⟩ := succeeded_of_returned hbegins hreturned
  obtain ⟨save, submitted, hsave, hsaves, hgeneration⟩ := saves_of_succeeded hbegins hsucceeded
  refine ⟨party, save, submitted, hparty, hsave, hsaves, ?_⟩
  have hbacked := backed_since hbegins hunbegun hreplied task htask
  have hshows : ∃ generation ledger, run.Seen replied generation ledger ∧
      run.generation started ≤ generation ∧ reply.Shows ledger := by
    rw [Task.state_of_reply? hreply] at hbacked
    unfold Reply.isSummary at hsummary
    split at hsummary
    · exact hbacked
    · exact hbacked
    · cases hsummary
  obtain ⟨generation, ledger, ⟨queried, hqueried, rfl, rfl⟩, hlate, hshows⟩ := hshows
  refine ⟨queried, ?_, hqueried, hshows⟩
  -- The generation at the query is that of the beginning or later, and so after the saving.
  by_contra hbefore
  have hsaved : run.generation (save + 1) < run.generation started :=
    hgeneration.trans_le (generation_mono hbegins hstarted)
  have hearly : run.generation queried ≤ run.generation (save + 1) :=
    generation_mono hbegins (by omega)
  omega

/-- A transaction is processed while a query has the totals from before in its hands; that query
goes on, and then there is another one. -/
def racingQuery : Run :=
  .ofScript { now := 0, place := .new smallPipeline, tasks := [] }
    ([.tell (.process (.new 1 "P1" 2 .text)), .tell .customerSummary] ++
      List.replicate 5 (.task 1) ++ List.replicate 24 (.task 0) ++ List.replicate 4 (.task 1) ++
        [.tell .customerSummary] ++ List.replicate 9 (.task 2))

/-- The transaction in a reply about it. -/
private def processed? : Reply → Option Transaction
  | .processed (.returned (.ok transaction)) => some transaction
  | _ => none

/-- The other query is told a summary from after the saving. -/
theorem fresh_racingQuery :
    ∃ reply, ((racingQuery.moment 45).tasks[2]?.bind Task.reply?) = some reply ∧
      ∃ save submitted saved, save < 31 ∧ racingQuery.Saves save (.task 0) submitted saved ∧
        ∃ queried, save < queried ∧ queried ≤ 45 ∧
          reply.Shows (racingQuery.moment queried).ledger := by
  have hprocessed : (((racingQuery.moment 31).tasks[0]?.bind Task.reply?).bind
      processed?).isSome := by decide +kernel
  have hcount : (racingQuery.moment 31).tasks.length = 2 := by decide +kernel
  have hsummary : ((racingQuery.moment 45).tasks[2]?.bind Task.reply?).any Reply.isSummary := by
    decide +kernel
  obtain ⟨saved, hsaved⟩ := Option.isSome_iff_exists.mp hprocessed
  obtain ⟨reply, hreply, hsaved⟩ := Option.bind_eq_some_iff.mp hsaved
  obtain ⟨task, htask, hreply⟩ := Option.bind_eq_some_iff.mp hreply
  have hstate : task.state = .done (.processed (.returned (.ok saved))) := by
    rw [Task.state_of_reply? hreply]
    unfold processed? at hsaved
    split at hsaved <;> cases hsaved
    rfl
  obtain ⟨summary, htold, hsummary⟩ := (Option.any_eq_true _ _).mp hsummary
  obtain ⟨reader, hreader, hread⟩ := Option.bind_eq_some_iff.mp htold
  obtain ⟨party, save, submitted, hparty, hsave, hsaves, hfresh⟩ :=
    fresh ⟨_, _, _, _, 0, new?_smallPipeline, rfl⟩ (.replied htask hstate) (Nat.le_refl 31)
      (fun task htask => by
        rw [List.getElem?_eq_none (by omega)] at htask
        cases htask)
      (by decide : 31 ≤ 45) hreader hread hsummary
  obtain rfl := hparty _ rfl
  exact ⟨summary, htold, save, submitted, saved, hsave, hsaves, hfresh⟩

end Run

end Crowd

end Clearing
