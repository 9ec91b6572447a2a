import Mathlib.Order.Nat
import Clearing.Proofs.Crowd.Books
import Clearing.Proofs.Summaries.Query

/-!
# Those who save, in a run

What a submission has left was done in moves of its own: if it was saved there
was a move of its party that saved it, and if that was published the generation
of the summaries has changed since (`Crowd.Run.backs_of_submission`).
Generations are counted up in a run (`Crowd.Run.generation_mono`).
-/

namespace Clearing

namespace Crowd

variable {crowd next : Crowd} {mover : Party}

theorem Move.generation_le (hfootprints : crowd.HasFootprints) (hmove : Move mover crowd next) :
    crowd.summaries.generation ≤ next.summaries.generation := by
  cases hmove.summarizes hfootprints with
  | same hsame => exact (congrArg SummaryCache.generation hsame).ge
  | invalidate hinvalid => rw [hinvalid]; exact Nat.le_succ _
  | customers hmover htask hstate hstep hlater =>
      exact (SummaryKind.other_of_step? SummaryKind.laws_customers.generation hstep).ge
  | products hmover htask hstate hstep hlater =>
      exact (SummaryKind.other_of_step? SummaryKind.laws_products.generation hstep).ge

namespace Run

variable (run : Run)

/-- In the move at an index a party saved what was submitted, and this is the row. -/
def Saves (index : Nat) (party : Party) (submitted saved : Transaction) : Prop :=
  run.party index = party ∧ ∃ submission,
    (run.moment index).submission? party = some submission ∧
      Turn.Saves ⟨(run.moment index).now, submission, (run.moment index).place.pipeline,
        (run.moment (index + 1)).place.pipeline⟩ submitted saved

/-- The generation of the summaries at an index. -/
def generation (index : Nat) : Nat :=
  (run.moment index).summaries.generation

/-- The moves before an index that a footprint of a party comes from. -/
inductive Backs (party : Party) (submitted : Transaction) (index : Nat) : Footprint → Prop
  | nothing : Backs party submitted index .nothing
  | saved {save : Nat} {saved : Transaction} (hsave : save < index)
      (hsaves : run.Saves save party submitted saved)
      (hgeneration : run.generation (save + 1) ≤ run.generation index) :
      Backs party submitted index (.saved saved)
  | published {save : Nat} {saved : Transaction} (hsave : save < index)
      (hsaves : run.Saves save party submitted saved)
      (hgeneration : run.generation (save + 1) < run.generation index) :
      Backs party submitted index (.published saved)

variable {run} {party : Party} {submitted : Transaction} {index : Nat}

theorem Backs.succ {footprint : Footprint} (hbacks : run.Backs party submitted index footprint)
    (hgeneration : run.generation index ≤ run.generation (index + 1)) :
    run.Backs party submitted (index + 1) footprint := by
  cases hbacks with
  | nothing => exact .nothing
  | saved hsave hsaves hsince =>
      exact .saved (by omega) hsaves (hsince.trans hgeneration)
  | published hsave hsaves hsince =>
      exact .published (by omega) hsaves (hsince.trans_le hgeneration)

/-- What a submission has left was done by its party. -/
theorem backs_of_submission (hbegins : run.Begins) (index : Nat) (party : Party)
    (submission : Submission) (hsubmission : (run.moment index).submission? party = some submission) :
    ∃ footprint, submission.Left footprint ∧
      run.Backs party submission.transaction index footprint := by
  induction index generalizing party submission with
  | zero =>
      obtain ⟨settings, ledger, clock, pipeline, now, -, hstart⟩ := hbegins
      rw [hstart] at hsubmission
      -- There is no task and no worker yet.
      cases party <;> simp [submission?, Workplace.submission?, Workplace.staff,
        Workplace.new] at hsubmission
  | succ index ih =>
      have hfootprints : (run.moment index).HasFootprints := by
        intro party submission hsubmission
        obtain ⟨footprint, hleft, -⟩ := ih party submission hsubmission
        exact ⟨footprint, hleft⟩
      have hgeneration : run.generation index ≤ run.generation (index + 1) :=
        (run.move index).generation_le hfootprints
      cases (run.move index).became hsubmission with
      -- What was done before is older by one move; what is done now is done by the mover.
      | new hnew => exact ⟨.nothing, Submission.left_of_isNew hnew, .nothing⟩
      | same hsame =>
          obtain ⟨footprint, hleft, hbacks⟩ := ih party submission hsame
          exact ⟨footprint, hleft, hbacks.succ hgeneration⟩
      | @step earlier hmover hearlier hstep =>
          obtain ⟨footprint, hleft, hbacks⟩ := ih party earlier hearlier
          obtain ⟨hsame, footprint', hlater, hturn⟩ := Submission.left_of_step? hleft hstep
          rw [hsame]
          refine ⟨footprint', hlater, ?_⟩
          cases hturn with
          | quiet hquiet => exact hbacks.succ hgeneration
          | save hsaves =>
              exact .saved (Nat.lt_succ_self _) ⟨hmover, earlier, hearlier, hsaves⟩ le_rfl
          | publish hpublishes =>
              cases hbacks with
              | saved hsave hsaves hsince =>
                  -- The invalidation counts the generation up.
                  refine .published (by omega) hsaves ?_
                  calc run.generation _ ≤ run.generation index := hsince
                    _ < run.generation index + 1 := Nat.lt_succ_self _
                    _ = run.generation (index + 1) := hpublishes.generation.symm
      | @cut earlier chosen hmover hearlier hwait hcut =>
          obtain ⟨footprint, hleft, hbacks⟩ := ih party earlier hearlier
          -- Who is cut short waits, and who waits has done nothing.
          obtain rfl := Submission.left_of_wait? hleft hwait
          obtain ⟨hsame, hlater⟩ := Submission.left_of_cut? hleft hcut
          exact ⟨.nothing, hlater, .nothing⟩

theorem hasFootprints (hbegins : run.Begins) (index : Nat) :
    (run.moment index).HasFootprints := by
  intro party submission hsubmission
  obtain ⟨footprint, hleft, -⟩ := backs_of_submission hbegins index party submission hsubmission
  exact ⟨footprint, hleft⟩

theorem generation_mono (hbegins : run.Begins) {earlier later : Nat} (hle : earlier ≤ later) :
    run.generation earlier ≤ run.generation later := by
  induction hle with
  | refl => exact le_rfl
  | step hle ih => exact ih.trans ((run.move _).generation_le (hasFootprints hbegins _))

end Run

end Crowd

end Clearing
