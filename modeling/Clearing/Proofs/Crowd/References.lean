import Clearing.Proofs.Cache.Expiring
import Clearing.Proofs.Crowd.Resources
import Clearing.Proofs.Processing.Evidence
import Clearing.Proofs.Summaries.Writers

/-!
# Reference data in a run

Every entry of the cache of reference data is an answer that the ledger would
have given at the time when the entry was put there
(`Crowd.Run.references_backed`).  So whatever follows from the ledgers of a run,
those of the past as long as entries live, is borne out by what checks are told,
and whoever is about to save a transaction has that as evidence
(`Crowd.Run.knows`).

## Strategy

The cache is followed through the changes of the resources, which put nothing
into it but the present answers of the ledger.  What submissions know is
followed through their steps; that it may be forgotten while everyone pauses is
what lets answers grow old (`hnext`).
-/

namespace Clearing

/-- A change puts nothing into the cache of reference data but answers of the ledger. -/
theorem Resources.Change.backed {now : Nat} {before after : Resources} {lifetimeMillis : Nat}
    {customer : Int → Bool → Nat → Prop} {product : String → Product → Nat → Prop}
    (hchange : before.Change now after)
    (hbacked : before.references.Backed lifetimeMillis customer product)
    (hcustomer : ∀ id, customer id (before.store.ledger.hasCustomer id) now)
    (hproduct : ∀ code found, before.store.ledger.product? code = some found →
      product code found now) :
    after.references.Backed lifetimeMillis customer product := by
  cases hchange with
  | forgetCustomer id => exact hbacked.forgetCustomer id
  | forgetProduct code => exact hbacked.forgetProduct code
  | hearCustomer id => exact hbacked.putCustomer (hcustomer id)
  | hearProduct code => exact hbacked.putProduct (hproduct code)
  | _ => exact hbacked

namespace Crowd.Run

/-- The settings of a run. -/
def settings (run : Run) : Settings :=
  (run.moment 0).place.pipeline.settings

/-- The time of day in a run. -/
def clock (run : Run) : Nat → Timestamp :=
  (run.moment 0).place.pipeline.clock

/-- By an index the ledger would have answered at a time whether a customer is known. -/
def ToldCustomer (run : Run) (index : Nat) (id : Int) (known : Bool) (since : Nat) : Prop :=
  ∃ heard ≤ index, (run.moment heard).now = since ∧
    (run.moment heard).ledger.hasCustomer id = known

/-- By an index the ledger would have answered at a time what a product is. -/
def ToldProduct (run : Run) (index : Nat) (code : String) (product : Product) (since : Nat) :
    Prop :=
  ∃ heard ≤ index, (run.moment heard).now = since ∧
    (run.moment heard).ledger.product? code = some product

variable {run : Run}

theorem kindred (run : Run) (index : Nat) :
    (run.moment 0).place.pipeline.Kindred (run.moment index).place.pipeline := by
  induction index with
  | zero => exact .refl _
  | succ index ih => exact ih.trans (run.move index).kindred

/-- **The cache holds old answers of the ledger.** -/
theorem references_backed (hbegins : run.Begins) (hmemory : run.InMemory) (index : Nat) :
    (run.moment index).resources.references.Backed run.settings.cacheMillis
      (run.ToldCustomer index) (run.ToldProduct index) := by
  induction index with
  | zero =>
      obtain ⟨settings, ledger, clock, pipeline, now, hnew, hstart⟩ := hbegins
      obtain ⟨guards, rfl⟩ := Pipeline.eq_of_new? hnew
      rw [Run.settings, hstart]
      exact ReferenceCache.backed_empty ..
  | succ index ih =>
      have hold : (run.moment index).resources.references.Backed run.settings.cacheMillis
          (run.ToldCustomer (index + 1)) (run.ToldProduct (index + 1)) :=
        ih.mono (fun id known since ⟨heard, hle, htold⟩ => ⟨heard, by omega, htold⟩)
          fun code found since ⟨heard, hle, htold⟩ => ⟨heard, by omega, htold⟩
      rcases (hmemory.touches index).change with hchange | ⟨customer, hnext⟩ | ⟨product, hnext⟩
      · exact hchange.backed hold (fun id => ⟨index, by omega, rfl, rfl⟩)
          fun code found hfound => ⟨index, by omega, rfl, hfound⟩
      · rw [hnext]
        exact hold
      · rw [hnext]
        exact hold

/-- What submissions know in a run follows from beliefs that bear out all answers, as long as the
beliefs are only given up while everyone pauses. -/
theorem knows {beliefs : Nat → Beliefs} (hbegins : run.Begins)
    (hsupport : ∀ index, (run.moment index).resources.Support (run.moment index).now run.clock
      (beliefs index))
    (hnext : ∀ index, (beliefs index).Le (beliefs (index + 1)) ∨
      run.party index = .clock ∧ ∀ party submission,
        (run.moment index).submission? party = some submission →
          submission.isPaused (run.moment index).place.pipeline = true)
    (index : Nat) (party : Party) (submission : Submission)
    (hsubmission : (run.moment index).submission? party = some submission) :
    submission.Knows (beliefs index) := by
  induction index generalizing party submission with
  | zero =>
      obtain ⟨settings, ledger, clock, pipeline, now, -, hstart⟩ := hbegins
      rw [hstart] at hsubmission
      -- There is no task and no worker yet.
      cases party <;> simp [submission?, Workplace.submission?, Workplace.staff,
        Workplace.new] at hsubmission
  | succ index ih =>
      -- Who moves is not the clock, and so nothing is given up.
      have hmoves {mover : Party} {earlier : Submission} (hmover : run.party index = mover)
          (hearlier : (run.moment index).submission? mover = some earlier) :
          (beliefs index).Le (beliefs (index + 1)) := by
        rcases hnext index with hle | ⟨hclock, -⟩
        · exact hle
        · rw [hmover] at hclock
          subst hclock
          cases hearlier
      cases (run.move index).became hsubmission with
      | new hnew =>
          obtain ⟨transaction, rfl | ⟨format, rfl⟩⟩ := hnew <;> exact trivial
      | same hsame =>
          have hknows := ih party submission hsame
          rcases hnext index with hle | ⟨-, hidle⟩
          · exact hknows.mono hle
          · exact Submission.knows_of_isPaused hknows (hidle party submission hsame)
      | @step earlier hmover hearlier hstep =>
          have hclock := (run.kindred index).clock
          have hnow := hsupport index
          rw [Run.clock, ← hclock] at hnow
          exact (Submission.knows_of_step? hnow (ih party earlier hearlier) hstep).mono
            (hmoves hmover hearlier)
      | @cut earlier chosen hmover hearlier hwait hcut =>
          exact (Submission.knows_of_cut? (ih party earlier hearlier) hcut).mono
            (hmoves hmover hearlier)

/-- In the move at an index a party saved what was submitted with its submission, and this is the
row. -/
def Writes (run : Run) (save : Nat) (party : Party) (submission : Submission)
    (saved : Transaction) : Prop :=
  (run.moment save).submission? party = some submission ∧
    run.Saves save party submission.transaction saved

/-- Whoever saves a transaction has the evidence for it. -/
theorem accepts_of_writes {beliefs : Beliefs} {save : Nat} {party : Party}
    {submission : Submission} {saved : Transaction}
    (hwrites : run.Writes save party submission saved) (hknows : submission.Knows beliefs) :
    beliefs.Accepts submission.transaction := by
  obtain ⟨hsubmission, -, submission', hsubmission', hturn⟩ := hwrites
  rw [hsubmission] at hsubmission'
  cases hsubmission'
  exact Submission.accepts_of_deed hknows hturn.deed

end Crowd.Run

end Clearing
