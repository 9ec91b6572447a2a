import Clearing.Proofs.Guard.Act
import Clearing.Operation.Deadline

/-!
# Guarded calls come to an end

An operation dwindles if each of its steps lessens what is left to do.  A guarded call of
such an operation dwindles too, over all its attempts, so it makes only so many actions.
It never gets stuck either: whatever the guards are like, from some time on it can act.
-/

namespace Clearing

variable {σ ω α : Type}

namespace Operation

/-- Every step lessens what is left to do, and to be cut short does not add to it. -/
structure Dwindles (operation : Operation σ ω α) : Prop where
  step : ∀ now shared state next later, operation.step? now shared state = some (next, later) →
    operation.effort later < operation.effort state
  cut : ∀ chosen state later, operation.cut? chosen state = some later →
    operation.effort later ≤ operation.effort state

/-- From some time on the operation makes a step or has ended. -/
def Wakes (operation : Operation σ ω α) : Prop :=
  ∀ state, ∃ due, ∀ now shared, due ≤ now →
    (operation.step? now shared state).isSome ∨ (operation.ending? state).isSome

variable (operation : Operation σ ω α) (stage : String) (limitMillis : Nat)

/-- An operation under a deadline wakes at the latest when its time is over. -/
theorem wakes_timed : (operation.timed stage limitMillis).Wakes := by
  intro timed
  refine ⟨timed.latest, fun now shared hdue => ?_⟩
  simp only [Operation.timed]
  by_cases helapsed : timed.elapsed
  · exact .inr (by simp [helapsed])
  · cases hinner : operation.step? now shared timed.state with
    | some later => exact .inl (by simp [helapsed])
    | none =>
        cases hending : operation.ending? timed.state with
        | some ending => exact .inr (by simp [helapsed])
        | none => exact .inl (by simp [helapsed, hdue])

variable {operation}

theorem Dwindles.timed (hdwindles : operation.Dwindles) :
    (operation.timed stage limitMillis).Dwindles where
  step := by
    intro now shared timed next later hstep
    simp only [Operation.timed] at hstep ⊢
    split at hstep
    · cases hstep
    · rename_i hrunning
      split at hstep
      · rename_i hinner
        cases hstep
        have hless := hdwindles.step _ _ _ _ _ hinner
        simp only [hrunning, Bool.false_eq_true, if_false]
        omega
      · split at hstep
        · cases hstep
          simp [hrunning]
        · cases hstep
  cut := by
    intro chosen timed later hcut
    simp only [Operation.timed] at hcut ⊢
    split at hcut
    · cases hcut
    · rename_i hrunning
      split at hcut
      · rename_i hinner
        cases hcut
        have hless := hdwindles.cut _ _ _ hinner
        simp only [hrunning, Bool.false_eq_true, if_false]
        omega
      · split at hcut
        · cases hcut
          simp
        · cases hcut

end Operation

/-- What a bulkhead answers brings a call closer to its slot, or out of the line. -/
theorem Phase.Hears.phaseEffort_lt {now position : Nat} {held : List Hold} {ahead : List Nat}
    {phase : Phase ω α} {guard : Guard} {answer : Bulkhead.SlotAnswer} {bulkhead : Bulkhead}
    (hhears : phase.Hears now held position ahead guard.bulkhead (answer, bulkhead))
    (operation : Operation σ ω α) (bound : Nat) :
    GuardedCall.phaseEffort operation bound (afterAnswer held position ahead guard answer) <
      GuardedCall.phaseEffort operation bound phase := by
  have hpassed : (held ++ GuardedCall.holdsOf position).length = held.length + 2 :=
    List.length_append
  cases hhears with
  | first =>
      cases answer <;>
        simp only [afterAnswer, GuardedCall.phaseEffort, hpassed, List.length_cons] <;> omega
  | line hanswer =>
      unfold Bulkhead.lineUp at hanswer
      split at hanswer <;> cases hanswer <;>
        simp only [afterAnswer, GuardedCall.phaseEffort, hpassed] <;> omega
  | again hanswer =>
      unfold Bulkhead.askAgain? at hanswer
      split at hanswer
      · cases hanswer
        simp only [afterAnswer, GuardedCall.phaseEffort, hpassed]
        omega
      · split at hanswer <;> cases hanswer
        simp only [afterAnswer, GuardedCall.phaseEffort, List.length_cons]
        omega

namespace GuardedCall

variable {protection : Protection} {operation : Operation σ ω α} {start : Nat → Nat → ω}

/-- **A call never gets stuck**: unless it is done, it can act from some time on, whatever the
guards are like then. -/
theorem acts_of_wakes (hwakes : operation.Wakes) {call : GuardedCall ω α}
    (hopen : call.ending? = none) :
    ∃ due, ∀ now guards shared, due ≤ now →
      (call.step? protection operation start now guards shared).isSome := by
  obtain ⟨attempt, phase⟩ := call
  cases phase with
  | entering held ahead =>
      refine ⟨0, fun now guards shared _ => ?_⟩
      cases ahead with
      | nil => rfl
      | cons position ahead =>
          simp only [step?]
          split
          · rfl
          · split <;> rfl
  | taking held position ahead =>
      refine ⟨0, fun now guards shared _ => ?_⟩
      simp only [step?]
      split
      · rfl
      · split <;> rfl
  | lining held position ahead latest =>
      refine ⟨0, fun now guards shared _ => ?_⟩
      simp only [step?]
      split
      · rfl
      · split <;> rfl
  | queued held position ahead ticket latest =>
      refine ⟨latest, fun now guards shared hdue => ?_⟩
      simp only [step?]
      split
      · rfl
      · unfold Bulkhead.askAgain?
        split
        · rfl
        · rw [if_pos hdue]
          rfl
  | operating held state =>
      obtain ⟨due, hdue⟩ := hwakes state
      refine ⟨due, fun now guards shared hnow => ?_⟩
      simp only [step?]
      split
      · rfl
      · rename_i hstuck
        have hended := (hdue now shared hnow).resolve_left (by simp [hstuck])
        split
        · rfl
        · rfl
        · rename_i hending
          rw [hending] at hended
          cases hended
  | leaving outcome held result =>
      refine ⟨0, fun now guards shared _ => ?_⟩
      cases held <;> rfl
  | backingOff wakes =>
      refine ⟨wakes, fun now guards shared hdue => ?_⟩
      simp only [step?]
      rw [if_pos hdue]
      rfl
  | finished ending => cases hopen

/-- To be cut short does not add to what is left of a call. -/
theorem effort_cut?_le {bound : Nat} {chosen : Deadline → Bool} {call later : GuardedCall ω α}
    (hdwindles : operation.Dwindles) (hcut : call.cut? operation chosen = some later) :
    later.effort protection operation bound ≤ call.effort protection operation bound := by
  obtain ⟨attempt, phase⟩ := call
  cases phase with
  | operating held state =>
      obtain ⟨other, hinner, rfl⟩ := Option.map_eq_some_iff.mp hcut
      have hless := hdwindles.cut _ _ _ hinner
      simp only [effort, phaseEffort]
      omega
  | _ => cases hcut

/-- What is left of a call that has not begun is so much for each attempt. -/
theorem effort_new_le (operation : Operation σ ω α) (bound : Nat) (hone : 1 ≤ protection.retry.maxAttempts) :
    (new protection : GuardedCall ω α).effort protection operation bound ≤
      protection.retry.maxAttempts * (bound + 7 * protection.path.length + 6) := by
  have hall : protection.retry.maxAttempts = protection.retry.maxAttempts - 1 + 1 := by omega
  simp only [effort, new, phaseEffort, List.length_nil]
  rw [hall, Nat.add_one_mul (protection.retry.maxAttempts - 1), Nat.add_sub_cancel]
  omega

/-- An action lessens what is left of a call. -/
theorem Act.effort_lt {bound now : Nat} {guards after : List Guard} {shared next : σ}
    {call later : GuardedCall ω α}
    (hact : Act protection operation start now (guards, shared, call) (after, next, later))
    (hdwindles : operation.Dwindles)
    (hbound : ∀ now attempt, operation.effort (start now attempt) ≤ bound)
    (hattempt : ∀ wakes, call.phase = .backingOff wakes →
      call.attempt < protection.retry.maxAttempts) :
    later.effort protection operation bound < call.effort protection operation bound := by
  unfold effort
  cases hact with
  | begin =>
      have hstart := hbound now
      rename_i attempt held
      have hless := hstart attempt
      simp only [phaseEffort, List.length_nil]
      omega
  | skip hat => cases hat <;> simp only [phaseEffort, List.length_cons] <;> omega
  | admitted => simp only [phaseEffort, List.length_cons]; omega
  | rejected => simp only [phaseEffort, List.length_cons]; omega
  | answered hguard hhears =>
      exact Nat.add_lt_add_right (hhears.phaseEffort_lt operation bound) _
  | operated hstep =>
      have hless := hdwindles.step _ _ _ _ _ hstep
      simp only [phaseEffort]
      omega
  | returned => simp only [phaseEffort]; omega
  | aborted => simp only [phaseEffort]; omega
  | gaveBack => simp only [phaseEffort, List.length_cons]; omega
  | settled =>
      unfold settle
      split
      · simp only [phaseEffort]; omega
      · split <;> (simp only [phaseEffort]; omega)
  | backedOff =>
      rename_i attempt wakes hwakes
      have hmore : attempt < protection.retry.maxAttempts := hattempt _ rfl
      have hleft : protection.retry.maxAttempts - attempt =
          protection.retry.maxAttempts - (attempt + 1) + 1 := by omega
      simp only [phaseEffort, List.length_nil]
      rw [hleft, Nat.add_one_mul (protection.retry.maxAttempts - (attempt + 1))]
      omega

end GuardedCall

end Clearing
