import Clearing.Proofs.Guard.Trials

/-!
# The end of a half-open period

A half-open breaker decides when as many successes and failures are in as there are
trial calls (`decision_of_leaves`).  It counts whatever is told in the meantime, and
so the trial calls decide alone exactly if no call from before the period tells
anything but that it is to be ignored.  One late success is enough to close a
breaker whose trial call has not ended (`not_decidedByTrials_of_lateSuccess`).
-/

namespace Clearing

namespace Breaker

namespace History

variable {history : History} {settings : BreakerSettings}

/-- The successes and failures of a half-open period, and one more. -/
def ballot (history : History) (call : Nat) (outcome : Outcome) : List (Nat × Outcome) :=
  (call, outcome) :: verdicts history.period

/-- With the outcome of a call the breaker decides, on as many successes and failures as there are
trial calls, and by nothing but the rate of failures among them. -/
structure Decision (history : History) (use : Use) (call : Nat) (outcome : Outcome) : Prop where
  told : use = .tell call outcome
  inFlight : history.InFlight call
  verdict : outcome ≠ .ignored
  complete : (history.ballot call outcome).length = history.breaker.settings.halfOpenCalls
  state : (history.step use).breaker.state =
    if history.breaker.tooMany ((history.ballot call outcome).countP (·.2 = .failure))
        (history.ballot call outcome).length then
      .opened (history.now + history.breaker.settings.openMillis)
    else .closed

/-- The trial calls decide, and nobody else. -/
def DecidedByTrials (history : History) (use : Use) : Prop :=
  ∃ call outcome, history.Decision use call outcome ∧
    ∀ verdict ∈ history.ballot call outcome, verdict.1 ∈ history.trials

theorem Decision.decidedByTrials_iff {use : Use} {call : Nat} {outcome : Outcome}
    (hdecision : history.Decision use call outcome) :
    history.DecidedByTrials use ↔
      ∀ verdict ∈ history.ballot call outcome, verdict.1 ∈ history.trials := by
  refine ⟨?_, fun htrials => ⟨call, outcome, hdecision, htrials⟩⟩
  rintro ⟨other, told, hother, htrials⟩
  cases hother.told.symm.trans hdecision.told
  exact htrials

/-- What leads a breaker out of the half-open state. -/
theorem step_of_leaves {admitted successes failures : Nat}
    (hstate : history.breaker.state = .halfOpen admitted successes failures) {use : Use}
    (hafter : ¬ (history.step use).breaker.state.isHalfOpen) :
    ∃ call outcome, use = .tell call outcome ∧ history.InFlight call ∧ outcome ≠ .ignored ∧
      history.step use = history.hear call outcome ∧
      history.breaker.settings.halfOpenCalls ≤
        successes + (if outcome = .success then 1 else 0) +
          (failures + if outcome = .failure then 1 else 0) := by
  have hsame : history.breaker.state.isHalfOpen := by simp [hstate]
  have hignored (call : Nat) : (history.hear call .ignored).breaker.state.isHalfOpen := by
    rw [breaker_hear, record_ignored_of_halfOpen hstate]
    rfl
  cases use with
  | ask =>
      refine absurd ?_ hafter
      rw [step, breaker_ask, acquire_of_halfOpen hstate]
      split
      · rfl
      · exact hsame
  | tell call outcome =>
      by_cases hflight : history.InFlight call
      · rw [step, if_pos hflight] at hafter
        have hverdict : outcome ≠ .ignored := by
          rintro rfl
          exact hafter (hignored call)
        refine ⟨call, outcome, rfl, hflight, hverdict, if_pos hflight, ?_⟩
        by_contra hundecided
        rw [breaker_hear, record_of_halfOpen hstate hverdict,
          recordTrial_of_lt (Nat.not_le.mp hundecided)] at hafter
        exact hafter rfl
      · rw [step, if_neg hflight] at hafter
        exact absurd hsame hafter
  | drop call =>
      refine absurd ?_ hafter
      by_cases hflight : history.InFlight call
      · rw [step, if_pos hflight]
        exact hignored call
      · rw [step, if_neg hflight]
        exact hsame
  | wait millis => exact absurd hsame hafter

theorem mem_admissions_of_mem_ballot (hsound : history.Sound) {call : Nat} {outcome : Outcome}
    (hflight : history.InFlight call) {verdict : Nat × Outcome}
    (hverdict : verdict ∈ history.ballot call outcome) :
    verdict.1 ∈ admissions history.past := by
  rcases List.mem_cons.mp hverdict with rfl | hearlier
  · exact hflight.1
  · have hended : verdict ∈ endings history.period := (mem_verdicts.mp hearlier).1
    exact hsound.ended verdict (((List.takeWhile_sublist _).filterMap _).subset hended)

/-- **How a half-open period ends**: a call tells a success or a failure, as many of them are in as
there are trial calls, and their rate decides.  It is the trial calls who decide exactly if none of
this is from a call that was admitted before. -/
theorem decision_of_leaves (hpermitted : 0 < settings.halfOpenCalls) (uses : List Use) {use : Use}
    (hbefore : ((begin settings).run uses).breaker.state.isHalfOpen)
    (hafter : ¬ (((begin settings).run uses).step use).breaker.state.isHalfOpen) :
    let history := (begin settings).run uses
    ∃ call outcome, history.Decision use call outcome ∧
      (history.DecidedByTrials use ↔
        ∀ verdict ∈ history.ballot call outcome,
          verdict.1 ∉ admissions history.beforePeriod) := by
  have hcounted := counted_run settings uses
  have hsound := sound_run settings uses
  rw [← settings_run settings uses] at hpermitted
  generalize (begin settings).run uses = history at hcounted hsound hpermitted hbefore hafter ⊢
  obtain ⟨admitted, successes, failures, hstate⟩ := BreakerState.isHalfOpen_iff.mp hbefore
  obtain ⟨hsuccesses, hfailures, hundecided, -, -, -⟩ := hcounted _ _ _ hstate
  obtain ⟨call, outcome, htell, hflight, hverdict, hstep, hcomplete⟩ :=
    step_of_leaves hstate hafter
  have hone := Outcome.counted_once hverdict
  have hfailed : failures + (if outcome = .failure then 1 else 0) =
      (history.ballot call outcome).countP (·.2 = .failure) := by
    simp [ballot, List.countP_cons, hfailures]
  have hlength : successes + (if outcome = .success then 1 else 0) +
      (failures + if outcome = .failure then 1 else 0) = (history.ballot call outcome).length := by
    rw [ballot, List.length_cons, length_verdicts, ← hsuccesses, ← hfailures]
    omega
  -- One outcome less was too little, and with it there is enough.
  have hcount : (history.ballot call outcome).length = history.breaker.settings.halfOpenCalls := by
    omega
  have hdecision : history.Decision use call outcome :=
    { told := htell, inFlight := hflight, verdict := hverdict, complete := hcount
      state := by
        rw [hstep, breaker_hear, record_of_halfOpen hstate hverdict,
          state_recordTrial_of_le hcomplete, hlength, hfailed] }
  refine ⟨call, outcome, hdecision, hdecision.decidedByTrials_iff.trans ?_⟩
  exact forall₂_congr fun verdict hmem =>
    hsound.mem_trials_iff (mem_admissions_of_mem_ballot hsound hflight hmem)

/-- The only trial call decides, and the breaker closes. -/
theorem decidedByTrials_of_onlyTrial :
    let history := (begin touchy).run [.ask, .tell 0 .failure, .wait 1000, .ask]
    history.breaker.state.isHalfOpen ∧
      (history.step (.tell 1 .success)).breaker.state = .closed ∧
      history.DecidedByTrials (.tell 1 .success) := by
  refine ⟨by decide +kernel, by decide +kernel, ?_⟩
  obtain ⟨call, outcome, hdecision, hiff⟩ :=
    @decision_of_leaves touchy (by decide) [.ask, .tell 0 .failure, .wait 1000, .ask]
      (.tell 1 .success) (by decide +kernel) (by decide +kernel)
  cases hdecision.told
  exact hiff.mpr (by decide +kernel)

/-- A call that was admitted while the breaker was closed tells a success after it has become
half-open, and the breaker closes while its only trial call is in flight. -/
theorem not_decidedByTrials_of_lateSuccess :
    let history := (begin touchy).run [.ask, .ask, .tell 1 .failure, .wait 1000, .ask]
    history.breaker.state.isHalfOpen ∧
      ¬ (history.step (.tell 0 .success)).breaker.state.isHalfOpen ∧
      ¬ history.DecidedByTrials (.tell 0 .success) := by
  refine ⟨by decide +kernel, by decide +kernel, ?_⟩
  rintro ⟨call, outcome, hdecision, htrials⟩
  cases hdecision.told
  exact absurd htrials (by decide +kernel)

end History

end Breaker

end Clearing
