import Clearing.Proofs.Guard.History

/-!
# Trial calls

A call of the current half-open period takes up a place while it is in flight and
after it has ended with a success or a failure; one that ends ignored gives its place
back.  The breaker only has a number of places.  When a call from before the period
ends ignored the number goes down as well, and a place is given away that is still
taken: the places taken are as many as are permitted and one more for every such call
(`engaged_le_add_lateDrops`), and a single one lets a second trial call in where one
is permitted (`halfOpenCalls_lt_engaged_of_lateDrop`).

The number never goes wrong the other way.  No place stays taken that neither a trial
call in flight nor an outcome accounts for, so that a half-open breaker turns nobody
away for ever (`inFlight_of_rejected`).

## Strategy

`Tallied` compares the three numbers of a half-open breaker with counts over the
history.  What an event does to each count is said by one lemma, `Tallied.note_…` puts
these together, and `counted_ask` and `counted_hear` only find out which event it is.
-/

namespace Clearing

namespace Breaker

namespace History

variable {history : History} {settings : BreakerSettings}

/-! ## Counting trial calls -/

section Counts

variable (history)

/-- How many trial calls are in flight. -/
def running : Nat :=
  history.trials.countP (history.InFlight ·)

/-- A call takes up a place: it is in flight, or it has ended with a success or a failure. -/
def Engaged (call : Nat) : Prop :=
  history.InFlight call ∨ (call, .success) ∈ endings history.past ∨
    (call, .failure) ∈ endings history.past

instance (call : Nat) : Decidable (history.Engaged call) :=
  inferInstanceAs (Decidable (_ ∨ _))

/-- How many trial calls take up a place. -/
def engaged : Nat :=
  history.trials.countP (history.Engaged ·)

/-- How many calls from before the half-open period ended ignored in it. -/
def lateDrops : Nat :=
  (endings history.period).countP fun ending => ending.2 = .ignored ∧ ending.1 ∉ history.trials

end Counts

theorem countP_except {numbers : List Nat} (hnodup : numbers.Nodup) {before after : Nat → Bool}
    {number : Nat} (hbefore : before number)
    (hafter : ∀ other ∈ numbers, after other ↔ before other ∧ other ≠ number) :
    numbers.countP after + (if number ∈ numbers then 1 else 0) = numbers.countP before := by
  induction numbers with
  | nil => rfl
  | cons first rest ih =>
      obtain ⟨hfirst, hrest⟩ := List.nodup_cons.mp hnodup
      have hcount := ih hrest fun other hother => hafter other (List.mem_cons_of_mem _ hother)
      have hhead := hafter first List.mem_cons_self
      rw [List.countP_cons, List.countP_cons]
      by_cases hsame : first = number
      · -- The others are distinct from it, so that nothing changes for them.
        subst hsame
        rw [if_neg hfirst] at hcount
        simp [hbefore, hhead, ← hcount]
      · have hother : number ∈ first :: rest ↔ number ∈ rest := by simp [Ne.symm hsame]
        have hkeep : after first = before first := by
          rw [Bool.eq_iff_iff, hhead]
          simp [hsame]
        simp only [hother, hkeep]
        omega

theorem countP_new {numbers : List Nat} {before after : Nat → Bool} {number : Nat}
    (hnew : number ∉ numbers) (hafter : ∀ other, after other ↔ other = number ∨ before other) :
    (number :: numbers).countP after = numbers.countP before + 1 := by
  rw [List.countP_cons_of_pos ((hafter number).mpr (.inl rfl))]
  congr 1
  refine List.countP_congr fun other hother => ?_
  rw [hafter other]
  exact or_iff_right (ne_of_mem_of_not_mem hother hnew)

section Note

variable {breaker : Breaker}

/-! ### Who takes up a place -/

theorem engaged_iff_of_admitted (hsound : history.Sound) (call : Nat) :
    (history.note (.admitted history.next) breaker).Engaged call ↔
      call = history.next ∨ history.Engaged call := by
  simp only [Engaged, inFlight_note_admitted hsound, past_note, endings_admitted]
  tauto

theorem engaged_iff_of_verdict {call : Nat} {outcome : Outcome} (hflight : history.InFlight call)
    (hverdict : outcome ≠ .ignored) (other : Nat) :
    (history.note (.told call outcome) breaker).Engaged other ↔ history.Engaged other := by
  simp only [Engaged, inFlight_note_told, past_note, endings_told, List.mem_cons, Prod.mk.injEq]
  by_cases hsame : other = call
  · subst hsame
    cases outcome <;> simp [hflight] at hverdict ⊢
  · simp [hsame]

theorem engaged_iff_of_ignored {call : Nat} (hflight : history.InFlight call) (other : Nat) :
    (history.note (.told call .ignored) breaker).Engaged other ↔
      history.Engaged other ∧ other ≠ call := by
  simp only [Engaged, inFlight_note_told, past_note, endings_told, List.mem_cons, Prod.mk.injEq,
    reduceCtorEq, and_false, false_or]
  by_cases hsame : other = call
  · subst hsame
    -- It was in flight, so that it has not told anything else.
    have hnone (outcome : Outcome) : (other, outcome) ∉ endings history.past := fun hended =>
      hflight.2 (List.mem_map.mpr ⟨_, hended, rfl⟩)
    simp [hnone]
  · simp [hsame]

/-! ### What becomes of the counts -/

variable (hafter : breaker.state.isHalfOpen)

include hafter

theorem trials_note_admitted (call : Nat) :
    (history.note (.admitted call) breaker).trials = call :: history.trials := by
  rw [trials, period_note_of_halfOpen hafter]
  rfl

theorem trials_note_rejected : (history.note .rejected breaker).trials = history.trials := by
  rw [trials, period_note_of_halfOpen hafter]
  rfl

theorem trials_note_told (call : Nat) (outcome : Outcome) :
    (history.note (.told call outcome) breaker).trials = history.trials := by
  rw [trials, period_note_of_halfOpen hafter]
  rfl

theorem running_note_rejected : (history.note .rejected breaker).running = history.running := by
  rw [running, trials_note_rejected hafter]
  rfl

theorem engaged_note_rejected : (history.note .rejected breaker).engaged = history.engaged := by
  rw [engaged, trials_note_rejected hafter]
  rfl

theorem lateDrops_note_rejected :
    (history.note .rejected breaker).lateDrops = history.lateDrops := by
  rw [lateDrops, trials_note_rejected hafter, period_note_of_halfOpen hafter]
  rfl

theorem lateDrops_note_verdict (call : Nat) {outcome : Outcome} (hverdict : outcome ≠ .ignored) :
    (history.note (.told call outcome) breaker).lateDrops = history.lateDrops := by
  rw [lateDrops, trials_note_told hafter, period_note_of_halfOpen hafter, endings_told,
    List.countP_cons_of_neg (by simp [hverdict])]
  rfl

theorem lateDrops_note_ignored (call : Nat) :
    (history.note (.told call .ignored) breaker).lateDrops =
      history.lateDrops + if call ∈ history.trials then 0 else 1 := by
  rw [lateDrops, trials_note_told hafter, period_note_of_halfOpen hafter, endings_told,
    List.countP_cons]
  by_cases htrial : call ∈ history.trials <;> simp [htrial, lateDrops]

theorem engaged_note_verdict {call : Nat} {outcome : Outcome} (hflight : history.InFlight call)
    (hverdict : outcome ≠ .ignored) :
    (history.note (.told call outcome) breaker).engaged = history.engaged := by
  rw [engaged, trials_note_told hafter]
  exact List.countP_congr fun other _ => by
    simpa using engaged_iff_of_verdict hflight hverdict other

variable (hsound : history.Sound)

include hsound

theorem running_note_admitted :
    (history.note (.admitted history.next) breaker).running = history.running + 1 := by
  rw [running, trials_note_admitted hafter]
  exact countP_new hsound.next_not_mem_trials fun other => by
    simpa using inFlight_note_admitted hsound

theorem engaged_note_admitted :
    (history.note (.admitted history.next) breaker).engaged = history.engaged + 1 := by
  rw [engaged, trials_note_admitted hafter]
  exact countP_new hsound.next_not_mem_trials fun other => by
    simpa using engaged_iff_of_admitted hsound other

theorem lateDrops_note_admitted :
    (history.note (.admitted history.next) breaker).lateDrops = history.lateDrops := by
  rw [lateDrops, trials_note_admitted hafter, period_note_of_halfOpen hafter, endings_admitted]
  refine List.countP_congr fun ending hending => ?_
  have hold : ending.1 ≠ history.next := fun hnew => hsound.next_not_ended
    (hnew ▸ List.mem_map_of_mem (((List.takeWhile_sublist _).filterMap _).subset hending))
  simp [hold]

theorem running_note_told {call : Nat} (hflight : history.InFlight call) (outcome : Outcome) :
    (history.note (.told call outcome) breaker).running +
      (if call ∈ history.trials then 1 else 0) = history.running := by
  rw [running, trials_note_told hafter]
  exact countP_except hsound.nodup_trials (decide_eq_true hflight) fun other _ => by
    simpa using inFlight_note_told

theorem engaged_note_ignored {call : Nat} (hflight : history.InFlight call) :
    (history.note (.told call .ignored) breaker).engaged +
      (if call ∈ history.trials then 1 else 0) = history.engaged := by
  rw [engaged, trials_note_told hafter]
  exact countP_except hsound.nodup_trials (decide_eq_true (.inl hflight)) fun other _ => by
    simpa using engaged_iff_of_ignored hflight other

end Note

/-! ## The numbers of a half-open breaker -/

/-- How the numbers of a half-open breaker stand to what its callers did. -/
structure Tallied (history : History) (admitted successes failures : Nat) : Prop where
  successes_eq : successes = (verdicts history.period).countP (·.2 = .success)
  failures_eq : failures = (verdicts history.period).countP (·.2 = .failure)
  undecided : successes + failures < max 1 history.breaker.settings.halfOpenCalls
  within : admitted ≤ history.breaker.settings.halfOpenCalls
  covered : admitted ≤ history.running + (successes + failures)
  bounded : history.engaged ≤ admitted + history.lateDrops

namespace Tallied

variable {admitted successes failures : Nat} {breaker : Breaker}

theorem of_period_eq_nil (hperiod : history.period = []) : history.Tallied 0 0 0 where
  successes_eq := by simp [hperiod]
  failures_eq := by simp [hperiod]
  undecided := by omega
  within := Nat.zero_le _
  covered := Nat.zero_le _
  bounded := by simp [engaged, trials, hperiod]

variable (htallied : history.Tallied admitted successes failures)
  (hafter : breaker.state.isHalfOpen) (hsettings : breaker.settings = history.breaker.settings)

include htallied hafter hsettings

theorem note_rejected :
    (history.note .rejected breaker).Tallied admitted successes failures := by
  obtain ⟨hsuccesses, hfailures, hundecided, hwithin, hcovered, hbounded⟩ := htallied
  rw [← hsettings] at hundecided hwithin
  refine ⟨?_, ?_, hundecided, hwithin, ?_, ?_⟩
  · rwa [period_note_of_halfOpen hafter, verdicts_rejected]
  · rwa [period_note_of_halfOpen hafter, verdicts_rejected]
  · rwa [running_note_rejected hafter]
  · rwa [engaged_note_rejected hafter, lateDrops_note_rejected hafter]

theorem note_admitted (hsound : history.Sound)
    (hroom : admitted < history.breaker.settings.halfOpenCalls) :
    (history.note (.admitted history.next) breaker).Tallied (admitted + 1) successes failures := by
  obtain ⟨hsuccesses, hfailures, hundecided, -, hcovered, hbounded⟩ := htallied
  rw [← hsettings] at hundecided hroom
  refine ⟨?_, ?_, hundecided, hroom, ?_, ?_⟩
  · rwa [period_note_of_halfOpen hafter, verdicts_admitted]
  · rwa [period_note_of_halfOpen hafter, verdicts_admitted]
  · rw [running_note_admitted hafter hsound]
    omega
  · rw [engaged_note_admitted hafter hsound, lateDrops_note_admitted hafter hsound]
    omega

/-- A call that ends ignored gives back a place.  If it is a trial call the place was its own;
otherwise the breaker forgets one that is still taken. -/
theorem note_ignored (hsound : history.Sound) {call : Nat} (hflight : history.InFlight call) :
    (history.note (.told call .ignored) breaker).Tallied (admitted - 1) successes failures := by
  obtain ⟨hsuccesses, hfailures, hundecided, hwithin, hcovered, hbounded⟩ := htallied
  rw [← hsettings] at hundecided hwithin
  have hrunning := running_note_told hafter hsound hflight .ignored
  have hengaged := engaged_note_ignored hafter hsound hflight
  refine ⟨?_, ?_, hundecided, by simp only [breaker_note]; omega, ?_, ?_⟩
  · rwa [period_note_of_halfOpen hafter, verdicts_ignored]
  · rwa [period_note_of_halfOpen hafter, verdicts_ignored]
  · by_cases htrial : call ∈ history.trials
    · rw [if_pos htrial] at hrunning
      omega
    · rw [if_neg htrial] at hrunning
      omega
  · rw [lateDrops_note_ignored hafter]
    by_cases htrial : call ∈ history.trials
    · rw [if_pos htrial] at hengaged ⊢
      omega
    · rw [if_neg htrial] at hengaged ⊢
      omega

theorem note_verdict (hsound : history.Sound) {call : Nat} (hflight : history.InFlight call)
    {outcome : Outcome} (hverdict : outcome ≠ .ignored)
    (hundecided : successes + (if outcome = .success then 1 else 0) +
      (failures + if outcome = .failure then 1 else 0) <
        history.breaker.settings.halfOpenCalls) :
    (history.note (.told call outcome) breaker).Tallied admitted
      (successes + if outcome = .success then 1 else 0)
      (failures + if outcome = .failure then 1 else 0) := by
  obtain ⟨hsuccesses, hfailures, -, hwithin, hcovered, hbounded⟩ := htallied
  rw [← hsettings] at hundecided hwithin
  have hrunning := running_note_told hafter hsound hflight outcome
  have hone := Outcome.counted_once hverdict
  refine ⟨?_, ?_, by simp only [breaker_note]; omega, hwithin, ?_, ?_⟩
  · rw [period_note_of_halfOpen hafter, verdicts_told _ _ _ hverdict, List.countP_cons, hsuccesses]
    simp
  · rw [period_note_of_halfOpen hafter, verdicts_told _ _ _ hverdict, List.countP_cons, hfailures]
    simp
  · split at hrunning <;> omega
  · rwa [engaged_note_verdict hafter hflight hverdict, lateDrops_note_verdict hafter _ hverdict]

end Tallied

/-- The numbers are right whenever the breaker is half-open. -/
def Counted (history : History) : Prop :=
  ∀ admitted successes failures, history.breaker.state = .halfOpen admitted successes failures →
    history.Tallied admitted successes failures

theorem counted_ask (hsound : history.Sound) (hcounted : history.Counted) :
    history.ask.Counted := by
  intro admitted successes failures hlater
  rw [breaker_ask] at hlater
  unfold ask
  dsimp only
  cases hstate : history.breaker.state with
  | closed =>
      rw [acquire_of_closed hstate, hstate] at hlater
      cases hlater
  | opened wakes =>
      by_cases hdue : wakes ≤ history.now
      · -- A period begins, and whoever asks is the first in it.
        have hnone : history.Tallied 0 0 0 :=
          .of_period_eq_nil (hsound.period_eq_nil (by simp [hstate]))
        rw [acquire_of_due hstate hdue, acquire_of_halfOpen rfl] at hlater ⊢
        split at hlater
        · rename_i hroom
          cases hlater
          rw [if_pos hroom]
          exact hnone.note_admitted rfl rfl hsound hroom
        · rename_i hroom
          cases hlater
          rw [if_neg hroom]
          exact hnone.note_rejected rfl rfl
      · rw [acquire_of_early hstate (Nat.not_le.mp hdue), hstate] at hlater
        cases hlater
  | halfOpen before told failed =>
      have hbefore := hcounted _ _ _ hstate
      rw [acquire_of_halfOpen hstate] at hlater ⊢
      split at hlater
      · rename_i hroom
        cases hlater
        rw [if_pos hroom]
        exact hbefore.note_admitted rfl rfl hsound hroom
      · rename_i hroom
        rw [hstate] at hlater
        cases hlater
        rw [if_neg hroom]
        exact hbefore.note_rejected (by simp [hstate]) rfl

theorem counted_hear (hsound : history.Sound) (hcounted : history.Counted) {call : Nat}
    (hflight : history.InFlight call) (outcome : Outcome) :
    (history.hear call outcome).Counted := by
  intro admitted successes failures hlater
  rw [breaker_hear] at hlater
  unfold hear
  cases hstate : history.breaker.state with
  | closed =>
      refine absurd ?_ (not_isHalfOpen_record_of_closed history.now hstate outcome)
      rw [hlater]
      rfl
  | opened wakes =>
      rw [record_of_opened hstate, hstate] at hlater
      cases hlater
  | halfOpen before told failed =>
      have hbefore := hcounted _ _ _ hstate
      by_cases hverdict : outcome = .ignored
      · subst hverdict
        rw [record_ignored_of_halfOpen hstate] at hlater ⊢
        cases hlater
        refine hbefore.note_ignored ?_ ?_ hsound hflight <;> rfl
      · rw [record_of_halfOpen hstate hverdict] at hlater ⊢
        by_cases hundecided : told + (if outcome = .success then 1 else 0) +
            (failed + if outcome = .failure then 1 else 0) < history.breaker.settings.halfOpenCalls
        · rw [recordTrial_of_lt hundecided] at hlater ⊢
          cases hlater
          refine hbefore.note_verdict ?_ ?_ hsound hflight hverdict hundecided <;> rfl
        · -- The period is over.
          rw [state_recordTrial_of_le (Nat.not_lt.mp hundecided)] at hlater
          exact absurd hlater (by simp [ite_eq_iff])

theorem counted_run (settings : BreakerSettings) (uses : List Use) :
    ((begin settings).run uses).Counted := by
  refine run_induction (by simp [Counted, begin, new])
    (fun history millis hcounted admitted successes failures hstate => ?_)
    (fun history hreached hcounted => ?_)
    (fun history call outcome hreached hflight hcounted => ?_) uses
  · obtain ⟨hsuccesses, hfailures, hundecided, hwithin, hcovered, hbounded⟩ :=
      hcounted _ _ _ hstate
    exact ⟨hsuccesses, hfailures, hundecided, hwithin, hcovered, hbounded⟩
  · exact counted_ask hreached.sound hcounted
  · exact counted_hear hreached.sound hcounted hflight outcome

/-! ## Admission in a half-open period -/

/-- The places that trial calls take up are as many as there are, and one more for every call from
before that ended ignored. -/
theorem engaged_le_add_lateDrops (settings : BreakerSettings) (uses : List Use) :
    ((begin settings).run uses).engaged ≤
      settings.halfOpenCalls + ((begin settings).run uses).lateDrops := by
  have hcounted := counted_run settings uses
  have hsound := sound_run settings uses
  have hsettings := settings_run settings uses
  generalize (begin settings).run uses = history at hcounted hsound hsettings ⊢
  by_cases hhalfOpen : history.breaker.state.isHalfOpen
  · obtain ⟨admitted, successes, failures, hstate⟩ := BreakerState.isHalfOpen_iff.mp hhalfOpen
    have htallied := hcounted _ _ _ hstate
    calc history.engaged ≤ admitted + history.lateDrops := htallied.bounded
      _ ≤ history.breaker.settings.halfOpenCalls + history.lateDrops :=
        Nat.add_le_add_right htallied.within _
      _ = settings.halfOpenCalls + history.lateDrops := by rw [hsettings]
  · have hperiod := hsound.period_eq_nil hhalfOpen
    simp [engaged, trials, hperiod]

/-- The permit of a call that was admitted while the breaker was closed is dropped in the half-open
period, and a second trial call is admitted where one is permitted. -/
theorem halfOpenCalls_lt_engaged_of_lateDrop :
    let history := (begin touchy).run
      [.ask, .ask, .tell 1 .failure, .wait 1000, .ask, .drop 0, .ask]
    history.breaker.state.isHalfOpen ∧ touchy.halfOpenCalls < history.engaged := by
  decide +kernel

theorem Tallied.exists_inFlight {admitted successes failures : Nat}
    (htallied : history.Tallied admitted successes failures)
    (hpermitted : 0 < history.breaker.settings.halfOpenCalls)
    (hfull : history.breaker.settings.halfOpenCalls ≤ admitted) :
    ∃ call ∈ history.trials, history.InFlight call := by
  -- Not as many outcomes are in as there are places, so that one of the places is taken by a call
  -- that has not ended.
  have hrunning : 0 < history.running := by
    have hundecided := htallied.undecided
    have hcovered := htallied.covered
    omega
  obtain ⟨call, htrial, hflight⟩ := List.countP_pos_iff.mp hrunning
  exact ⟨call, htrial, of_decide_eq_true hflight⟩

/-- **A half-open breaker does not get stuck**: it turns a call away only while a trial call is in
flight, and when no call is in flight it turns one away only if it is open before its time. -/
theorem inFlight_of_rejected (hpermitted : 0 < settings.halfOpenCalls) (uses : List Use) :
    let history := (begin settings).run uses
    (history.breaker.state.isHalfOpen → (history.breaker.acquire history.now).2 = false →
      ∃ call ∈ history.trials, history.InFlight call) ∧
    ((∀ call, ¬ history.InFlight call) →
      ((history.breaker.acquire history.now).2 = false ↔
        ∃ wakes, history.breaker.state = .opened wakes ∧ history.now < wakes)) := by
  intro history
  have hcounted : history.Counted := counted_run settings uses
  rw [← settings_run settings uses] at hpermitted
  constructor
  · intro hhalfOpen hrejected
    rcases (acquire_eq_false_iff hpermitted).mp hrejected with
      ⟨wakes, hopen, -⟩ | ⟨admitted, successes, failures, hstate, hfull⟩
    · rw [hopen] at hhalfOpen
      cases hhalfOpen
    · exact (hcounted _ _ _ hstate).exists_inFlight hpermitted hfull
  · intro hnone
    rw [acquire_eq_false_iff hpermitted]
    refine or_iff_left ?_
    rintro ⟨admitted, successes, failures, hstate, hfull⟩
    obtain ⟨call, -, hflight⟩ := (hcounted _ _ _ hstate).exists_inFlight hpermitted hfull
    exact hnone call hflight

/-- Somebody is turned away while the only trial call is in flight, and after it has failed. -/
theorem inFlight_of_rejected_onlyTrial :
    let during := (begin touchy).run [.ask, .tell 0 .failure, .wait 1000, .ask]
    let after := (begin touchy).run [.ask, .tell 0 .failure, .wait 1000, .ask, .tell 1 .failure]
    (∃ call ∈ during.trials, during.InFlight call) ∧
      ∃ wakes, after.breaker.state = .opened wakes ∧ after.now < wakes := by
  refine ⟨(inFlight_of_rejected (by decide) _).1 (by decide +kernel) (by decide +kernel),
    ((inFlight_of_rejected (by decide) _).2 fun call hflight => ?_).mp (by decide +kernel)⟩
  have hcall : call < 2 := (sound_run _ _).mem_admissions.mp hflight.1
  obtain rfl | rfl : call = 0 ∨ call = 1 := by omega
  all_goals exact absurd hflight (by decide +kernel)

end History

end Breaker

end Clearing
