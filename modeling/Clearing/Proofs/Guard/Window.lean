import Clearing.Proofs.Guard.History

/-!
# The sliding window

A breaker keeps a window and a counter and brings them up to date with every
outcome.  Here they are compared with what a history says: while the breaker is
closed the window holds the last outcomes since it became closed, as many as it has
room for, and the breaker opens with the first of them that makes the rate of
failures in it too high.  What the breaker does when it is open is part of the same
statement (`followsWindow_run`): it hears nothing and admits nobody until its time
has come, and then it admits a trial call.

## Strategy

`Windowed` is the invariant: what a closed breaker holds, and that there is nothing
in the window of any other.  A call that was admitted in another state may report
while the breaker is closed; its outcome counts like any other, so that the
invariant does not have to know about calls.
-/

namespace Clearing

namespace Breaker

namespace History

variable {history : History} {settings : BreakerSettings}

/-- The outcomes by which a closed breaker is to go, the latest first: of those that were told since
it became closed and were not ignored the last ones, as many as fit into the window. -/
def recent (history : History) : List Bool :=
  ((verdicts history.sinceClosed).map fun verdict => decide (verdict.2 = .failure)).take
    history.breaker.settings.windowSize

/-! ## The invariant -/

/-- The window is as it has to be: in a closed breaker it holds the last outcomes, the failures
among them are counted, and they do not make the breaker open; in any other there is nothing. -/
structure Windowed (history : History) : Prop where
  closed : history.breaker.state = .closed →
    history.breaker.window = history.recent.reverse ∧
      history.breaker.failures = history.recent.count true ∧
      ¬ Trips history.breaker.settings history.recent
  other : history.breaker.state ≠ .closed →
    history.breaker.window = [] ∧ history.breaker.failures = 0

theorem Windowed.of_same {later : History} (hwindowed : history.Windowed)
    (hbreaker : later.breaker = history.breaker) (hrecent : later.recent = history.recent) :
    later.Windowed := by
  refine ⟨?_, ?_⟩
  · rw [hbreaker, hrecent]
    exact hwindowed.closed
  · rw [hbreaker]
    exact hwindowed.other

theorem not_trips_nil (settings : BreakerSettings) : ¬ Trips settings [] := by
  have hrate : (percent 0 0).isNaN = true := by decide +kernel
  simp [Trips, Binary64.le, hrate]

theorem windowed_note (hstate : history.breaker.state ≠ .closed) {event : Event}
    {breaker : Breaker} (hwindow : breaker.window = []) (hfailures : breaker.failures = 0) :
    (history.note event breaker).Windowed := by
  have hrecent : (history.note event breaker).recent = [] := by
    simp [recent, sinceClosed_note_of_not_closed hstate]
  refine ⟨fun _ => ?_, fun _ => ⟨hwindow, hfailures⟩⟩
  rw [hrecent]
  exact ⟨hwindow, hfailures, not_trips_nil _⟩

theorem recent_ask (hstate : history.breaker.state = .closed) :
    history.ask.recent = history.recent := by
  unfold ask recent
  rw [acquire_of_closed hstate, sinceClosed_note_of_closed hstate]
  rfl

theorem recent_hear_ignored (hstate : history.breaker.state = .closed) (call : Nat) :
    (history.hear call .ignored).recent = history.recent := by
  unfold hear recent
  rw [record_ignored_of_closed hstate, sinceClosed_note_of_closed hstate]
  rfl

theorem recent_hear (hstate : history.breaker.state = .closed) (call : Nat) {outcome : Outcome}
    (hverdict : outcome ≠ .ignored) :
    (history.hear call outcome).recent =
      slide history.breaker.settings.windowSize history.recent (outcome = .failure) := by
  unfold hear recent
  -- What had no room before has none now.
  rw [sinceClosed_note_of_closed hstate, verdicts_told _ _ _ hverdict, slide_take]
  simp only [note, settings_record]
  rfl

theorem windowed_ask (hwindowed : history.Windowed) : history.ask.Windowed := by
  by_cases hstate : history.breaker.state = .closed
  · exact hwindowed.of_same (congrArg Prod.fst (acquire_of_closed hstate)) (recent_ask hstate)
  · obtain ⟨hwindow, hfailures⟩ := hwindowed.other hstate
    exact windowed_note hstate (by simpa using hwindow) (by simpa using hfailures)

theorem windowed_hear_verdict (hwindowed : history.Windowed)
    (hstate : history.breaker.state = .closed) (call : Nat) {outcome : Outcome}
    (hverdict : outcome ≠ .ignored) : (history.hear call outcome).Windowed := by
  obtain ⟨hwindow, hfailures, -⟩ := hwindowed.closed hstate
  have hrecent := recent_hear hstate call hverdict
  have hbreaker := record_verdict_of_closed history.now hstate hwindow hfailures hverdict
  rw [← hrecent] at hbreaker
  dsimp only at hbreaker
  split at hbreaker
  · refine ⟨fun hclosed => ?_, fun _ => by simp [hbreaker, trip, restart]⟩
    simp [hbreaker, trip, restart] at hclosed
  · rename_i hquiet
    refine ⟨fun _ => ?_, fun hother => absurd ?_ hother⟩
    · simp [hbreaker, hquiet]
    · simp [hbreaker, hstate]

theorem windowed_hear (hwindowed : history.Windowed) (call : Nat) (outcome : Outcome) :
    (history.hear call outcome).Windowed := by
  by_cases hstate : history.breaker.state = .closed
  · by_cases hverdict : outcome = .ignored
    · subst hverdict
      exact hwindowed.of_same (record_ignored_of_closed hstate) (recent_hear_ignored hstate call)
    · exact windowed_hear_verdict hwindowed hstate call hverdict
  · obtain ⟨hwindow, hfailures⟩ := hwindowed.other hstate
    have hrecorded := record_of_not_closed history.now hstate hwindow hfailures outcome
    exact windowed_note hstate hrecorded.1 hrecorded.2

theorem windowed_run (settings : BreakerSettings) (uses : List Use) :
    ((begin settings).run uses).Windowed := by
  refine run_induction ⟨fun _ => ?_, fun _ => ⟨rfl, rfl⟩⟩
    (fun _ _ hwindowed => hwindowed.of_same rfl rfl) (fun _ _ hwindowed => windowed_ask hwindowed)
    (fun _ call outcome _ _ hwindowed => windowed_hear hwindowed call outcome) uses
  have hrecent : (begin settings).recent = [] := List.take_nil
  rw [hrecent]
  exact ⟨rfl, rfl, not_trips_nil _⟩

/-! ## What the window decides -/

theorem step_of_closed (hstate : history.breaker.state = .closed) (use : Use) :
    (∃ call outcome, use = .tell call outcome ∧ outcome ≠ .ignored ∧
      history.step use = history.hear call outcome) ∨
    (history.step use).breaker = history.breaker ∧ (history.step use).recent = history.recent := by
  have hask : history.ask.breaker = history.breaker :=
    congrArg Prod.fst (acquire_of_closed hstate)
  have hignored (call : Nat) : (history.hear call .ignored).breaker = history.breaker :=
    record_ignored_of_closed hstate
  cases use with
  | ask => exact .inr ⟨hask, recent_ask hstate⟩
  | tell call outcome =>
      by_cases hflight : history.InFlight call
      · by_cases hverdict : outcome = .ignored
        · subst hverdict
          rw [step, if_pos hflight]
          exact .inr ⟨hignored call, recent_hear_ignored hstate call⟩
        · exact .inl ⟨call, outcome, rfl, hverdict, if_pos hflight⟩
      · rw [step, if_neg hflight]
        exact .inr ⟨rfl, rfl⟩
  | drop call =>
      by_cases hflight : history.InFlight call
      · rw [step, if_pos hflight]
        exact .inr ⟨hignored call, recent_hear_ignored hstate call⟩
      · rw [step, if_neg hflight]
        exact .inr ⟨rfl, rfl⟩
  | wait millis => exact .inr ⟨rfl, rfl⟩

/-- A closed breaker opens with a verdict, and exactly if the last outcomes then say so. -/
theorem state_step_of_closed (hwindowed : history.Windowed)
    (hstate : history.breaker.state = .closed) (use : Use) :
    ¬ Trips history.breaker.settings (history.step use).recent ∧
        (history.step use).breaker.state = .closed ∨
      Trips history.breaker.settings (history.step use).recent ∧
        (∃ call outcome, use = .tell call outcome ∧ outcome ≠ .ignored) ∧
        (history.step use).breaker.state =
          .opened (history.now + history.breaker.settings.openMillis) := by
  obtain ⟨hwindow, hfailures, hquiet⟩ := hwindowed.closed hstate
  rcases step_of_closed hstate use with
    ⟨call, outcome, htell, hverdict, hstep⟩ | ⟨hbreaker, hrecent⟩
  · have hrecord := record_verdict_of_closed history.now hstate hwindow hfailures hverdict
    rw [← recent_hear hstate call hverdict] at hrecord
    rw [hstep, breaker_hear, hrecord]
    by_cases htrips : Trips history.breaker.settings (history.hear call outcome).recent
    · exact .inr ⟨htrips, ⟨call, outcome, htell, hverdict⟩, by simp [htrips, trip, restart]⟩
    · exact .inl ⟨htrips, by simp [htrips, hstate]⟩
  · rw [hbreaker, hrecent]
    exact .inl ⟨hquiet, hstate⟩

theorem Windowed.not_reached (hwindowed : history.Windowed)
    (hstate : history.breaker.state = .closed) :
    history.breaker.window.length < history.breaker.settings.minimumCalls ∨
      history.breaker.settings.failureThreshold.le
        (percent history.breaker.failures history.breaker.window.length) = false := by
  obtain ⟨hwindow, hfailures, hquiet⟩ := hwindowed.closed hstate
  rw [hwindow, hfailures, List.length_reverse]
  by_cases hfew : history.recent.length < history.breaker.settings.minimumCalls
  · exact .inl hfew
  · exact .inr (Bool.eq_false_iff.mpr fun hreached => hquiet ⟨Nat.not_lt.mp hfew, hreached⟩)

theorem Windowed.length_le (hwindowed : history.Windowed)
    (hstate : history.breaker.state = .closed) :
    history.breaker.window.length ≤ history.breaker.settings.windowSize := by
  rw [(hwindowed.closed hstate).1, List.length_reverse]
  exact List.length_take_le ..

/-- Once its time has come, an open breaker admits a call, which is the first of its half-open
period. -/
theorem ask_of_due (hsound : history.Sound) {wakes : Nat}
    (hstate : history.breaker.state = .opened wakes) (hdue : wakes ≤ history.now)
    (hpermitted : 0 < history.breaker.settings.halfOpenCalls) :
    history.ask = history.note (.admitted history.next)
        { history.breaker with state := .halfOpen 1 0 0 } ∧
      history.ask.trials = [history.next] := by
  have hask : history.ask = history.note (.admitted history.next)
      { history.breaker with state := .halfOpen 1 0 0 } := by
    rw [ask, acquire_of_due hstate hdue, acquire_of_halfOpen rfl, if_pos hpermitted]
    rfl
  have hfresh : history.period = [] := hsound.period_eq_nil (by simp [hstate])
  refine ⟨hask, ?_⟩
  rw [hask, trials, period_note_of_halfOpen rfl, hfresh]
  rfl

/-- The breaker does what a sliding window of the outcomes told to it asks for.  Nothing of this
mentions what the breaker did before: `recent` and `InFlight` are read off the history. -/
structure FollowsWindow (history : History) : Prop where
  /-- The window of a closed breaker holds the last outcomes since it became closed. -/
  window : history.breaker.state = .closed → history.breaker.window = history.recent.reverse
  /-- The counter counts the failures in the window. -/
  failures : history.breaker.state = .closed →
    history.breaker.failures = history.breaker.window.count true
  /-- The counter never has to go below zero when outcomes leave the window. -/
  checked : history.breaker.state = .closed → ∀ failed,
    (shrink? history.breaker.settings.windowSize (history.breaker.window ++ [failed])
      (history.breaker.failures + if failed then 1 else 0)).isSome
  /-- A closed breaker has heard too little, or the rate has not reached the threshold. -/
  quiet : history.breaker.state = .closed →
    history.breaker.window.length < history.breaker.settings.minimumCalls ∨
      history.breaker.settings.failureThreshold.le
        (percent history.breaker.failures history.breaker.window.length) = false
  /-- If the threshold is a number, and the window not larger than memory, the rate is below it. -/
  below : history.breaker.state = .closed →
    history.breaker.settings.failureThreshold.isNaN = false →
    history.breaker.settings.windowSize < 18446744073709551616 →
    history.breaker.window.length < history.breaker.settings.minimumCalls ∨
      (percent history.breaker.failures history.breaker.window.length).lt
        history.breaker.settings.failureThreshold
  /-- A closed breaker opens as soon as the last outcomes are enough and the rate of failures among
  them has reached the threshold, and not before. -/
  opens : history.breaker.state = .closed → ∀ use,
    (history.step use).breaker.state ≠ .closed ↔
      Trips history.breaker.settings (history.step use).recent
  /-- What opens it is a success or a failure that is told, and it stays open for its time. -/
  opened : history.breaker.state = .closed → ∀ use, (history.step use).breaker.state ≠ .closed →
    (∃ call outcome, use = .tell call outcome ∧ outcome ≠ .ignored) ∧
      (history.step use).breaker.state =
        .opened (history.now + history.breaker.settings.openMillis)
  /-- Outside the closed state there is nothing in the window. -/
  empty : history.breaker.state ≠ .closed →
    history.breaker.window = [] ∧ history.breaker.failures = 0
  /-- An open breaker hears nothing. -/
  deaf : ∀ wakes, history.breaker.state = .opened wakes → ∀ call outcome,
    (history.hear call outcome).breaker = history.breaker
  /-- Before its time an open breaker turns everybody away. -/
  rejects : ∀ wakes, history.breaker.state = .opened wakes → history.now < wakes →
    history.ask = history.note .rejected history.breaker
  /-- From its time on it admits whoever comes first as a trial call. -/
  probes : ∀ wakes, history.breaker.state = .opened wakes → wakes ≤ history.now →
    history.ask = history.note (.admitted history.next)
        { history.breaker with state := .halfOpen 1 0 0 } ∧
      history.ask.trials = [history.next]
  /-- A closed breaker does not care for ignored outcomes. -/
  ignores : history.breaker.state = .closed → ∀ call,
    (history.hear call .ignored).breaker = history.breaker

/-- **The breaker follows its sliding window**, in every history. -/
theorem followsWindow_run (hminimum : 0 < settings.minimumCalls)
    (hpermitted : 0 < settings.halfOpenCalls) (uses : List Use) :
    ((begin settings).run uses).FollowsWindow := by
  have hwindowed := windowed_run settings uses
  have hsound := sound_run settings uses
  rw [← settings_run settings uses] at hminimum hpermitted
  generalize (begin settings).run uses = history at hminimum hpermitted hwindowed hsound ⊢
  exact {
    window := fun hstate => (hwindowed.closed hstate).1
    failures := fun hstate => by
      rw [(hwindowed.closed hstate).2.1, (hwindowed.closed hstate).1, List.count_reverse]
    checked := fun hstate failed => by
      rw [push_checked (hwindowed.closed hstate).1 (hwindowed.closed hstate).2.1]
      rfl
    quiet := hwindowed.not_reached
    below := fun hstate hthreshold hmemory => by
      by_cases hfew : history.breaker.window.length < history.breaker.settings.minimumCalls
      · exact .inl hfew
      · -- Something was heard, so that the rate is a number.
        have hlength := hwindowed.length_le hstate
        exact .inr (percent_lt hthreshold (by omega) (by omega)
          ((hwindowed.not_reached hstate).resolve_left hfew))
    opens := fun hstate use => by
      rcases state_step_of_closed hwindowed hstate use with ⟨hnot, hclosed⟩ | ⟨htrips, -, hopen⟩
      · exact iff_of_false (not_not_intro hclosed) hnot
      · exact iff_of_true (by simp [hopen]) htrips
    opened := fun hstate use hleft => by
      rcases state_step_of_closed hwindowed hstate use with ⟨-, hclosed⟩ | ⟨-, hopen⟩
      · exact absurd hclosed hleft
      · exact hopen
    empty := hwindowed.other
    deaf := fun wakes hstate call outcome => record_of_opened hstate outcome
    rejects := fun wakes hstate hearly => by
      rw [ask, acquire_of_early hstate hearly]
      rfl
    probes := fun wakes hstate hdue => ask_of_due hsound hstate hdue hpermitted
    ignores := fun hstate call => record_ignored_of_closed hstate }

/-- Two outcomes have room, and the first of three is gone. -/
theorem followsWindow_of_three :
    let history := (begin { touchy with
      windowSize := 2, minimumCalls := 2, failureThreshold := .ofNat 60 }).run
        [.ask, .ask, .ask, .tell 0 .failure, .tell 2 .success, .tell 1 .failure]
    history.breaker.state = .closed ∧ history.breaker.window = [false, true] ∧
      history.FollowsWindow :=
  ⟨by decide +kernel, by decide +kernel, followsWindow_run (by decide) (by decide) _⟩

end History

end Breaker

end Clearing
