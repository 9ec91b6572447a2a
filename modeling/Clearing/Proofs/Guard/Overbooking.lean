import Clearing.Proofs.Guard.Trials
import Clearing.Proofs.Guard.Window

/-!
# Too many trial calls

A place that a trial call takes up can be given to another one when a call from before
the half-open period ends ignored, and once more with the next such call.  Nothing
bounds how many of them there are, and so nothing but their number bounds how many
trial calls there are: what `engaged_le_add_lateDrops` allows does happen, for every
breaker that can be opened by one failure (`exists_engaged_eq`).

## Strategy

Calls are admitted while the breaker is closed, and one of them fails.  The others
are the late calls; when the places of the half-open breaker have been taken, each of
them ends ignored and somebody asks after it.  `Overbooked` counts along.
-/

namespace Clearing

namespace Breaker

namespace History

variable {settings : BreakerSettings} {history : History}

/-- Trial calls take up the places that a half-open breaker knows of and some more, and there are
late calls, which may end ignored. -/
structure Overbooked (settings : BreakerSettings) (history : History) (admitted extra : Nat)
    (late : List Nat) : Prop where
  reached : Reached settings history
  state : history.breaker.state = .halfOpen admitted 0 0
  engaged : history.engaged = admitted + extra
  lateDrops : history.lateDrops = extra
  distinct : late.Nodup
  inFlight : ∀ call ∈ late, history.InFlight call
  early : ∀ call ∈ late, call ∉ history.trials

namespace Overbooked

variable {admitted extra : Nat} {late : List Nat}

theorem ask (hbooked : Overbooked settings history admitted extra late)
    (hroom : admitted < settings.halfOpenCalls) :
    Overbooked settings history.ask (admitted + 1) extra late := by
  have hsound := hbooked.reached.sound
  rw [← hbooked.reached.settings_eq] at hroom
  have hask : history.ask = history.note (.admitted history.next)
      { history.breaker with state := .halfOpen (admitted + 1) 0 0 } := by
    rw [History.ask, acquire_of_halfOpen hbooked.state, if_pos hroom]
    rfl
  refine ⟨hbooked.reached.ask, by rw [hask]; rfl, ?_, ?_, hbooked.distinct, ?_, ?_⟩
  · rw [hask, engaged_note_admitted rfl hsound, hbooked.engaged]
    omega
  · rw [hask, lateDrops_note_admitted rfl hsound, hbooked.lateDrops]
  · intro call hcall
    rw [hask, inFlight_note_admitted hsound]
    exact .inr (hbooked.inFlight call hcall)
  · intro call hcall
    have hold : call < history.next := hsound.mem_admissions.mp (hbooked.inFlight call hcall).1
    rw [hask, trials_note_admitted rfl, List.mem_cons, not_or]
    exact ⟨Nat.ne_of_lt hold, hbooked.early call hcall⟩

theorem drop {call : Nat} (hbooked : Overbooked settings history admitted extra (call :: late))
    (hplace : 0 < admitted) :
    Overbooked settings (history.hear call .ignored) (admitted - 1) (extra + 1) late := by
  have hflight := hbooked.inFlight call List.mem_cons_self
  have hearly := hbooked.early call List.mem_cons_self
  obtain ⟨hother, hdistinct⟩ := List.nodup_cons.mp hbooked.distinct
  have hdrop : history.hear call .ignored = history.note (.told call .ignored)
      { history.breaker with state := .halfOpen (admitted - 1) 0 0 } := by
    rw [hear, record_ignored_of_halfOpen hbooked.state]
  refine ⟨hbooked.reached.hear hflight _, by rw [hdrop]; rfl, ?_, ?_, hdistinct, ?_, ?_⟩
  · -- The breaker forgets a place, and all that are taken are taken still.
    have hengaged : (history.hear call .ignored).engaged +
        (if call ∈ history.trials then 1 else 0) = history.engaged := by
      rw [hdrop]
      exact engaged_note_ignored rfl hbooked.reached.sound hflight
    rw [if_neg hearly, hbooked.engaged] at hengaged
    omega
  · rw [hdrop, lateDrops_note_ignored rfl, if_neg hearly, hbooked.lateDrops]
  · intro other hmem
    rw [hdrop, inFlight_note_told]
    exact ⟨hbooked.inFlight other (List.mem_cons_of_mem _ hmem), ne_of_mem_of_not_mem hmem hother⟩
  · intro other hmem
    rw [hdrop, trials_note_told rfl]
    exact hbooked.early other (List.mem_cons_of_mem _ hmem)

/-- People ask until all places are taken. -/
theorem fill (hbooked : Overbooked settings history admitted extra late)
    (hwithin : admitted ≤ settings.halfOpenCalls) :
    ∃ later, Overbooked settings later settings.halfOpenCalls extra late := by
  induction hroom : settings.halfOpenCalls - admitted generalizing history admitted with
  | zero =>
      have hfull : admitted = settings.halfOpenCalls := by omega
      exact ⟨history, hfull ▸ hbooked⟩
  | succ room ih => exact ih (hbooked.ask (by omega)) (by omega) (by omega)

/-- The late calls end ignored one after the other, and each time somebody takes the place. -/
theorem overfill (hpermitted : 0 < settings.halfOpenCalls)
    (hbooked : Overbooked settings history settings.halfOpenCalls extra late) :
    ∃ later, Overbooked settings later settings.halfOpenCalls (extra + late.length) [] := by
  induction late generalizing history extra with
  | nil => exact ⟨history, hbooked⟩
  | cons call late ih =>
      have hagain := (hbooked.drop hpermitted).ask (by omega)
      rw [Nat.sub_add_cancel hpermitted] at hagain
      obtain ⟨later, hlater⟩ := ih hagain
      exact ⟨later, by rwa [List.length_cons, Nat.add_comm late.length, ← Nat.add_assoc]⟩

end Overbooked

/-! ## Late calls -/

/-- Everybody is admitted by a new breaker. -/
theorem exists_asked (settings : BreakerSettings) (count : Nat) :
    ∃ history, Reached settings history ∧ history.breaker = .new settings ∧
      endings history.past = [] ∧ history.next = count := by
  induction count with
  | zero => exact ⟨begin settings, ⟨[], rfl⟩, rfl, rfl, rfl⟩
  | succ count ih =>
      obtain ⟨history, hreached, hbreaker, hendings, hnext⟩ := ih
      have hask : history.ask = history.note (.admitted history.next) history.breaker := by
        rw [ask, acquire_of_closed (by rw [hbreaker]; rfl)]
        rfl
      refine ⟨history.ask, hreached.ask, by rw [hask]; exact hbreaker, ?_, ?_⟩
      · rw [hask, past_note, endings_admitted, hendings]
      · rw [hask, next, past_note, admissions_admitted, List.length_cons, ← hnext, next]

/-- A breaker has been opened by a failure, its time has come, and calls are still in flight. -/
theorem exists_due (htrips : Trips settings (slide settings.windowSize [] true)) (count : Nat) :
    ∃ history wakes, Reached settings history ∧ history.breaker.state = .opened wakes ∧
      wakes ≤ history.now ∧ ∀ call < count, history.InFlight call := by
  obtain ⟨history, hreached, hbreaker, hendings, hnext⟩ := exists_asked settings (count + 1)
  have hflight : ∀ call ≤ count, history.InFlight call := fun call hle =>
    ⟨hreached.sound.mem_admissions.mpr (by omega), by simp [hendings]⟩
  have hfailed : (history.hear count .failure).breaker = (new settings).trip history.now := by
    rw [breaker_hear, hbreaker]
    exact (record_verdict_of_closed history.now rfl rfl rfl (by decide)).trans (if_pos htrips)
  refine ⟨(history.hear count .failure).step (.wait settings.openMillis),
    history.now + settings.openMillis, (hreached.hear (hflight count (Nat.le_refl _)) _).step _, ?_,
    Nat.le_refl _, ?_⟩
  · rw [step, hfailed]
    rfl
  · intro call hlt
    exact inFlight_note_told.mpr ⟨hflight call (Nat.le_of_lt hlt), Nat.ne_of_lt hlt⟩

/-- A half-open breaker has admitted its first trial call while other calls are in flight. -/
theorem exists_overbooked (hpermitted : 0 < settings.halfOpenCalls)
    (htrips : Trips settings (slide settings.windowSize [] true)) (count : Nat) :
    ∃ history, Overbooked settings history 1 0 (List.range count) := by
  obtain ⟨history, wakes, hreached, hstate, hdue, hflight⟩ := exists_due htrips count
  have hsound := hreached.sound
  have hperiod := hsound.period_eq_nil (by simp [hstate])
  obtain ⟨hask, htrials⟩ :=
    ask_of_due hsound hstate hdue (by rwa [hreached.settings_eq])
  refine ⟨history.ask, hreached.ask, by rw [hask]; rfl, ?_, ?_, List.nodup_range, ?_, ?_⟩
  · rw [hask, engaged_note_admitted rfl hsound]
    simp [engaged, trials, hperiod]
  · rw [hask, lateDrops_note_admitted rfl hsound]
    simp [lateDrops, hperiod]
  · intro call hcall
    rw [hask, inFlight_note_admitted hsound]
    exact .inr (hflight call (List.mem_range.mp hcall))
  · intro call hcall
    have hold := hsound.mem_admissions.mp (hflight call (List.mem_range.mp hcall)).1
    rw [htrials, List.mem_singleton]
    exact Nat.ne_of_lt hold

/-- **Nothing but the number of late calls bounds the number of trial calls.** -/
theorem exists_engaged_eq (hpermitted : 0 < settings.halfOpenCalls)
    (htrips : Trips settings (slide settings.windowSize [] true)) (extra : Nat) :
    ∃ uses, let history := (begin settings).run uses
      history.breaker.state.isHalfOpen ∧ history.lateDrops = extra ∧
        history.engaged = settings.halfOpenCalls + extra := by
  obtain ⟨first, hfirst⟩ := exists_overbooked hpermitted htrips extra
  obtain ⟨full, hfull⟩ := hfirst.fill hpermitted
  obtain ⟨history, hbooked⟩ := hfull.overfill hpermitted
  rw [Nat.zero_add, List.length_range] at hbooked
  obtain ⟨uses, rfl⟩ := hbooked.reached
  exact ⟨uses, by rw [hbooked.state]; rfl, hbooked.lateDrops, hbooked.engaged⟩

example : Trips touchy (slide touchy.windowSize [] true) := by decide +kernel

end History

end Breaker

end Clearing
