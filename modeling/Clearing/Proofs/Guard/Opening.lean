import Clearing.Proofs.Guard.Rate
import Clearing.Proofs.Guard.Window
import Clearing.Proofs.Settings.Check

/-!
# Whether a breaker opens

Settings of a breaker are checked one by one, but whether it can open depends on several
of them: the window must have room for as many outcomes as are asked for.  If it has,
a closed breaker opens after as many failures as fit into the window, whatever it was told
before (`AlwaysOpens`, `alwaysOpens_iff`).  If it has not, the breaker is closed in every
history, and nothing that is told to it makes a difference (`closed_of_short_window`).

The other condition is about rounding: the rate of failures in a window without a success
must reach the threshold.  It does unless the window has room for many more outcomes than
there is memory for.

## Strategy

`Reporting` is a stretch of a history in which calls end one after the other, all of them
the same way.  The outcomes that a closed breaker holds after such a stretch are known
(`Reporting.state_of_closed`), and there are stretches of any length
(`exists_reporting`).
-/

namespace Clearing

namespace Breaker

namespace History

variable {settings : BreakerSettings} {history later : History} {outcome : Outcome}

/-- Calls end one after the other, all of them the same way, and no time passes.  Others may ask as
long as nobody would become a trial call, and permits may be dropped. -/
inductive Reporting (outcome : Outcome) : Nat → History → History → Prop
  | none (history : History) : Reporting outcome 0 history history
  | ask {count : Nat} {history later : History}
      (hreporting : Reporting outcome count history later)
      (hstatus : later.breaker.status later.now ≠ .halfOpen) :
      Reporting outcome count history later.ask
  | drop {count : Nat} {history later : History}
      (hreporting : Reporting outcome count history later) {call : Nat}
      (hflight : later.InFlight call) :
      Reporting outcome count history (later.hear call .ignored)
  | tell {count : Nat} {history later : History}
      (hreporting : Reporting outcome count history later) {call : Nat}
      (hflight : later.InFlight call) :
      Reporting outcome (count + 1) history (later.hear call outcome)

theorem Reporting.reached {count : Nat} (hreporting : Reporting outcome count history later)
    (hreached : Reached settings history) : Reached settings later := by
  induction hreporting with
  | none => exact hreached
  | ask _ _ ih => exact (ih hreached).ask
  | drop _ hflight ih => exact (ih hreached).hear hflight _
  | tell _ hflight ih => exact (ih hreached).hear hflight _

theorem Reporting.now_eq {count : Nat} (hreporting : Reporting outcome count history later) :
    later.now = history.now := by
  induction hreporting with
  | none => rfl
  | ask _ _ ih => exact ih
  | drop _ _ ih => exact ih
  | tell _ _ ih => exact ih

theorem Reached.windowed (hreached : Reached settings history) : history.Windowed := by
  obtain ⟨uses, rfl⟩ := hreached
  exact windowed_run settings uses

/-! ## What the breaker holds -/

/-- The last outcomes after some more of them that are all the same. -/
def recentAfter (history : History) (failed : Bool) (count : Nat) : List Bool :=
  (List.replicate count failed ++ history.recent).take history.breaker.settings.windowSize

theorem recentAfter_zero (history : History) (failed : Bool) :
    history.recentAfter failed 0 = history.recent := by
  rw [recentAfter, List.replicate_zero, List.nil_append, recent, List.take_take, Nat.min_self]

theorem recentAfter_succ (history : History) (failed : Bool) (count : Nat) :
    history.recentAfter failed (count + 1) =
      slide history.breaker.settings.windowSize (history.recentAfter failed count) failed := by
  rw [recentAfter, recentAfter, slide_take]
  rfl

/-- While calls end the same way, a closed breaker opens as soon as the last outcomes say so, and
otherwise it holds them. -/
theorem Reporting.state_of_closed {count : Nat}
    (hreporting : Reporting outcome count history later) (hreached : Reached settings history)
    (hverdict : outcome ≠ .ignored) (hstate : history.breaker.state = .closed) :
    later.breaker.state = .closed ∧ later.recent = history.recentAfter (outcome = .failure) count ∧
        (∀ told ≤ count, ¬ Trips settings (history.recentAfter (outcome = .failure) told)) ∨
      later.breaker.state = .opened (history.now + settings.openMillis) ∧
        ∃ told ≤ count, Trips settings (history.recentAfter (outcome = .failure) told) := by
  induction hreporting with
  | none history =>
      refine .inl ⟨hstate, (recentAfter_zero ..).symm, fun told htold => ?_⟩
      obtain rfl := Nat.le_zero.mp htold
      rw [recentAfter_zero, ← hreached.settings_eq]
      exact (hreached.windowed.closed hstate).2.2
  | @ask count history later hreporting hstatus ih =>
      rcases ih hreached hstate with ⟨hclosed, hrecent, hquiet⟩ | ⟨hopened, htrips⟩
      · refine .inl ⟨?_, (recent_ask hclosed).trans hrecent, hquiet⟩
        rw [breaker_ask, acquire_of_closed hclosed]
        exact hclosed
      · refine .inr ⟨?_, htrips⟩
        have hearly : later.now < history.now + settings.openMillis := by
          rw [status, hopened] at hstatus
          by_contra hdue
          exact hstatus (if_pos (Nat.not_lt.mp hdue))
        rw [breaker_ask, acquire_of_early hopened hearly]
        exact hopened
  | drop _ _ ih =>
      rcases ih hreached hstate with ⟨hclosed, hrecent, hquiet⟩ | ⟨hopened, htrips⟩
      · refine .inl ⟨?_, (recent_hear_ignored hclosed _).trans hrecent, hquiet⟩
        rw [breaker_hear, record_ignored_of_closed hclosed]
        exact hclosed
      · refine .inr ⟨?_, htrips⟩
        rw [breaker_hear, record_of_opened hopened]
        exact hopened
  | @tell count history later hreporting call hflight ih =>
      rcases ih hreached hstate with ⟨hclosed, hrecent, hquiet⟩ | ⟨hopened, told, htold, htrips⟩
      · have hnow := hreporting.now_eq
        have hlater := hreporting.reached hreached
        have hsettings := hlater.settings_eq
        have hnext : (later.hear call outcome).recent =
            history.recentAfter (outcome = .failure) (count + 1) := by
          rw [recent_hear hclosed call hverdict, hrecent, recentAfter_succ, hsettings,
            hreached.settings_eq]
        have hstep := state_step_of_closed hlater.windowed hclosed (.tell call outcome)
        rw [step, if_pos hflight, hsettings, hnow, hnext] at hstep
        rcases hstep with ⟨hnot, hstill⟩ | ⟨htrips, -, hopened⟩
        · refine .inl ⟨hstill, hnext, fun told htold => ?_⟩
          rcases Nat.le_succ_iff.mp htold with hbefore | rfl
          · exact hquiet told hbefore
          · exact hnot
        · exact .inr ⟨hopened, count + 1, Nat.le_refl _, htrips⟩
      · refine .inr ⟨?_, told, by omega, htrips⟩
        rw [breaker_hear, record_of_opened hopened]
        exact hopened

/-! ## There are such stretches -/

/-- Any number of calls can be in flight while a breaker is closed. -/
theorem exists_inFlight (outcome : Outcome) (hreached : Reached settings history)
    (hstate : history.breaker.state = .closed) (count : Nat) :
    ∃ later, ∃ calls : List Nat, Reporting outcome 0 history later ∧ later.breaker.state = .closed ∧
      calls.length = count ∧ calls.Nodup ∧ ∀ call ∈ calls, later.InFlight call := by
  induction count with
  | zero => exact ⟨history, [], .none history, hstate, rfl, List.nodup_nil, List.forall_mem_nil _⟩
  | succ count ih =>
      obtain ⟨later, calls, hreporting, hclosed, hlength, hnodup, hflight⟩ := ih
      have hsound := (hreporting.reached hreached).sound
      have hask : later.ask = later.note (.admitted later.next) later.breaker := by
        rw [ask, acquire_of_closed hclosed]
        rfl
      have hstatus : later.breaker.status later.now ≠ .halfOpen := by
        simp [status, hclosed]
      refine ⟨later.ask, later.next :: calls, hreporting.ask hstatus, ?_, ?_, ?_, ?_⟩
      · rw [hask]
        exact hclosed
      · rw [List.length_cons, hlength]
      · refine List.nodup_cons.mpr ⟨fun hmem => ?_, hnodup⟩
        exact Nat.lt_irrefl _ (hsound.mem_admissions.mp (hflight _ hmem).1)
      · rw [hask]
        refine fun call hcall => (inFlight_note_admitted hsound).mpr ?_
        exact (List.mem_cons.mp hcall).imp_right (hflight call)

theorem Reporting.exists_tell {count : Nat} {calls : List Nat}
    (hreporting : Reporting outcome count history later) (hnodup : calls.Nodup)
    (hflight : ∀ call ∈ calls, later.InFlight call) :
    ∃ last, Reporting outcome (count + calls.length) history last := by
  induction calls generalizing count later with
  | nil => exact ⟨later, hreporting⟩
  | cons call rest ih =>
      obtain ⟨hfresh, hnodup⟩ := List.nodup_cons.mp hnodup
      obtain ⟨hfirst, hrest⟩ := List.forall_mem_cons.mp hflight
      obtain ⟨last, hlast⟩ := ih (hreporting.tell hfirst) hnodup fun other hother =>
        inFlight_note_told.mpr ⟨hrest other hother, fun hsame => hfresh (hsame ▸ hother)⟩
      refine ⟨last, ?_⟩
      rw [List.length_cons, Nat.add_comm rest.length, ← Nat.add_assoc]
      exact hlast

/-- A closed breaker can be told any number of outcomes. -/
theorem exists_reporting (outcome : Outcome) (hreached : Reached settings history)
    (hstate : history.breaker.state = .closed) (count : Nat) :
    ∃ later, Reporting outcome count history later := by
  obtain ⟨later, calls, hreporting, -, rfl, hnodup, hflight⟩ :=
    exists_inFlight outcome hreached hstate count
  simpa using hreporting.exists_tell hnodup hflight

/-! ## Windows that say nothing -/

/-- A window that never holds as many outcomes as are asked for says nothing. -/
theorem not_trips_of_short {window : List Bool}
    (hshort : settings.windowSize < settings.minimumCalls)
    (hlength : window.length ≤ settings.windowSize) : ¬ Trips settings window :=
  fun htrips => absurd htrips.1 (by omega)

/-- **A breaker with too short a window never opens.** -/
theorem closed_of_short_window (hshort : settings.windowSize < settings.minimumCalls)
    (uses : List Use) : ((begin settings).run uses).breaker.state = .closed := by
  induction uses using List.reverseRecOn with
  | nil => rfl
  | append_singleton uses last ih =>
      have hstep := state_step_of_closed (windowed_run settings uses) ih last
      rw [← run_append, settings_run] at hstep
      rcases hstep with ⟨-, hclosed⟩ | ⟨htrips, -⟩
      · exact hclosed
      · refine absurd htrips (not_trips_of_short hshort ?_)
        have hlength : ((begin settings).run (uses ++ [last])).recent.length ≤
            ((begin settings).run (uses ++ [last])).breaker.settings.windowSize :=
          List.length_take_le ..
        rwa [settings_run] at hlength

/-- A window without failures says nothing. -/
theorem not_trips_of_successes (husable : Settings.BreakerUsable settings)
    (hword : settings.windowSize < 18446744073709551616) {count : Nat}
    (hcount : count ≤ settings.windowSize) : ¬ Trips settings (List.replicate count false) := by
  rintro ⟨henough, hreached⟩
  have hminimum := husable.minimumCalls
  rw [List.length_replicate] at henough hreached
  rw [List.count_replicate, if_neg (by decide)] at hreached
  exact not_le_percent_zero husable.failureThreshold (by omega) (by omega) hreached

/-- If a full window without a success does not reach the threshold, no full window does. -/
theorem not_trips_of_full (husable : Settings.BreakerUsable settings)
    (hword : settings.windowSize < 18446744073709551616)
    (hlow : ¬ settings.failureThreshold.le (percent settings.windowSize settings.windowSize))
    {window : List Bool} (hfull : window.length = settings.windowSize) :
    ¬ Trips settings window := by
  rintro ⟨-, hreached⟩
  have hcount : window.count true ≤ settings.windowSize := hfull ▸ List.count_le_length
  rw [hfull] at hreached
  exact hlow (le_percent_mono hcount hword husable.windowSize hword hreached)

/-! ## Whether a breaker opens -/

/-- Whatever a closed breaker was told before: after as many failures as the window has room for,
and at least as many as are asked for, it is open. -/
def AlwaysOpens (settings : BreakerSettings) : Prop :=
  ∀ uses later, ((begin settings).run uses).breaker.state = .closed →
    Reporting .failure (max settings.windowSize settings.minimumCalls) ((begin settings).run uses)
      later →
    later.breaker.state = .opened (((begin settings).run uses).now + settings.openMillis)

theorem alwaysOpens_of_trips
    (htrips : Trips settings (List.replicate settings.windowSize true)) : AlwaysOpens settings := by
  intro uses later hstate hreporting
  have hfull : ((begin settings).run uses).recentAfter true settings.windowSize =
      List.replicate settings.windowSize true := by
    rw [recentAfter, settings_run, List.take_left' (List.length_replicate ..)]
  rcases hreporting.state_of_closed ⟨uses, rfl⟩ nofun hstate with ⟨-, -, hquiet⟩ | ⟨hopened, -⟩
  · refine absurd htrips (hfull ▸ ?_)
    exact hquiet settings.windowSize (Nat.le_max_left ..)
  · exact hopened

theorem not_alwaysOpens_of_short (hshort : settings.windowSize < settings.minimumCalls) :
    ¬ AlwaysOpens settings := by
  intro halways
  have hbegin : Reached settings (begin settings) := ⟨[], rfl⟩
  obtain ⟨later, hreporting⟩ := exists_reporting .failure hbegin rfl
    (max settings.windowSize settings.minimumCalls)
  obtain ⟨uses, rfl⟩ := hreporting.reached hbegin
  have hopened := halways [] _ rfl hreporting
  rw [closed_of_short_window hshort uses] at hopened
  cases hopened

/-- Successes fill the window, and then there are never enough failures in it. -/
theorem not_alwaysOpens_of_low (husable : Settings.BreakerUsable settings)
    (hword : settings.windowSize < 18446744073709551616)
    (hlow : ¬ settings.failureThreshold.le (percent settings.windowSize settings.windowSize)) :
    ¬ AlwaysOpens settings := by
  intro halways
  have hbegin : Reached settings (begin settings) := ⟨[], rfl⟩
  have hsuccesses (told : Nat) : (begin settings).recentAfter false told =
      List.replicate (min settings.windowSize told) false := by
    rw [recentAfter, show (begin settings).recent = [] from List.take_nil, List.append_nil,
      List.take_replicate]
    rfl
  obtain ⟨full, hfilled⟩ := exists_reporting .success hbegin rfl settings.windowSize
  have hreached := hfilled.reached hbegin
  rcases hfilled.state_of_closed hbegin nofun rfl with
    ⟨hclosed, hrecent, -⟩ | ⟨-, told, -, htrips⟩
  · obtain ⟨later, hfailed⟩ := exists_reporting .failure hreached hclosed
      (max settings.windowSize settings.minimumCalls)
    rcases hfailed.state_of_closed hreached nofun hclosed with ⟨hstill, -⟩ | ⟨-, told, -, htrips⟩
    · obtain ⟨uses, rfl⟩ := hreached
      have hopened := halways uses later hclosed hfailed
      rw [hstill] at hopened
      cases hopened
    · have hfull : full.recent.length = settings.windowSize := by
        rw [hrecent, show decide (Outcome.success = Outcome.failure) = false from rfl, hsuccesses,
          Nat.min_self, List.length_replicate]
      refine not_trips_of_full husable hword hlow ?_ htrips
      simp [recentAfter, hfull, hreached.settings_eq]
  · rw [show decide (Outcome.success = Outcome.failure) = false from rfl, hsuccesses] at htrips
    exact not_trips_of_successes husable hword (Nat.min_le_left ..) htrips

theorem alwaysOpens_iff (husable : Settings.BreakerUsable settings)
    (hword : settings.windowSize < 18446744073709551616) :
    AlwaysOpens settings ↔ settings.minimumCalls ≤ settings.windowSize ∧
      settings.failureThreshold.le (percent settings.windowSize settings.windowSize) := by
  constructor
  · intro halways
    refine ⟨?_, ?_⟩
    · exact Nat.not_lt.mp fun hshort => not_alwaysOpens_of_short hshort halways
    · by_contra hlow
      exact not_alwaysOpens_of_low husable hword hlow halways
  · rintro ⟨henough, hreached⟩
    refine alwaysOpens_of_trips ⟨?_, ?_⟩
    · rwa [List.length_replicate]
    · rwa [List.count_replicate_self, List.length_replicate]

/-- A window without a success reaches every threshold, if its size is not too large. -/
theorem le_percent_windowSize (husable : Settings.BreakerUsable settings)
    (hexact : settings.windowSize * 100 < twoTo 53) :
    settings.failureThreshold.le (percent settings.windowSize settings.windowSize) := by
  rw [percent_self husable.windowSize hexact]
  exact (Bool.and_eq_true_iff.mp husable.failureThreshold).2

/-- **Whether a breaker that was checked opens.**  It opens after as many failures as fit into the
window, whatever it was told before, if and only if the window has room for as many outcomes as are
asked for and the rate of failures in a window without a success, which is rounded, reaches the
threshold.  It does if the window is not too large.  A breaker whose window is too short is closed
in every history. -/
theorem alwaysOpens_of_checked {field : String}
    (hchecked : Settings.checkBreaker field settings = .ok ())
    (hword : settings.windowSize < 18446744073709551616) :
    (AlwaysOpens settings ↔ settings.minimumCalls ≤ settings.windowSize ∧
      settings.failureThreshold.le (percent settings.windowSize settings.windowSize)) ∧
    (settings.windowSize * 100 < twoTo 53 →
      settings.failureThreshold.le (percent settings.windowSize settings.windowSize)) ∧
    (settings.windowSize < settings.minimumCalls →
      ∀ uses, ((begin settings).run uses).breaker.state = .closed) := by
  have husable := Settings.checkBreaker_eq_ok_iff.mp hchecked
  exact ⟨alwaysOpens_iff husable hword, le_percent_windowSize husable, closed_of_short_window⟩

/-- Three outcomes have room, of which two are asked for. -/
theorem alwaysOpens_of_checked_roomy :
    let roomy := { touchy with windowSize := 3, minimumCalls := 2 }
    Settings.checkBreaker "circuit_breaker.global" roomy = .ok () ∧
      roomy.windowSize < 18446744073709551616 ∧ AlwaysOpens roomy := by
  have hchecked : Settings.checkBreaker "circuit_breaker.global"
      { touchy with windowSize := 3, minimumCalls := 2 } = .ok () := by decide +kernel
  obtain ⟨hopens, hreached, -⟩ := alwaysOpens_of_checked hchecked (by decide)
  exact ⟨hchecked, by decide, hopens.mpr ⟨by decide, hreached (by decide)⟩⟩

/-- Two outcomes are asked for and only one has room. -/
def shortWindow : BreakerSettings :=
  { touchy with windowSize := 1, minimumCalls := 2 }

/-- Such settings pass the check, and two failures leave the breaker closed. -/
theorem not_alwaysOpens_of_shortWindow :
    Settings.checkBreaker "circuit_breaker.global" shortWindow = .ok () ∧
      ¬ AlwaysOpens shortWindow := by
  refine ⟨by decide +kernel, fun halways => ?_⟩
  have hfirst : Reporting .failure 1 (begin shortWindow)
      ((begin shortWindow).ask.hear 0 .failure) :=
    .tell (.ask (.none _) (by decide)) (by decide +kernel)
  have hsecond : Reporting .failure 2 (begin shortWindow)
      (((begin shortWindow).ask.hear 0 .failure).ask.hear 1 .failure) :=
    .tell (.ask hfirst (by decide +kernel)) (by decide +kernel)
  have hopened := halways [] _ rfl hsecond
  exact absurd hopened (by decide +kernel)

end History

end Breaker

end Clearing
