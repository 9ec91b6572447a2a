import Clearing.Settings.Check

/-!
# Settings that were checked

A check succeeds exactly if every condition holds; the order of the conditions
decides only which violation is reported (`check_eq_ok_iff`).
-/

namespace Clearing.Settings

private theorem bind_eq_ok_iff {ε : Type} {first second : Except ε Unit} :
    (first >>= fun _ => second) = .ok () ↔ first = .ok () ∧ second = .ok () := by
  cases first with
  | error cause => simp [bind, Except.bind]
  | ok value => simp [bind, Except.bind]

theorem require_eq_ok_iff {condition : Bool} {field : String} {fault : SettingFault} :
    require condition field fault = .ok () ↔ condition = true := by
  cases condition <;> simp [require]

theorem requirePositive_eq_ok_iff {field : String} {value : Nat} :
    requirePositive field value = .ok () ↔ 0 < value := by
  rw [requirePositive, require_eq_ok_iff, decide_eq_true_iff]

/-- The settings of a breaker that can be used. -/
structure BreakerUsable (breaker : BreakerSettings) : Prop where
  windowSize : 0 < breaker.windowSize
  minimumCalls : 0 < breaker.minimumCalls
  halfOpenCalls : 0 < breaker.halfOpenCalls
  failureThreshold : isThreshold breaker.failureThreshold = true

theorem checkBreaker_eq_ok_iff {field : String} {breaker : BreakerSettings} :
    checkBreaker field breaker = .ok () ↔ BreakerUsable breaker := by
  simp only [checkBreaker, bind_eq_ok_iff, requirePositive_eq_ok_iff, require_eq_ok_iff]
  exact ⟨fun ⟨hwindow, hminimum, hhalfOpen, hthreshold⟩ =>
      ⟨hwindow, hminimum, hhalfOpen, hthreshold⟩,
    fun ⟨hwindow, hminimum, hhalfOpen, hthreshold⟩ =>
      ⟨hwindow, hminimum, hhalfOpen, hthreshold⟩⟩

/-- Settings that can be used. -/
structure Usable (settings : Settings) : Prop where
  deadlineMillis : 0 < settings.deadlineMillis
  subBatchSize : 0 < settings.batch.subBatchSize
  workers : 0 < settings.batch.workers
  inFlightPerWorker : 0 < settings.batch.inFlightPerWorker
  maxAttempts : 0 < settings.retry.maxAttempts
  multiplier : isMultiplier settings.retry.multiplier = true
  sharedBreaker : BreakerUsable settings.breakers.shared
  formatBreaker : BreakerUsable settings.breakers.perFormat
  sharedSlots : 0 < settings.bulkheads.shared.maxConcurrent
  formatSlots : 0 < settings.bulkheads.perFormat.maxConcurrent

/-- **A check succeeds exactly if the settings can be used.** -/
theorem check_eq_ok_iff {settings : Settings} : settings.check = .ok () ↔ settings.Usable := by
  simp only [check, bind_eq_ok_iff, requirePositive_eq_ok_iff, require_eq_ok_iff,
    checkBreaker_eq_ok_iff]
  constructor
  · rintro ⟨hdeadline, hsize, hworkers, hinFlight, hattempts, hmultiplier, hshared, hformat,
      hsharedSlots, hformatSlots⟩
    exact ⟨hdeadline, hsize, hworkers, hinFlight, hattempts, hmultiplier, hshared, hformat,
      hsharedSlots, hformatSlots⟩
  · rintro ⟨hdeadline, hsize, hworkers, hinFlight, hattempts, hmultiplier, hshared, hformat,
      hsharedSlots, hformatSlots⟩
    exact ⟨hdeadline, hsize, hworkers, hinFlight, hattempts, hmultiplier, hshared, hformat,
      hsharedSlots, hformatSlots⟩

end Clearing.Settings
