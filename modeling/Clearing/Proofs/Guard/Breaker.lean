import Clearing.Guard.Breaker
import Clearing.Proofs.Number.Binary64

/-!
# What a breaker does

One equation for each thing that a caller can do and each state in which the
breaker can be.  What is proved about breakers goes by these equations, or by
`notes_record`, which says what can become of a breaker that is told an outcome.

The window is described without its counter: after one more outcome it holds the
last outcomes, as many as it has room for, and the counter is the number of
failures among them (`push_eq`).  The counter is taken down only while a failure
is counted in it (`shrink?_eq`).

A rate of failures is a number as soon as something was counted, and so it is below
the threshold unless it has reached it (`percent_lt`).
-/

namespace Clearing

namespace BreakerState

/-- Half-open, whatever was counted since. -/
def isHalfOpen : BreakerState → Bool
  | .halfOpen .. => true
  | _ => false

@[simp] theorem isHalfOpen_closed : closed.isHalfOpen = false := rfl

@[simp] theorem isHalfOpen_opened (wakes : Nat) : (opened wakes).isHalfOpen = false := rfl

@[simp] theorem isHalfOpen_halfOpen (admitted successes failures : Nat) :
    (halfOpen admitted successes failures).isHalfOpen = true := rfl

theorem isHalfOpen_iff {state : BreakerState} :
    state.isHalfOpen ↔
      ∃ admitted successes failures, state = .halfOpen admitted successes failures := by
  cases state <;> simp

end BreakerState

theorem Outcome.counted_once {outcome : Outcome} (hverdict : outcome ≠ .ignored) :
    (if outcome = .success then 1 else 0) + (if outcome = .failure then 1 else 0) = 1 := by
  cases outcome <;> simp at hverdict ⊢

namespace Breaker

variable {breaker : Breaker} {now : Nat}

/-! ## Admission -/

theorem acquire_of_closed (hstate : breaker.state = .closed) :
    breaker.acquire now = (breaker, true) := by
  simp [acquire, approach, hstate]

theorem acquire_of_early {wakes : Nat} (hstate : breaker.state = .opened wakes)
    (hearly : now < wakes) : breaker.acquire now = (breaker, false) := by
  simp [acquire, approach, hstate, Nat.not_le.mpr hearly]

theorem acquire_of_due {wakes : Nat} (hstate : breaker.state = .opened wakes)
    (hdue : wakes ≤ now) :
    breaker.acquire now = { breaker with state := .halfOpen 0 0 0 }.acquire now := by
  simp [acquire, approach, hstate, hdue]

theorem acquire_of_halfOpen {admitted successes failures : Nat}
    (hstate : breaker.state = .halfOpen admitted successes failures) :
    breaker.acquire now =
      if admitted < breaker.settings.halfOpenCalls then
        ({ breaker with state := .halfOpen (admitted + 1) successes failures }, true)
      else (breaker, false) := by
  simp [acquire, approach, hstate]

theorem acquire_eq (breaker : Breaker) (now : Nat) :
    ∃ state, (breaker.acquire now).1 = { breaker with state } := by
  cases hstate : breaker.state with
  | closed => exact ⟨breaker.state, by rw [acquire_of_closed hstate]⟩
  | opened wakes =>
      by_cases hdue : wakes ≤ now
      · rw [acquire_of_due hstate hdue, acquire_of_halfOpen rfl]
        split <;> exact ⟨_, rfl⟩
      · exact ⟨breaker.state, by rw [acquire_of_early hstate (Nat.not_le.mp hdue)]⟩
  | halfOpen admitted successes failures =>
      rw [acquire_of_halfOpen hstate]
      split
      · exact ⟨_, rfl⟩
      · exact ⟨breaker.state, rfl⟩

@[simp] theorem settings_acquire (breaker : Breaker) (now : Nat) :
    (breaker.acquire now).1.settings = breaker.settings := by
  obtain ⟨state, hacquire⟩ := breaker.acquire_eq now
  rw [hacquire]

@[simp] theorem window_acquire (breaker : Breaker) (now : Nat) :
    (breaker.acquire now).1.window = breaker.window := by
  obtain ⟨state, hacquire⟩ := breaker.acquire_eq now
  rw [hacquire]

@[simp] theorem failures_acquire (breaker : Breaker) (now : Nat) :
    (breaker.acquire now).1.failures = breaker.failures := by
  obtain ⟨state, hacquire⟩ := breaker.acquire_eq now
  rw [hacquire]

/-- Somebody is turned away before the time of an open breaker, and by a half-open one that has no
place left. -/
theorem acquire_eq_false_iff (hpermitted : 0 < breaker.settings.halfOpenCalls) :
    (breaker.acquire now).2 = false ↔
      (∃ wakes, breaker.state = .opened wakes ∧ now < wakes) ∨
        ∃ admitted successes failures, breaker.state = .halfOpen admitted successes failures ∧
          breaker.settings.halfOpenCalls ≤ admitted := by
  cases hstate : breaker.state with
  | closed => simp [acquire_of_closed hstate]
  | opened wakes =>
      by_cases hdue : wakes ≤ now
      · rw [acquire_of_due hstate hdue, acquire_of_halfOpen rfl, if_pos hpermitted]
        simp [Nat.not_lt.mpr hdue]
      · simp [acquire_of_early hstate (Nat.not_le.mp hdue), Nat.not_le.mp hdue]
  | halfOpen admitted successes failures =>
      rw [acquire_of_halfOpen hstate]
      by_cases hroom : admitted < breaker.settings.halfOpenCalls
      · simp [hroom, Nat.not_le.mpr hroom]
      · simp [hroom, Nat.not_lt.mp hroom]

/-! ## Outcomes -/

theorem record_of_opened {wakes : Nat} (hstate : breaker.state = .opened wakes)
    (outcome : Outcome) : breaker.record now outcome = breaker := by
  cases outcome <;> simp [record, hstate]

theorem record_ignored_of_closed (hstate : breaker.state = .closed) :
    breaker.record now .ignored = breaker := by
  simp [record, hstate]

theorem record_of_closed (hstate : breaker.state = .closed) {outcome : Outcome}
    (hverdict : outcome ≠ .ignored) :
    breaker.record now outcome =
      let pushed := breaker.push (outcome = .failure)
      if pushed.settings.minimumCalls ≤ pushed.window.length ∧
          pushed.tooMany pushed.failures pushed.window.length then
        pushed.trip now
      else pushed := by
  cases outcome <;> simp [record, hstate] at hverdict ⊢

theorem record_ignored_of_halfOpen {admitted successes failures : Nat}
    (hstate : breaker.state = .halfOpen admitted successes failures) :
    breaker.record now .ignored =
      { breaker with state := .halfOpen (admitted - 1) successes failures } := by
  simp [record, hstate]

/-- An outcome that says nothing leaves the window alone. -/
theorem record_ignored_eq (breaker : Breaker) (now : Nat) :
    ∃ state, breaker.record now .ignored = { breaker with state } := by
  cases hstate : breaker.state with
  | closed => exact ⟨breaker.state, by rw [record_ignored_of_closed hstate]⟩
  | opened wakes => exact ⟨breaker.state, by rw [record_of_opened hstate]⟩
  | halfOpen admitted successes failures => exact ⟨_, record_ignored_of_halfOpen hstate⟩

theorem record_of_halfOpen {admitted successes failures : Nat}
    (hstate : breaker.state = .halfOpen admitted successes failures) {outcome : Outcome}
    (hverdict : outcome ≠ .ignored) :
    breaker.record now outcome =
      breaker.recordTrial now admitted (successes + if outcome = .success then 1 else 0)
        (failures + if outcome = .failure then 1 else 0) := by
  cases outcome <;> simp [record, hstate] at hverdict ⊢

@[simp] theorem settings_push (breaker : Breaker) (failed : Bool) :
    (breaker.push failed).settings = breaker.settings := rfl

@[simp] theorem settings_trip (breaker : Breaker) (now : Nat) :
    (breaker.trip now).settings = breaker.settings := rfl

/-! ### Trial calls -/

theorem recordTrial_of_lt {admitted successes failures : Nat}
    (hundecided : successes + failures < breaker.settings.halfOpenCalls) :
    breaker.recordTrial now admitted successes failures =
      { breaker with state := .halfOpen admitted successes failures } := by
  simp [recordTrial, hundecided]

/-- After the last trial call the breaker opens again or closes, with nothing in its window. -/
theorem recordTrial_eq_restart {admitted successes failures : Nat}
    (hdecided : breaker.settings.halfOpenCalls ≤ successes + failures) :
    breaker.recordTrial now admitted successes failures =
      breaker.restart
        (if breaker.tooMany failures (successes + failures) then
          .opened (now + breaker.settings.openMillis)
        else .closed) := by
  simp only [recordTrial, if_neg (Nat.not_lt.mpr hdecided)]
  split <;> rfl

theorem state_recordTrial_of_le {admitted successes failures : Nat}
    (hdecided : breaker.settings.halfOpenCalls ≤ successes + failures) :
    (breaker.recordTrial now admitted successes failures).state =
      if breaker.tooMany failures (successes + failures) then
        .opened (now + breaker.settings.openMillis)
      else .closed := by
  rw [recordTrial_eq_restart hdecided]
  rfl

/-! ## The window -/

/-- The same as `shrink`, unless the counter would have to go below zero. -/
def shrink? (size : Nat) : List Bool → Nat → Option (List Bool × Nat)
  | [], failures => some ([], failures)
  | oldest :: rest, failures =>
    if size < rest.length + 1 then
      if oldest then if failures = 0 then none else shrink? size rest (failures - 1)
      else shrink? size rest failures
    else some (oldest :: rest, failures)

section Drop

variable {size : Nat} {rest : List Bool}

theorem drop_cons_of_lt (oldest : Bool) (hlarge : size < rest.length + 1) :
    (oldest :: rest).drop ((oldest :: rest).length - size) = rest.drop (rest.length - size) := by
  rw [List.length_cons, Nat.sub_add_comm (by omega), List.drop_succ_cons]

theorem drop_cons_of_not_lt (oldest : Bool) (hsmall : ¬ size < rest.length + 1) :
    (oldest :: rest).drop ((oldest :: rest).length - size) = oldest :: rest := by
  have hkeep : (oldest :: rest).length - size = 0 := by
    rw [List.length_cons]
    omega
  rw [hkeep, List.drop_zero]

end Drop

/-- Whatever the counter says, the last outcomes are left. -/
theorem fst_shrink (size : Nat) (window : List Bool) (failures : Nat) :
    (shrink size window failures).1 = window.drop (window.length - size) := by
  induction window generalizing failures with
  | nil => simp [shrink]
  | cons oldest rest ih =>
      unfold shrink
      split
      · rename_i hlarge
        rw [ih, drop_cons_of_lt oldest hlarge]
      · rename_i hsmall
        rw [drop_cons_of_not_lt oldest hsmall]

/-- If the counter counts the failures, it can be taken down whenever one of them goes. -/
theorem shrink?_eq (size : Nat) (window : List Bool) :
    shrink? size window (window.count true) =
      some (window.drop (window.length - size),
        (window.drop (window.length - size)).count true) := by
  -- The oldest outcome goes first, so that the induction is on the window as it is.
  induction window with
  | nil => simp [shrink?]
  | cons oldest rest ih =>
      unfold shrink?
      split
      · rename_i hlarge
        rw [drop_cons_of_lt oldest hlarge, ← ih]
        cases oldest <;> simp
      · rename_i hsmall
        rw [drop_cons_of_not_lt oldest hsmall]

theorem shrink_of_shrink? {size failures : Nat} {window : List Bool} {shrunk : List Bool × Nat}
    (hshrunk : shrink? size window failures = some shrunk) :
    shrink size window failures = shrunk := by
  induction window generalizing failures with
  | nil =>
      cases hshrunk
      rfl
  | cons oldest rest ih =>
      unfold shrink? at hshrunk
      unfold shrink
      split at hshrunk
      · rename_i hlarge
        rw [if_pos hlarge]
        cases oldest with
        | false => exact ih hshrunk
        | true =>
            rw [if_pos rfl] at hshrunk ⊢
            split at hshrunk
            · cases hshrunk
            · exact ih hshrunk
      · rename_i hsmall
        rw [if_neg hsmall]
        exact Option.some.inj hshrunk

/-- The last outcomes after one more, the latest first. -/
def slide (size : Nat) (recent : List Bool) (failed : Bool) : List Bool :=
  (failed :: recent).take size

theorem slide_take (size : Nat) (recent : List Bool) (failed : Bool) :
    slide size (recent.take size) failed = slide size recent failed := by
  cases size with
  | zero => rfl
  | succ size => simp [slide, List.take_take]

section Push

variable {recent : List Bool} (hwindow : breaker.window = recent.reverse)
  (hfailures : breaker.failures = recent.count true)

include hwindow hfailures

theorem push_checked (failed : Bool) :
    shrink? breaker.settings.windowSize (breaker.window ++ [failed])
      (breaker.failures + if failed then 1 else 0) =
        some ((slide breaker.settings.windowSize recent failed).reverse,
          (slide breaker.settings.windowSize recent failed).count true) := by
  have hgrown : breaker.window ++ [failed] = (failed :: recent).reverse := by simp [hwindow]
  have hcounted : breaker.failures + (if failed then 1 else 0) =
      (breaker.window ++ [failed]).count true := by
    rw [hgrown, List.count_reverse, List.count_cons, hfailures]
    cases failed <;> rfl
  rw [hcounted, shrink?_eq, hgrown, ← List.reverse_reverse (List.drop _ _), ← List.take_reverse,
    List.reverse_reverse, List.count_reverse]
  rfl

theorem push_eq (failed : Bool) :
    breaker.push failed =
      { breaker with
        window := (slide breaker.settings.windowSize recent failed).reverse
        failures := (slide breaker.settings.windowSize recent failed).count true } := by
  rw [push, shrink_of_shrink? (push_checked hwindow hfailures failed)]

end Push

/-! ## What is told -/

/-- The breaker with one more outcome in its window, which keeps the last ones that it has room
for. -/
structure Entered (breaker : Breaker) (failed : Bool) (later : Breaker) : Prop where
  settings : later.settings = breaker.settings
  state : later.state = breaker.state
  window : later.window = (breaker.window ++ [failed]).drop
    ((breaker.window ++ [failed]).length - breaker.settings.windowSize)
  failures : breaker.failures = breaker.window.count true →
    later.failures = later.window.count true

theorem entered_push (breaker : Breaker) (failed : Bool) :
    breaker.Entered failed (breaker.push failed) := by
  refine ⟨rfl, rfl, fst_shrink .., fun hcounted => ?_⟩
  have hcount : breaker.failures = breaker.window.reverse.count true := by
    rw [hcounted, List.count_reverse]
  rw [push_eq (List.reverse_reverse _).symm hcount, List.count_reverse]

/-- Enough outcomes are in the window of a breaker, and too many of them are failures. -/
def Overrun (breaker : Breaker) : Prop :=
  breaker.settings.minimumCalls ≤ breaker.window.length ∧
    breaker.tooMany breaker.failures breaker.window.length

/-- What becomes of a breaker that is told an outcome at a given time. -/
inductive Notes (breaker : Breaker) (now : Nat) (outcome : Outcome) : Breaker → Prop
  /-- An open breaker takes no notice. -/
  | missed {wakes : Nat} (hstate : breaker.state = .opened wakes) : Notes breaker now outcome breaker
  /-- A closed breaker has nothing to note. -/
  | nothing (hstate : breaker.state = .closed) (hignored : outcome = .ignored) :
      Notes breaker now outcome breaker
  /-- A success or a failure is the latest outcome in the window of a closed breaker. -/
  | entered {later : Breaker} (hstate : breaker.state = .closed) (hverdict : outcome ≠ .ignored)
      (hentered : breaker.Entered (outcome = .failure) later) (hquiet : ¬ later.Overrun) :
      Notes breaker now outcome later
  /-- With it there are too many failures, and the breaker opens. -/
  | tripped {later : Breaker} (hstate : breaker.state = .closed) (hverdict : outcome ≠ .ignored)
      (hentered : breaker.Entered (outcome = .failure) later) (hoverrun : later.Overrun) :
      Notes breaker now outcome
        { later with
          state := .opened (now + later.settings.openMillis)
          window := []
          failures := 0 }
  /-- The place of a trial call is free again. -/
  | withdrawn {admitted successes failures : Nat}
      (hstate : breaker.state = .halfOpen admitted successes failures)
      (hignored : outcome = .ignored) :
      Notes breaker now outcome { breaker with state := .halfOpen (admitted - 1) successes failures }
  /-- One more trial call succeeded or failed, and more are to come. -/
  | counted {admitted successes failures successes' failures' : Nat}
      (hstate : breaker.state = .halfOpen admitted successes failures)
      (hverdict : outcome ≠ .ignored)
      (hsuccesses : successes' = successes + if outcome = .success then 1 else 0)
      (hfailures : failures' = failures + if outcome = .failure then 1 else 0)
      (hmore : successes' + failures' < breaker.settings.halfOpenCalls) :
      Notes breaker now outcome { breaker with state := .halfOpen admitted successes' failures' }
  /-- It was the last one, and the trial calls decide. -/
  | decided {admitted successes failures successes' failures' : Nat}
      (hstate : breaker.state = .halfOpen admitted successes failures)
      (hverdict : outcome ≠ .ignored)
      (hsuccesses : successes' = successes + if outcome = .success then 1 else 0)
      (hfailures : failures' = failures + if outcome = .failure then 1 else 0)
      (hlast : breaker.settings.halfOpenCalls ≤ successes' + failures') :
      Notes breaker now outcome
        { breaker with
          state :=
            if breaker.tooMany failures' (successes' + failures') then
              .opened (now + breaker.settings.openMillis)
            else .closed
          window := []
          failures := 0 }

/-- **A breaker does nothing else with an outcome.** -/
theorem notes_record (breaker : Breaker) (now : Nat) (outcome : Outcome) :
    breaker.Notes now outcome (breaker.record now outcome) := by
  cases hstate : breaker.state with
  | opened wakes =>
      rw [record_of_opened hstate]
      exact .missed hstate
  | closed =>
      by_cases hignored : outcome = .ignored
      · rw [hignored, record_ignored_of_closed hstate]
        exact .nothing hstate rfl
      · rw [record_of_closed hstate hignored]
        dsimp only
        split
        · rename_i hoverrun
          exact .tripped hstate hignored (breaker.entered_push _) hoverrun
        · rename_i hquiet
          exact .entered hstate hignored (breaker.entered_push _) hquiet
  | halfOpen admitted successes failures =>
      by_cases hignored : outcome = .ignored
      · rw [hignored, record_ignored_of_halfOpen hstate]
        exact .withdrawn hstate rfl
      · rw [record_of_halfOpen hstate hignored]
        generalize hsuccesses : successes + (if outcome = .success then 1 else 0) = successes'
        generalize hfailures : failures + (if outcome = .failure then 1 else 0) = failures'
        by_cases hmore : successes' + failures' < breaker.settings.halfOpenCalls
        · rw [recordTrial_of_lt hmore]
          exact .counted hstate hignored hsuccesses.symm hfailures.symm hmore
        · rw [recordTrial_eq_restart (Nat.le_of_not_lt hmore)]
          exact .decided hstate hignored hsuccesses.symm hfailures.symm (Nat.le_of_not_lt hmore)

@[simp] theorem settings_record (breaker : Breaker) (now : Nat) (outcome : Outcome) :
    (breaker.record now outcome).settings = breaker.settings := by
  have hnotes := breaker.notes_record now outcome
  generalize breaker.record now outcome = later at hnotes
  cases hnotes with
  | entered _ _ hentered => exact hentered.settings
  | tripped _ _ hentered => exact hentered.settings
  | _ => rfl

theorem not_isHalfOpen_record_of_closed (now : Nat) (hstate : breaker.state = .closed)
    (outcome : Outcome) : ¬ (breaker.record now outcome).state.isHalfOpen := by
  have hnotes := breaker.notes_record now outcome
  generalize breaker.record now outcome = later at hnotes
  cases hnotes with
  | missed => simp [hstate]
  | nothing => simp [hstate]
  | entered _ _ hentered => simp [hentered.state, hstate]
  | tripped => simp
  | withdrawn hhalf => cases hstate.symm.trans hhalf
  | counted hhalf => cases hstate.symm.trans hhalf
  | decided hhalf => cases hstate.symm.trans hhalf

/-- A breaker that is not closed keeps an empty window. -/
theorem record_of_not_closed (now : Nat) (hstate : breaker.state ≠ .closed)
    (hwindow : breaker.window = []) (hfailures : breaker.failures = 0) (outcome : Outcome) :
    (breaker.record now outcome).window = [] ∧ (breaker.record now outcome).failures = 0 := by
  have hnotes := breaker.notes_record now outcome
  generalize breaker.record now outcome = later at hnotes
  cases hnotes with
  | entered hclosed => exact absurd hclosed hstate
  | tripped => exact ⟨rfl, rfl⟩
  | decided => exact ⟨rfl, rfl⟩
  | _ => exact ⟨hwindow, hfailures⟩

/-! ## Rates -/

theorem isNaN_percent (part : Nat) {whole : Nat} (hpos : 0 < whole)
    (hword : whole < 18446744073709551616) : (percent part whole).isNaN = false := by
  have hhundred : (Binary64.ofNat part |>.mul (.ofNat 100)).isNaN = false :=
    Binary64.isNaN_mul (Binary64.isNaN_ofRatio ..) (Binary64.isNaN_ofRatio ..)
      (Binary64.isFinite_ofNat (by decide) (by decide))
      (Binary64.isZero_ofNat (by decide) (by decide))
  exact Binary64.isNaN_div hhundred (Binary64.isNaN_ofRatio ..)
    (Binary64.isFinite_ofNat hpos hword) (Binary64.isZero_ofNat hpos hword)

theorem percent_lt {threshold : Binary64} {part whole : Nat} (hthreshold : threshold.isNaN = false)
    (hpos : 0 < whole) (hword : whole < 18446744073709551616)
    (hle : threshold.le (percent part whole) = false) : (percent part whole).lt threshold :=
  Binary64.lt_of_not_le hthreshold (isNaN_percent part hpos hword) hle

/-- What a window says to the breaker: it holds as many outcomes as are asked for, and the rate of
failures has reached the threshold. -/
def Trips (settings : BreakerSettings) (window : List Bool) : Prop :=
  settings.minimumCalls ≤ window.length ∧
    settings.failureThreshold.le (percent (window.count true) window.length)

instance (settings : BreakerSettings) (window : List Bool) : Decidable (Trips settings window) :=
  inferInstanceAs (Decidable (_ ∧ _))

/-- What a closed breaker does with a success or a failure. -/
theorem record_verdict_of_closed (now : Nat) {recent : List Bool}
    (hstate : breaker.state = .closed) (hwindow : breaker.window = recent.reverse)
    (hfailures : breaker.failures = recent.count true) {outcome : Outcome}
    (hverdict : outcome ≠ .ignored) :
    breaker.record now outcome =
      let latest := slide breaker.settings.windowSize recent (outcome = .failure)
      if Trips breaker.settings latest then breaker.trip now
      else { breaker with window := latest.reverse, failures := latest.count true } := by
  rw [record_of_closed hstate hverdict, push_eq hwindow hfailures]
  dsimp only
  split
  · rename_i htrips
    rw [List.length_reverse] at htrips
    rw [if_pos (show Trips breaker.settings _ from htrips)]
    rfl
  · rename_i hquiet
    rw [List.length_reverse] at hquiet
    rw [if_neg (show ¬ Trips breaker.settings _ from hquiet)]

end Breaker

end Clearing
