import Clearing.Proofs.Guard.Act
import Clearing.Proofs.Guard.Breaker
import Clearing.Proofs.Guard.Slots
import Clearing.Proofs.Operation.Proceeding
import Clearing.Settings.Check

/-!
# Guards that hold nobody up

A guard is ready for a call if its breaker is closed and remembers no failure,
nobody stands in line at its bulkhead, and there is a slot for the call
(`Guard.Ready`).  If all guards are ready a call passes them at once, and if its
operation goes through without waiting and does not end in a failure that counts,
it gives everything back and leaves the guards as ready as it found them
(`GuardedCall.leads_new`).

A threshold is above zero, so that without failures no breaker opens, however
many outcomes it is told.
-/

namespace Clearing

/-! ## Breakers without failures -/

namespace Binary64

/-- No part of anything is zero percent, if it is a number at all. -/
theorem percent_zero (whole : Nat) :
    (Breaker.percent 0 whole).isNaN = true ∨ (Breaker.percent 0 whole).key = 0 := by
  have hnothing : (ofNat 0).mul (ofNat 100) = zero false := by decide +kernel
  have hkey (sign : Bool) : (zero sign).key = 0 := by cases sign <;> decide +kernel
  unfold Breaker.percent
  rw [hnothing]
  unfold div
  dsimp only
  have hnumber : (zero false).isNaN = false := by decide +kernel
  have hfinite : (zero false).isFinite = true := by decide +kernel
  have hratio : (zero false).ratio.1 = 0 := by decide +kernel
  rw [hnumber, hfinite, hratio, Nat.zero_mul]
  simp only [Bool.false_or, Bool.not_true, Bool.false_eq_true, if_false]
  have hnan : nan.isNaN = true := by decide +kernel
  split
  · exact .inl hnan
  · split
    · exact .inr (hkey _)
    · split
      · split
        · exact .inl hnan
        · rename_i hzero
          exact absurd (by decide +kernel) hzero
      · exact .inr (hkey _)

end Binary64

namespace Breaker

/-- The breaker is closed, remembers no failure, and does not open without one. -/
structure Untroubled (breaker : Breaker) : Prop where
  closed : breaker.state = .closed
  threshold : Settings.isThreshold breaker.settings.failureThreshold = true
  window : true ∉ breaker.window
  failures : breaker.failures = 0

variable {breaker : Breaker}

theorem untroubled_new {settings : BreakerSettings}
    (hthreshold : Settings.isThreshold settings.failureThreshold = true) :
    (new settings).Untroubled :=
  ⟨rfl, hthreshold, List.not_mem_nil, rfl⟩

/-- No failures are never too many. -/
theorem not_trips_of_not_mem {settings : BreakerSettings} {window : List Bool}
    (hthreshold : Settings.isThreshold settings.failureThreshold = true)
    (hwindow : true ∉ window) : ¬ Trips settings window := by
  rintro ⟨-, hrate⟩
  rw [List.count_eq_zero.mpr hwindow] at hrate
  have hpositive := (Bool.and_eq_true_iff.mp hthreshold).1
  simp only [Binary64.lt, Binary64.le, Bool.and_eq_true, Bool.not_eq_true',
    decide_eq_true_eq] at hpositive hrate
  obtain ⟨-, hpositive⟩ := hpositive
  obtain ⟨⟨-, hnumber⟩, hrate⟩ := hrate
  have hzero : (Binary64.ofNat 0).key = 0 := by decide +kernel
  rcases Binary64.percent_zero window.length with hnan | hkey
  · rw [hnan] at hnumber
    cases hnumber
  · omega

/-- Whatever is no failure leaves the breaker untroubled. -/
theorem Untroubled.record (huntroubled : breaker.Untroubled) {outcome : Outcome}
    (houtcome : outcome ≠ .failure) (now : Nat) : (breaker.record now outcome).Untroubled := by
  obtain ⟨hclosed, hthreshold, hwindow, hfailures⟩ := huntroubled
  by_cases hignored : outcome = .ignored
  · rw [hignored, record_ignored_of_closed hclosed]
    exact ⟨hclosed, hthreshold, hwindow, hfailures⟩
  · have hcount : breaker.failures = breaker.window.reverse.count true := by
      rw [hfailures, List.count_reverse, List.count_eq_zero.mpr hwindow]
    have hlatest : true ∉ slide breaker.settings.windowSize breaker.window.reverse
        (outcome = .failure) := by
      intro hmem
      rcases List.mem_cons.mp (List.mem_of_mem_take hmem) with hfirst | hrest
      · exact houtcome (of_decide_eq_true hfirst.symm)
      · exact hwindow (List.mem_reverse.mp hrest)
    rw [record_verdict_of_closed now hclosed (List.reverse_reverse _).symm hcount hignored]
    dsimp only
    rw [if_neg (not_trips_of_not_mem hthreshold hlatest)]
    exact ⟨hclosed, hthreshold, fun hmem => hlatest (List.mem_reverse.mp hmem),
      List.count_eq_zero.mpr hlatest⟩

end Breaker

/-! ## Bulkheads without a line -/

namespace Bulkhead

/-- Nobody stands in line, and there is a slot, be it free or one of those that a call holds. -/
structure Roomy (held : Nat) (bulkhead : Bulkhead) : Prop where
  waiting : bulkhead.waiting = []
  assigned : bulkhead.assigned = []
  room : 0 < held + bulkhead.free

variable {bulkhead : Bulkhead} {held : Nat}

/-- Whoever holds no slot gets one. -/
theorem Roomy.ask (hroomy : bulkhead.Roomy 0) (now : Nat) :
    ∃ taken : Bulkhead, bulkhead.ask now = (.taken, taken) ∧ taken.Roomy 1 := by
  have hfree : 0 < bulkhead.free := by simpa using hroomy.room
  refine ⟨{ bulkhead with free := bulkhead.free - 1 }, ?_, hroomy.waiting, hroomy.assigned, ?_⟩
  · unfold Bulkhead.ask
    rw [take?_eq_some_iff.mpr ⟨hfree, rfl⟩]
  · exact Nat.lt_add_right _ Nat.one_pos

theorem Roomy.release (hroomy : bulkhead.Roomy (held + 1)) : bulkhead.release.Roomy held := by
  have hreleased : bulkhead.release = { bulkhead with free := bulkhead.free + 1 } := by
    unfold Bulkhead.release
    rw [hroomy.waiting]
  rw [hreleased]
  exact ⟨hroomy.waiting, hroomy.assigned, Nat.lt_add_left _ (Nat.succ_pos _)⟩

end Bulkhead

/-! ## Guards -/

/-- A call that holds so many slots of the guard is not held up there. -/
structure Guard.Ready (held : Nat) (guard : Guard) : Prop where
  breaker : guard.breaker.Untroubled
  bulkhead : guard.bulkhead.Roomy held

/-- A call is not held up at any guard. -/
def Guard.AllReady (held : List Hold) (guards : List Guard) : Prop :=
  ∀ (position : Nat) (guard : Guard), guards[position]? = some guard →
    guard.Ready (held.count (.slot position))

namespace Guard.AllReady

variable {held : List Hold} {guards : List Guard} {position : Nat} {guard : Guard}

/-- The call comes to hold a slot. -/
theorem take (hready : AllReady held guards) {bulkhead : Bulkhead} {more : List Hold}
    (hguard : guards[position]? = some guard)
    (hroomy : bulkhead.Roomy (more.count (.slot position)))
    (hothers : ∀ other, other ≠ position →
      more.count (.slot other) = held.count (.slot other)) :
    AllReady more (guards.set position { guard with bulkhead }) := by
  intro other found hfound
  rw [List.getElem?_set] at hfound
  split at hfound
  · rename_i hsame
    subst hsame
    split at hfound
    · cases hfound
      exact ⟨(hready _ _ hguard).breaker, hroomy⟩
    · cases hfound
  · rename_i hother
    rw [hothers other (Ne.symm hother)]
    exact hready _ _ hfound

/-- The call gives something back and tells of no failure. -/
theorem giveBack {hold : Hold} (hready : AllReady (hold :: held) guards) {outcome : Outcome}
    (houtcome : outcome ≠ .failure) (now : Nat) :
    AllReady held (hold.giveBack guards now outcome) := by
  intro other found hfound
  cases hold with
  | permit position =>
      obtain ⟨before, hbefore, rfl⟩ := Option.map_eq_some_iff.mp
        ((List.getElem?_modify ..).symm.trans hfound)
      have hothers := hready _ _ hbefore
      rw [List.count_cons_of_ne (by simp)] at hothers
      split
      · exact ⟨hothers.breaker.record houtcome now, hothers.bulkhead⟩
      · exact hothers
  | slot position =>
      obtain ⟨before, hbefore, rfl⟩ := Option.map_eq_some_iff.mp
        ((List.getElem?_modify ..).symm.trans hfound)
      have hothers := hready _ _ hbefore
      split
      · rename_i hsame
        rw [hsame, List.count_cons_self] at hothers
        exact ⟨hothers.breaker, hothers.bulkhead.release⟩
      · rename_i hother
        rw [List.count_cons_of_ne (by simpa using hother)] at hothers
        exact hothers

end Guard.AllReady

/-! ## Calls -/

namespace GuardedCall

variable {σ ω α : Type}

/-- A guarded call as an operation on the guards and on what its operation works on. -/
def operation (protection : Protection) (inner : Operation σ ω α) (start : Nat → Nat → ω)
    (bound : Nat) : Operation (List Guard × σ) (GuardedCall ω α) α where
  step? now shared call :=
    (call.step? protection inner start now shared.1 shared.2).map fun (guards, shared, call) =>
      ((guards, shared), call)
  ending? := ending?
  wait? := wait? inner
  effort := effort protection inner bound

variable {protection : Protection} {inner : Operation σ ω α} {start : Nat → Nat → ω}
  {bound now attempt : Nat} {guards : List Guard} {shared : σ} {held : List Hold}

/-- An action that is no end of a wait and lessens the effort in its phase. -/
private theorem proceeds {next : List Guard} {after : σ} {phase later : Phase ω α}
    (hwait : wait? inner ⟨attempt, phase⟩ = none)
    (hstep : step? protection inner start now guards shared ⟨attempt, phase⟩ =
      some (next, after, ⟨attempt, later⟩))
    (hless : phaseEffort inner bound later < phaseEffort inner bound phase) :
    (operation protection inner start bound).Proceeds now ((guards, shared), ⟨attempt, phase⟩)
      ((next, after), ⟨attempt, later⟩) :=
  ⟨hwait, by simp only [operation, hstep]; rfl, Nat.add_lt_add_right hless _⟩

private theorem count_append_holdsOf (held : List Hold) (position other : Nat) :
    (held ++ holdsOf position).count (.slot other) =
      held.count (.slot other) + if position = other then 1 else 0 := by
  simp [holdsOf, List.count_cons]

/-- A guard is passed at once, if there is a slot at it. -/
private theorem leads_guard (protection : Protection) (inner : Operation σ ω α)
    (start : Nat → Nat → ω) (bound : Nat) (shared : σ) {position : Nat} {guard : Guard}
    (hguard : guards[position]? = some guard) (hready : Guard.AllReady held guards)
    (hnone : held.count (.slot position) = 0) (ahead : List Nat) :
    ∃ after, Guard.AllReady (held ++ holdsOf position) after ∧
      (operation protection inner start bound).Leads now
        ((guards, shared), ⟨attempt, .entering held (position :: ahead)⟩)
        ((after, shared), ⟨attempt, .entering (held ++ holdsOf position) ahead⟩) := by
  obtain ⟨hbreaker, hbulkhead⟩ := hready _ _ hguard
  rw [hnone] at hbulkhead
  obtain ⟨taken, hask, htaken⟩ := hbulkhead.ask now
  have htakes : Guard.AllReady (held ++ holdsOf position)
      (guards.set position { guard with bulkhead := taken }) := by
    refine hready.take hguard ?_ ?_
    · rw [count_append_holdsOf, hnone, if_pos rfl]
      exact htaken
    · intro other hother
      rw [count_append_holdsOf, if_neg (Ne.symm hother), Nat.add_zero]
  have hsame : guards.set position guard = guards := by
    obtain ⟨hposition, rfl⟩ := List.getElem?_eq_some_iff.mp hguard
    exact List.set_getElem_self hposition
  have hadmit : (operation protection inner start bound).Proceeds now
      ((guards, shared), ⟨attempt, .entering held (position :: ahead)⟩)
      ((guards, shared), ⟨attempt, .taking held position ahead⟩) := by
    refine proceeds rfl ?_ ?_
    · simp only [step?, hguard, Breaker.acquire_of_closed hbreaker.closed, if_true, hsame]
    · simp only [phaseEffort, List.length_cons]
      omega
  have htake : (operation protection inner start bound).Proceeds now
      ((guards, shared), ⟨attempt, .taking held position ahead⟩)
      ((guards.set position { guard with bulkhead := taken }, shared),
        ⟨attempt, .entering (held ++ holdsOf position) ahead⟩) := by
    refine proceeds rfl ?_ ?_
    · simp only [step?, hguard, hask]
    · simp only [phaseEffort, holdsOf, List.length_append, List.length_cons, List.length_nil]
      omega
  exact ⟨_, htakes, .head hadmit htake.leads⟩

/-- **All guards are passed at once**, if there is a slot at each of them. -/
theorem leads_entering (protection : Protection)
    (hbound : inner.effort (start now attempt) ≤ bound) {ahead : List Nat}
    (hready : Guard.AllReady held guards) (hnodup : ahead.Nodup)
    (hnew : ∀ position ∈ ahead, held.count (.slot position) = 0) :
    ∃ after holds, Guard.AllReady holds after ∧
      (operation protection inner start bound).Leads now
        ((guards, shared), ⟨attempt, .entering held ahead⟩)
        ((after, shared), ⟨attempt, .operating holds (start now attempt)⟩) := by
  induction ahead generalizing guards held with
  | nil =>
      refine ⟨guards, held, hready, (proceeds rfl rfl ?_).leads⟩
      simp only [phaseEffort, List.length_nil]
      omega
  | cons position ahead ih =>
      obtain ⟨hahead, hnodup⟩ := List.nodup_cons.mp hnodup
      obtain ⟨hfirst, hrest⟩ := List.forall_mem_cons.mp hnew
      cases hguard : guards[position]? with
      | none =>
          -- There is no such guard.
          obtain ⟨after, holds, hafter, hleads⟩ := ih hready hnodup hrest
          refine ⟨after, holds, hafter, .head (proceeds rfl ?_ ?_) hleads⟩
          · simp only [step?, hguard]
          · simp only [phaseEffort, List.length_cons]
            omega
      | some guard =>
          obtain ⟨passed, hpassed, hfirstLeads⟩ :=
            leads_guard protection inner start bound shared hguard hready hfirst ahead
          have hfree : ∀ other ∈ ahead, (held ++ holdsOf position).count (.slot other) = 0 := by
            intro other hother
            rw [count_append_holdsOf, hrest other hother, if_neg]
            rintro rfl
            exact hahead hother
          obtain ⟨after, holds, hafter, hleads⟩ := ih hpassed hnodup hfree
          exact ⟨after, holds, hafter, hfirstLeads.trans hleads⟩

/-- An operation goes on under the guards as it does without them. -/
theorem leads_operating {before after : σ × ω} (hleads : inner.Leads now before after) :
    (operation protection inner start bound).Leads now
      ((guards, before.1), ⟨attempt, .operating held before.2⟩)
      ((guards, after.1), ⟨attempt, .operating held after.2⟩) := by
  refine hleads.lift (fun point => ((guards, point.1),
    (⟨attempt, .operating held point.2⟩ : GuardedCall ω α))) ?_
  intro before after hproceeds
  refine proceeds hproceeds.wait ?_ ?_
  · simp only [step?, hproceeds.step]
  · have hless := hproceeds.less
    simp only [phaseEffort]
    omega

/-- Everything is given back, and the guards are ready for others. -/
theorem leads_leaving (protection : Protection) (inner : Operation σ ω α) (start : Nat → Nat → ω)
    (bound : Nat) (shared : σ) {outcome : Outcome} (houtcome : outcome ≠ .failure)
    (hready : Guard.AllReady held guards) (result : Except Failure α) :
    ∃ after, Guard.AllReady [] after ∧
      (operation protection inner start bound).Leads now
        ((guards, shared), ⟨attempt, .leaving outcome held result⟩)
        ((after, shared), ⟨attempt, .leaving outcome [] result⟩) := by
  induction held generalizing guards with
  | nil => exact ⟨guards, hready, .refl⟩
  | cons hold held ih =>
      obtain ⟨after, hafter, hleads⟩ := ih (hready.giveBack houtcome now)
      refine ⟨after, hafter, .head (proceeds rfl rfl ?_) hleads⟩
      simp only [phaseEffort, List.length_cons]
      omega

/-- **A call whose operation goes through is not held up**, and leaves the guards ready, if it does
not end in a failure that counts or that is worth another attempt. -/
theorem leads_new (hbound : inner.effort (start now 1) ≤ bound)
    (hready : Guard.AllReady [] guards) (hnodup : protection.path.Nodup) {later : σ} {final : ω}
    {result : Except Failure α}
    (hleads : inner.Leads now (shared, start now 1) (later, final))
    (hwait : inner.wait? final = none) (hstuck : inner.step? now later final = none)
    (hending : inner.ending? final = some (.returned result))
    (houtcome : Outcome.of result ≠ .failure)
    (hfinal : ∀ failure, result = .error failure → failure.isRetryable = false) :
    ∃ after, Guard.AllReady [] after ∧
      (operation protection inner start bound).Leads now ((guards, shared), new protection)
        ((after, later), ⟨1, .finished (.returned result)⟩) := by
  obtain ⟨passed, holds, hpassed, henter⟩ := leads_entering protection hbound hready hnodup
    fun _ _ => List.count_nil ..
  have hreturn : (operation protection inner start bound).Proceeds now
      ((passed, later), ⟨1, .operating holds final⟩)
      ((passed, later), ⟨1, .leaving (.of result) holds result⟩) := by
    refine proceeds hwait ?_ ?_
    · simp only [step?, hstuck, hending]
    · simp only [phaseEffort]
      omega
  obtain ⟨after, hafter, hleave⟩ := leads_leaving protection inner start bound later
    houtcome hpassed result
  have hsettle : (operation protection inner start bound).Proceeds now
      ((after, later), ⟨1, .leaving (.of result) [] result⟩)
      ((after, later), ⟨1, .finished (.returned result)⟩) := by
    refine proceeds rfl ?_ (Nat.succ_pos 1)
    cases result with
    | ok value => rfl
    | error failure =>
        simp only [step?, settle, hfinal failure rfl, Bool.false_eq_true, false_and, if_false]
  exact ⟨after, hafter,
    (((henter.trans (leads_operating hleads)).tail hreturn).trans hleave).tail hsettle⟩

end GuardedCall

end Clearing
