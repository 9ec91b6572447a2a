import Clearing.Proofs.Guard.Breaker
import Clearing.Proofs.Guard.Holdings

/-!
# What a guard lends

A call that a guard admits has a permit of its breaker and, after that, a slot of its
bulkhead.  `Guard.Lent` compares the guard with what it was before it lent them: a trial
call counts in a half-open breaker, a slot is missing among the free ones, and all else
that counts is the same.  A breaker that was open may be half-open now if it was asked
after its wait had elapsed.

Each lemma says what one action does to both sides.  A permit that comes back without an
outcome and a slot that goes to nobody in line leave nothing behind, so that a guard to
which everything was given back is as it was before (`Guard.Lent.asBefore`).
-/

namespace Clearing

/-- The breaker of a guard was asked at some time or later; the questions are listed with the guard
and the time. -/
def AskedSince (asked : List (Nat × Nat)) (position time : Nat) : Prop :=
  ∃ moment, (position, moment) ∈ asked ∧ time ≤ moment

/-- The guard of which something is held. -/
def Hold.guard : Hold → Nat
  | .permit guard => guard
  | .slot guard => guard

/-- A guard is as it was before.  If its breaker was open, and was asked when its wait was over, it
is half-open without trial calls. -/
structure Guard.AsBefore (asked : List (Nat × Nat)) (position : Nat) (before after : Guard) :
    Prop where
  free : after.bulkhead.free = before.bulkhead.free
  window : after.breaker.window = before.breaker.window
  failures : after.breaker.failures = before.breaker.failures
  state : after.breaker.state = before.breaker.state ∨ ∃ wakes,
    before.breaker.state = .opened wakes ∧ AskedSince asked position wakes ∧
      after.breaker.state = .halfOpen 0 0 0

variable {asked more : List (Nat × Nat)} {position now permits slots : Nat}

/-- A breaker is in the state it was in before, apart from some permits. -/
inductive BreakerState.Lent (asked : List (Nat × Nat)) (position : Nat) :
    Nat → BreakerState → BreakerState → Prop
  | closed (permits : Nat) : Lent asked position permits .closed .closed
  | opened (wakes : Nat) : Lent asked position 0 (.opened wakes) (.opened wakes)
  | woken {wakes : Nat} (permits : Nat) (hasked : AskedSince asked position wakes) :
      Lent asked position permits (.opened wakes) (.halfOpen permits 0 0)
  | halfOpen (permits admitted successes failures : Nat) :
      Lent asked position permits (.halfOpen admitted successes failures)
        (.halfOpen (admitted + permits) successes failures)

/-- A breaker is as it was before, apart from some permits. -/
structure Breaker.Lent (asked : List (Nat × Nat)) (position permits : Nat)
    (before after : Breaker) : Prop where
  state : BreakerState.Lent asked position permits before.state after.state
  window : after.window = before.window
  failures : after.failures = before.failures

/-- A bulkhead is as it was before, apart from some slots and from tickets that wait. -/
structure Bulkhead.Lent (slots : Nat) (before after : Bulkhead) : Prop where
  free : after.free + slots = before.free
  assigned : after.assigned = before.assigned
  waiting : ∀ ticket ∈ after.waiting, ticket ∉ before.assigned
  issued : ∀ ticket ∈ before.assigned, ticket < after.nextTicket

/-- A guard is as it was before, apart from what is held of it. -/
structure Guard.Lent (asked : List (Nat × Nat)) (position : Nat) (held : List Hold)
    (before after : Guard) : Prop where
  breaker : Breaker.Lent asked position (held.count (.permit position)) before.breaker after.breaker
  bulkhead : Bulkhead.Lent (held.count (.slot position)) before.bulkhead after.bulkhead

/-! ## Permits of a breaker -/

theorem AskedSince.mono {time : Nat} (hasked : AskedSince asked position time)
    (hmore : asked ⊆ more) : AskedSince more position time := by
  obtain ⟨moment, hmem, hle⟩ := hasked
  exact ⟨moment, hmore hmem, hle⟩

theorem BreakerState.Lent.mono {before after : BreakerState}
    (hlent : Lent asked position permits before after) (hmore : asked ⊆ more) :
    Lent more position permits before after := by
  cases hlent with
  | closed => exact .closed _
  | opened wakes => exact .opened wakes
  | woken _ hasked => exact .woken _ (hasked.mono hmore)
  | halfOpen => exact .halfOpen ..

namespace Breaker.Lent

variable {before breaker later : Breaker}

theorem refl (asked : List (Nat × Nat)) (position : Nat) (breaker : Breaker) :
    Lent asked position 0 breaker breaker := by
  refine ⟨?_, rfl, rfl⟩
  cases breaker.state with
  | closed => exact .closed 0
  | opened wakes => exact .opened wakes
  | halfOpen admitted successes failures => exact .halfOpen 0 admitted successes failures

theorem mono (hlent : Lent asked position permits before breaker) (hmore : asked ⊆ more) :
    Lent more position permits before breaker :=
  ⟨hlent.state.mono hmore, hlent.window, hlent.failures⟩

/-- A breaker that admits somebody has lent one more permit, and the question is noted. -/
theorem acquire {admitted : Bool} (hlent : Lent asked position permits before breaker)
    (hacquire : breaker.acquire now = (later, admitted)) :
    Lent ((position, now) :: asked) position (permits + admitted.toNat) before later := by
  have hlater : later = (breaker.acquire now).1 := by rw [hacquire]
  have hmore : asked ⊆ (position, now) :: asked := List.subset_cons_self ..
  refine ⟨?_, ?_, ?_⟩
  · -- The cases are where the breaker stood before; nothing is lent by one that is still open.
    have hstate := hlent.state
    generalize before.state = earlier at hstate ⊢
    generalize hcurrent : breaker.state = current at hstate
    cases hstate with
    | closed =>
        rw [acquire_of_closed hcurrent] at hacquire
        cases hacquire
        rw [hcurrent]
        exact .closed _
    | opened wakes =>
        by_cases hdue : wakes ≤ now
        · have hasked : AskedSince ((position, now) :: asked) position wakes :=
            ⟨now, List.mem_cons_self, hdue⟩
          rw [acquire_of_due hcurrent hdue, acquire_of_halfOpen rfl] at hacquire
          split at hacquire <;> cases hacquire
          · exact .woken 1 hasked
          · exact .woken 0 hasked
        · rw [acquire_of_early hcurrent (Nat.not_le.mp hdue)] at hacquire
          cases hacquire
          rw [hcurrent]
          exact .opened wakes
    | woken _ hasked =>
        rw [acquire_of_halfOpen hcurrent] at hacquire
        split at hacquire <;> cases hacquire
        · exact .woken (permits + 1) (hasked.mono hmore)
        · rw [hcurrent]
          exact .woken permits (hasked.mono hmore)
    | halfOpen _ taken successes failures =>
        rw [acquire_of_halfOpen hcurrent] at hacquire
        split at hacquire <;> cases hacquire
        · exact .halfOpen (permits + 1) taken successes failures
        · rw [hcurrent]
          exact .halfOpen permits taken successes failures
  · rw [hlater, window_acquire, hlent.window]
  · rw [hlater, failures_acquire, hlent.failures]

/-- A permit that is given back without an outcome is no longer lent. -/
theorem record_ignored (now : Nat) (hlent : Lent asked position (permits + 1) before breaker) :
    Lent asked position permits before (breaker.record now .ignored) := by
  obtain ⟨state, hrecord⟩ := breaker.record_ignored_eq now
  refine ⟨?_, by rw [hrecord]; exact hlent.window, by rw [hrecord]; exact hlent.failures⟩
  have hstate := hlent.state
  generalize before.state = earlier at hstate ⊢
  generalize hcurrent : breaker.state = current at hstate
  cases hstate with
  | closed =>
      rw [record_ignored_of_closed hcurrent, hcurrent]
      exact .closed permits
  | woken _ hasked =>
      rw [record_ignored_of_halfOpen hcurrent]
      exact .woken permits hasked
  | halfOpen _ admitted successes failures =>
      rw [record_ignored_of_halfOpen hcurrent]
      exact .halfOpen permits admitted successes failures

end Breaker.Lent

/-! ## Slots of a bulkhead -/

namespace Bulkhead

variable {before bulkhead later : Bulkhead}

theorem InOrder.lent {stakes : List Stake} (horder : bulkhead.InOrder stakes) :
    Lent 0 bulkhead bulkhead where
  free := rfl
  assigned := rfl
  waiting := fun ticket hwaiting hassigned =>
    (List.nodup_append.mp horder.distinct).2.2 ticket hwaiting ticket hassigned rfl
  issued := fun ticket hassigned => horder.issued ticket (List.mem_append_right _ hassigned)

namespace Lent

/-- A ticket that is drawn now was not assigned a slot before. -/
theorem not_mem_of_next (hlent : Lent slots before bulkhead) :
    bulkhead.nextTicket ∉ before.assigned :=
  fun hassigned => Nat.lt_irrefl _ (hlent.issued _ hassigned)

theorem take {taken : Bulkhead} (hlent : Lent slots before bulkhead)
    (htake : bulkhead.take? = some taken) : Lent (slots + 1) before taken := by
  obtain ⟨hfree, rfl⟩ := take?_eq_some_iff.mp htake
  refine ⟨?_, hlent.assigned, hlent.waiting, hlent.issued⟩
  have hbefore := hlent.free
  show bulkhead.free - 1 + (slots + 1) = before.free
  omega

theorem queue (hlent : Lent slots before bulkhead) : Lent slots before bulkhead.queue.2 := by
  refine ⟨hlent.free, hlent.assigned, ?_, ?_⟩
  · intro ticket hticket
    rcases List.mem_append.mp hticket with hold | hnew
    · exact hlent.waiting ticket hold
    · obtain rfl := List.mem_singleton.mp hnew
      exact hlent.not_mem_of_next
  · exact fun ticket hassigned => Nat.lt_succ_of_lt (hlent.issued ticket hassigned)

theorem giveUp {ticket : Nat} (hlent : Lent slots before bulkhead)
    (hnone : bulkhead.claim? ticket = none) : Lent slots before (bulkhead.giveUp ticket) := by
  rw [Bulkhead.giveUp, hnone]
  exact ⟨hlent.free, hlent.assigned, fun other hother =>
    hlent.waiting other (List.mem_of_mem_erase hother), hlent.issued⟩

/-- Who asks for a slot and gets none changes nothing but who waits; a ticket that is drawn was not
assigned a slot before. -/
theorem answered {ticket? : Option Nat} {answer : SlotAnswer} (hlent : Lent slots before bulkhead)
    (hanswers : bulkhead.Answers ticket? answer later) (hanswer : answer ≠ .taken) :
    Lent slots before later ∧
      ∀ ticket latest, answer = .queued ticket latest → ticket ∉ before.assigned := by
  cases hanswers with
  | took => exact absurd rfl hanswer
  | refused => exact ⟨hlent, nofun⟩
  | mayWait => exact ⟨hlent, nofun⟩
  | queued latest =>
      refine ⟨hlent.queue, ?_⟩
      rintro _ _ ⟨⟩
      exact hlent.not_mem_of_next
  | claimed => exact absurd rfl hanswer
  | gaveUp hnone => exact ⟨hlent.giveUp hnone, nofun⟩

/-- Who gets a slot has it from those that were free, unless one was assigned to it before. -/
theorem taken {ticket? : Option Nat} (hlent : Lent slots before bulkhead)
    (hanswers : bulkhead.Answers ticket? .taken later)
    (hticket : ∀ ticket, ticket? = some ticket → ticket ∉ before.assigned) :
    Lent (slots + 1) before later := by
  cases hanswers with
  | took htake => exact hlent.take htake
  | @claimed ticket _ hclaim =>
      have hassigned := (claim?_eq_some_iff.mp hclaim).1
      rw [hlent.assigned] at hassigned
      exact absurd hassigned (hticket ticket rfl)

/-- A slot that is given back is free again if it goes to nobody in line. -/
theorem release (hlent : Lent (slots + 1) before bulkhead)
    (hnobody : bulkhead.newlyAssigned bulkhead.release = []) :
    Lent slots before bulkhead.release := by
  unfold Bulkhead.release at hnobody ⊢
  split
  · refine ⟨?_, hlent.assigned, hlent.waiting, hlent.issued⟩
    have hbefore := hlent.free
    show bulkhead.free + 1 + slots = before.free
    omega
  · -- The slot would go to the oldest ticket, which had none assigned to it.
    rename_i oldest rest hwaiting
    have hnot : oldest ∉ bulkhead.assigned :=
      hlent.assigned ▸ hlent.waiting oldest (hwaiting ▸ List.mem_cons_self)
    rw [hwaiting] at hnobody
    refine absurd (List.filter_eq_nil_iff.mp hnobody oldest ?_) (by simpa using hnot)
    exact List.mem_append_right _ List.mem_cons_self

end Lent

end Bulkhead

/-! ## What is held of a guard -/

namespace Guard.Lent

variable {held kept : List Hold} {before guard : Guard} {breaker : Breaker}

theorem refl {stakes : List Stake} (asked : List (Nat × Nat)) (position : Nat)
    (horder : guard.bulkhead.InOrder stakes) : Lent asked position [] guard guard :=
  ⟨.refl asked position guard.breaker, horder.lent⟩

theorem mono (hlent : Lent asked position held before guard) (hmore : asked ⊆ more) :
    Lent more position held before guard :=
  ⟨hlent.breaker.mono hmore, hlent.bulkhead⟩

/-- It does not matter in which order things are held. -/
theorem perm (hlent : Lent asked position held before guard) (hperm : held.Perm kept) :
    Lent asked position kept before guard :=
  ⟨hperm.count_eq _ ▸ hlent.breaker, hperm.count_eq _ ▸ hlent.bulkhead⟩

/-- What is held of another guard does not count. -/
theorem cons_iff (hold : Hold) (hother : hold.guard ≠ position) :
    Lent asked position (hold :: held) before guard ↔ Lent asked position held before guard := by
  have hpermit : (hold :: held).count (.permit position) = held.count (.permit position) :=
    List.count_cons_of_ne (ne_of_apply_ne Hold.guard hother)
  have hslot : (hold :: held).count (.slot position) = held.count (.slot position) :=
    List.count_cons_of_ne (ne_of_apply_ne Hold.guard hother)
  constructor
  · exact fun hlent => ⟨hpermit ▸ hlent.breaker, hslot ▸ hlent.bulkhead⟩
  · exact fun hlent => ⟨hpermit.symm ▸ hlent.breaker, hslot.symm ▸ hlent.bulkhead⟩

theorem permit_cons_iff :
    Lent asked position (.permit position :: held) before guard ↔
      Breaker.Lent asked position (held.count (.permit position) + 1) before.breaker guard.breaker ∧
        Bulkhead.Lent (held.count (.slot position)) before.bulkhead guard.bulkhead := by
  have hslot : (Hold.permit position :: held).count (.slot position) =
      held.count (.slot position) :=
    List.count_cons_of_ne (by simp)
  rw [← hslot, ← List.count_cons_self]
  exact ⟨fun hlent => ⟨hlent.breaker, hlent.bulkhead⟩, fun hlent => ⟨hlent.1, hlent.2⟩⟩

theorem slot_cons_iff :
    Lent asked position (.slot position :: held) before guard ↔
      Breaker.Lent asked position (held.count (.permit position)) before.breaker guard.breaker ∧
        Bulkhead.Lent (held.count (.slot position) + 1) before.bulkhead guard.bulkhead := by
  have hpermit : (Hold.slot position :: held).count (.permit position) =
      held.count (.permit position) :=
    List.count_cons_of_ne (by simp)
  rw [← hpermit, ← List.count_cons_self]
  exact ⟨fun hlent => ⟨hlent.breaker, hlent.bulkhead⟩, fun hlent => ⟨hlent.1, hlent.2⟩⟩

/-! ### One action -/

theorem admitted (hlent : Lent asked position held before guard)
    (hacquire : guard.breaker.acquire now = (breaker, true)) :
    Lent ((position, now) :: asked) position (.permit position :: held) before
      { guard with breaker } :=
  permit_cons_iff.mpr ⟨hlent.breaker.acquire hacquire, hlent.bulkhead⟩

theorem rejected (hlent : Lent asked position held before guard)
    (hacquire : guard.breaker.acquire now = (breaker, false)) :
    Lent ((position, now) :: asked) position held before { guard with breaker } :=
  ⟨hlent.breaker.acquire hacquire, hlent.bulkhead⟩

section Answer

variable {ticket? : Option Nat} {answer : Bulkhead.SlotAnswer} {bulkhead : Bulkhead}

theorem answered (hlent : Lent asked position held before guard)
    (hanswers : guard.bulkhead.Answers ticket? answer bulkhead) (hanswer : answer ≠ .taken) :
    Lent asked position held before { guard with bulkhead } :=
  ⟨hlent.breaker, (hlent.bulkhead.answered hanswers hanswer).1⟩

theorem passed (hlent : Lent asked position held before guard)
    (hanswers : guard.bulkhead.Answers ticket? .taken bulkhead)
    (hticket : ∀ ticket, ticket? = some ticket → ticket ∉ before.bulkhead.assigned) :
    Lent asked position (.slot position :: held) before { guard with bulkhead } :=
  slot_cons_iff.mpr ⟨hlent.breaker, hlent.bulkhead.taken hanswers hticket⟩

end Answer

theorem recorded (now : Nat) (hlent : Lent asked position (.permit position :: held) before guard) :
    Lent asked position held before (guard.record now .ignored) := by
  obtain ⟨hbreaker, hbulkhead⟩ := permit_cons_iff.mp hlent
  exact ⟨hbreaker.record_ignored now, hbulkhead⟩

theorem released (hlent : Lent asked position (.slot position :: held) before guard)
    (hnobody : guard.bulkhead.newlyAssigned guard.release.bulkhead = []) :
    Lent asked position held before guard.release := by
  obtain ⟨hbreaker, hbulkhead⟩ := slot_cons_iff.mp hlent
  exact ⟨hbreaker, hbulkhead.release hnobody⟩

/-- A guard that has lent nothing is as it was before. -/
theorem asBefore (hlent : Lent asked position [] before guard) :
    AsBefore asked position before guard := by
  refine ⟨hlent.bulkhead.free, hlent.breaker.window, hlent.breaker.failures, ?_⟩
  have hstate := hlent.breaker.state
  generalize before.breaker.state = earlier at hstate ⊢
  generalize guard.breaker.state = current at hstate ⊢
  cases hstate with
  | closed => exact .inl rfl
  | opened => exact .inl rfl
  | woken _ hasked => exact .inr ⟨_, rfl, hasked, rfl⟩
  | halfOpen => exact .inl rfl

end Guard.Lent

end Clearing
