import Clearing.Proofs.Guard.Breaker
import Clearing.Proofs.Guard.Holdings

/-!
# What a guarded call does

A guarded call takes its actions now and then, and between two of them the guards and
what the operation works on can change in any way: others use them too.  A `CallTurn` is one
action with all that it found and left behind.

`CallTurn.deed` says in a word what was done.  `CallDeed.Effect` says what that is: which
question was put to which guard and whether it got the call a slot, what was told to which
breaker and what became of it, until when the call sleeps.  Every turn has the effect of its
deed (`effect_of_act`), and a guard that the deed does not name is left alone.
-/

namespace Clearing

variable {σ ω α : Type}

/-- What a call does in one action. -/
inductive CallDeed (α : Type) where
  /-- The breaker of a guard admitted the call. -/
  | admitted (guard : Nat)
  /-- The breaker of a guard turned the call away. -/
  | rejected (guard : Nat) (failure : Failure)
  /-- The bulkhead of a guard had no slot yet. -/
  | waits (guard : Nat)
  /-- The call took a slot: the guard is passed. -/
  | passed (guard : Nat)
  /-- The bulkhead of a guard turned the call away. -/
  | refused (guard : Nat) (failure : Failure)
  /-- The operation began, in the attempt with this number. -/
  | began (attempt : Nat)
  /-- The operation made a step. -/
  | worked
  /-- The operation returned. -/
  | ended (result : Except Failure α)
  | aborted (cause : Abort)
  /-- The breaker of a guard was told the outcome. -/
  | told (guard : Nat) (outcome : Outcome)
  /-- The slot of a guard was given back. -/
  | released (guard : Nat)
  /-- The call went to sleep after the attempt with this number. -/
  | rested (attempt wakes : Nat)
  | woke (wakes : Nat)
  | finished
  deriving DecidableEq

namespace CallDeed

/-- Something that is held is given back. -/
def gaveBack (outcome : Outcome) : Hold → CallDeed α
  | .permit guard => .told guard outcome
  | .slot guard => .released guard

/-- A guard was asked for a slot: where the call stands after that tells the answer. -/
def ofAnswer (guard : Nat) : Phase ω α → CallDeed α
  | .entering .. => .passed guard
  | .leaving _ _ (.error failure) => .refused guard failure
  | _ => .waits guard

/-- What was done between two phases of an attempt with a number. -/
def between (attempt : Nat) : Phase ω α → Phase ω α → CallDeed α
  | .entering _ [], _ => .began attempt
  | .entering _ (position :: _), .leaving _ _ (.error failure) => .rejected position failure
  | .entering _ (position :: _), _ => .admitted position
  | .taking _ position _, later => ofAnswer position later
  | .lining _ position _ _, later => ofAnswer position later
  | .queued _ position _ _ _, later => ofAnswer position later
  | .operating .., .leaving _ _ result => .ended result
  | .operating .., .finished (.aborted cause) => .aborted cause
  | .operating .., _ => .worked
  | .leaving outcome (hold :: _) _, _ => gaveBack outcome hold
  | .leaving _ [] _, .backingOff wakes => .rested attempt wakes
  | .leaving _ [] _, _ => .finished
  | .backingOff wakes, _ => .woke wakes
  | .finished _, _ => .finished

end CallDeed

/-- One action of a call: what it found and what it left behind. -/
structure CallTurn (σ ω α : Type) where
  now : Nat
  guards : List Guard
  shared : σ
  call : GuardedCall ω α
  after : List Guard
  next : σ
  later : GuardedCall ω α

/-- What was done in a turn. -/
def CallTurn.deed (turn : CallTurn σ ω α) : CallDeed α :=
  .between turn.call.attempt turn.call.phase turn.later.phase

/-- One guard is another after a turn, and all else that the operation does not work on is the
same. -/
def CallTurn.Changed (turn : CallTurn σ ω α) (position : Nat) (guard later : Guard) : Prop :=
  turn.guards[position]? = some guard ∧ turn.after = turn.guards.set position later ∧
    turn.next = turn.shared

namespace Bulkhead

/-- A slot is granted to somebody with a ticket or without one: the slot that is assigned to the
ticket, or a free one. -/
def Grants (bulkhead : Bulkhead) : Option Nat → Bulkhead → Prop
  | none, later => 0 < bulkhead.free ∧ later = { bulkhead with free := bulkhead.free - 1 }
  | some ticket, later =>
    ticket ∈ bulkhead.assigned ∧
      later = { bulkhead with assigned := bulkhead.assigned.erase ticket }

/-- No slot is free for somebody without a ticket, who may wait for one: the last place in the line
is taken, or nothing is done yet. -/
def Defers (bulkhead : Bulkhead) : Option Nat → Bulkhead → Prop
  | none, later => bulkhead.free = 0 ∧ bulkhead.maxWaitMillis ≠ 0 ∧ later = bulkhead
  | some ticket, later =>
    bulkhead.free = 0 ∧ ticket = bulkhead.nextTicket ∧
      later = { bulkhead with
        waiting := bulkhead.waiting ++ [ticket]
        nextTicket := ticket + 1 }

/-- No slot is free for somebody without a ticket, who may not wait; or none was assigned to a
ticket, and it leaves the line. -/
def Refuses (bulkhead : Bulkhead) : Option Nat → Bulkhead → Prop
  | none, later => bulkhead.free = 0 ∧ bulkhead.maxWaitMillis = 0 ∧ later = bulkhead
  | some ticket, later =>
    ticket ∉ bulkhead.assigned ∧
      later = { bulkhead with waiting := bulkhead.waiting.erase ticket }

variable {bulkhead later : Bulkhead} {ticket? : Option Nat}

theorem Answers.grants (hanswers : bulkhead.Answers ticket? .taken later) :
    bulkhead.Grants ticket? later := by
  cases hanswers with
  | took htake => exact take?_eq_some_iff.mp htake
  | claimed hclaim => exact claim?_eq_some_iff.mp hclaim

theorem Answers.defers_of_mayWait {latest : Nat}
    (hanswers : bulkhead.Answers ticket? (.mayWait latest) later) :
    ticket? = none ∧ bulkhead.Defers none later := by
  cases hanswers with
  | mayWait _ hfull hpatient => exact ⟨rfl, take?_eq_none_iff.mp hfull, hpatient, rfl⟩

theorem Answers.defers_of_queued {ticket latest : Nat}
    (hanswers : bulkhead.Answers ticket? (.queued ticket latest) later) :
    ticket? = none ∧ bulkhead.Defers (some ticket) later := by
  cases hanswers with
  | queued _ hfull => exact ⟨rfl, take?_eq_none_iff.mp hfull, rfl, rfl⟩

theorem Answers.refuses (hanswers : bulkhead.Answers ticket? .refused later) :
    bulkhead.Refuses ticket? later := by
  cases hanswers with
  | refused hfull hnever => exact ⟨take?_eq_none_iff.mp hfull, hnever, rfl⟩
  | gaveUp hnone =>
      refine ⟨claim?_eq_none_iff.mp hnone, ?_⟩
      rw [giveUp, hnone]

end Bulkhead

/-- What a deed is. -/
def CallDeed.Effect (protection : Protection) (operation : Operation σ ω α) (start : Nat → Nat → ω)
    (turn : CallTurn σ ω α) : CallDeed α → Prop
  | .admitted position => ∃ guard breaker, turn.Changed position guard { guard with breaker } ∧
      guard.breaker.acquire turn.now = (breaker, true)
  | .rejected position failure => ∃ guard breaker,
      turn.Changed position guard { guard with breaker } ∧
        guard.breaker.acquire turn.now = (breaker, false) ∧ failure = guard.rejection
  | .waits position => ∃ guard bulkhead, turn.Changed position guard { guard with bulkhead } ∧
      turn.call.phase.ticket? position = none ∧
        guard.bulkhead.Defers (turn.later.phase.ticket? position) bulkhead
  | .passed position => ∃ guard bulkhead, turn.Changed position guard { guard with bulkhead } ∧
      guard.bulkhead.Grants (turn.call.phase.ticket? position) bulkhead
  | .refused position failure => ∃ guard bulkhead,
      turn.Changed position guard { guard with bulkhead } ∧
        guard.bulkhead.Refuses (turn.call.phase.ticket? position) bulkhead ∧ failure = guard.full
  | .began attempt => turn.after = turn.guards ∧ turn.next = turn.shared ∧
      ∃ held, turn.later.phase = .operating held (start turn.now attempt)
  | .worked => turn.after = turn.guards ∧ ∃ held state later,
      turn.call.phase = .operating held state ∧ turn.later.phase = .operating held later ∧
        operation.step? turn.now turn.shared state = some (turn.next, later)
  | .ended result => turn.after = turn.guards ∧ turn.next = turn.shared ∧ ∃ held state,
      turn.call.phase = .operating held state ∧
        operation.step? turn.now turn.shared state = none ∧
        operation.ending? state = some (.returned result)
  | .aborted cause => turn.next = turn.shared ∧ ∃ held state,
      turn.call.phase = .operating held state ∧
        turn.after = GuardedCall.giveBackAll turn.guards turn.now .ignored held ∧
        operation.step? turn.now turn.shared state = none ∧
        operation.ending? state = some (.aborted cause)
  | .told position outcome =>
      turn.after = turn.guards.modify position (Guard.record turn.now outcome) ∧
        turn.next = turn.shared ∧ ∀ guard, turn.guards[position]? = some guard →
          ∃ breaker, turn.after[position]? = some { guard with breaker } ∧
            guard.breaker.Notes turn.now outcome breaker
  | .released position =>
      turn.after = turn.guards.modify position Guard.release ∧
        turn.next = turn.shared ∧ ∀ guard, turn.guards[position]? = some guard →
          ∃ bulkhead, turn.after[position]? = some { guard with bulkhead } ∧
            bulkhead.free + bulkhead.assigned.length =
              guard.bulkhead.free + guard.bulkhead.assigned.length + 1
  | .rested attempt wakes => turn.after = turn.guards ∧ turn.next = turn.shared ∧
      wakes = turn.now + restMillis (protection.retry.backoff attempt).toMillisUp
  | .woke wakes => turn.after = turn.guards ∧ turn.next = turn.shared ∧ wakes ≤ turn.now
  | .finished => turn.after = turn.guards ∧ turn.next = turn.shared

theorem Phase.Hears.between {now attempt position : Nat} {held : List Hold} {ahead : List Nat}
    {phase later : Phase ω α} {bulkhead : Bulkhead} {answer : Bulkhead.SlotAnswer × Bulkhead}
    (hhears : phase.Hears now held position ahead bulkhead answer) :
    CallDeed.between attempt phase later = CallDeed.ofAnswer position later := by
  cases hhears <;> rfl

namespace GuardedCall

variable {protection : Protection} {operation : Operation σ ω α} {start : Nat → Nat → ω}

/-- **Every turn has the effect of its deed.** -/
theorem effect_of_act {turn : CallTurn σ ω α}
    (hact : Act protection operation start turn.now (turn.guards, turn.shared, turn.call)
      (turn.after, turn.next, turn.later))
    (hexists : ∀ position ∈ turn.call.phase.ahead, position < turn.guards.length) :
    turn.deed.Effect protection operation start turn := by
  obtain ⟨now, guards, shared, call, after, next, later⟩ := turn
  dsimp only at hact hexists
  cases hact with
  | begin => exact ⟨rfl, rfl, _, rfl⟩
  | skip hat hmissing =>
      have hthere := hexists _ (hat.ahead_eq ▸ List.mem_cons_self)
      exact absurd (List.getElem?_eq_none_iff.mp hmissing) (Nat.not_le_of_lt hthere)
  | admitted hguard hacquire => exact ⟨_, _, ⟨hguard, rfl, rfl⟩, hacquire⟩
  | rejected hguard hacquire => exact ⟨_, _, ⟨hguard, rfl, rfl⟩, hacquire, rfl⟩
  | answered hguard hhears =>
      rename_i guard answer bulkhead
      have hanswers := hhears.answers
      rw [CallTurn.deed, hhears.between]
      cases answer with
      | taken => exact ⟨guard, bulkhead, ⟨hguard, rfl, rfl⟩, hanswers.grants⟩
      | refused => exact ⟨guard, bulkhead, ⟨hguard, rfl, rfl⟩, hanswers.refuses, rfl⟩
      | mayWait latest => exact ⟨guard, bulkhead, ⟨hguard, rfl, rfl⟩, hanswers.defers_of_mayWait⟩
      | queued ticket latest =>
          obtain ⟨hnone, hdefers⟩ := hanswers.defers_of_queued
          refine ⟨guard, bulkhead, ⟨hguard, rfl, rfl⟩, hnone, ?_⟩
          show guard.bulkhead.Defers (Phase.ticket? _ (.queued ..)) bulkhead
          rw [Phase.ticket?, if_pos rfl]
          exact hdefers
  | operated hstep => exact ⟨rfl, _, _, _, rfl, rfl, hstep⟩
  | returned hstuck hending => exact ⟨rfl, rfl, _, _, rfl, hstuck, hending⟩
  | aborted hstuck hending => exact ⟨rfl, _, _, rfl, rfl, hstuck, hending⟩
  | gaveBack =>
      rename_i outcome hold held result
      have hmodified {position : Nat} {guard : Guard} (change : Guard → Guard)
          (hguard : guards[position]? = some guard) :
          (guards.modify position change)[position]? = some (change guard) := by
        rw [List.getElem?_modify_eq, hguard]
        rfl
      cases hold with
      | permit position =>
          refine ⟨rfl, rfl, fun guard hguard => ?_⟩
          exact ⟨_, hmodified _ hguard, guard.breaker.notes_record now outcome⟩
      | slot position =>
          refine ⟨rfl, rfl, fun guard hguard => ?_⟩
          exact ⟨_, hmodified _ hguard, guard.bulkhead.free_add_assigned_release⟩
  | settled =>
      rename_i attempt outcome result
      simp only [CallTurn.deed, settle]
      split
      · exact ⟨rfl, rfl⟩
      · split
        · exact ⟨rfl, rfl, rfl⟩
        · exact ⟨rfl, rfl⟩
  | backedOff hwakes => exact ⟨rfl, rfl, hwakes⟩

end GuardedCall

end Clearing
