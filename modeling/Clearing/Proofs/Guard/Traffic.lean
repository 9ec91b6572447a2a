import Clearing.Proofs.Guard.Holdings

/-!
# Traffic

Any number of callers make guarded calls and share the guards.  They come at any time,
each with guards to pass, a policy and an operation of its own; one action of one of
them follows an action of another in any order; deadlines cut operations short; and
callers leave in the middle of their calls.  What an operation works on may have
changed in any way since its last step.

All the while the slots of each bulkhead are accounted for (`Traffic.conserved_run`).

## Strategy

At every guard the callers' stakes keep the bulkhead in order.  An event changes one
stake, and it does so in the ways of `Bulkhead.Deal`.
-/

namespace Clearing

/-- Somebody who makes a guarded call. -/
structure Caller (σ ω α : Type) where
  protection : Protection
  operation : Operation σ ω α
  start : Nat → Nat → ω
  call : GuardedCall ω α

/-- The callers that share some guards. -/
structure Traffic (σ ω α : Type) where
  now : Nat
  guards : List Guard
  callers : List (Caller σ ω α)

variable {σ ω α : Type}

namespace Caller

variable (bulkhead : Bulkhead) (position : Nat) (caller : Caller σ ω α)

/-- What a caller has of a bulkhead. -/
def stake : Stake :=
  caller.call.phase.stake position

/-- The slots of a bulkhead that a caller has, with one that is assigned to its ticket. -/
def slots : Nat :=
  (caller.stake position).worth bulkhead

/-- The caller is in its operation and has a guard on its path. -/
def operatesUnder : Bool :=
  match caller.call.phase with
  | .operating .. => position ∈ caller.protection.path
  | _ => false

/-- The caller stands in line at a guard, and no slot was assigned to its ticket. -/
def waitsFor : Prop :=
  ∃ ticket, (caller.stake position).ticket? = some ticket ∧ ticket ∉ bulkhead.assigned

end Caller

namespace Traffic

/-- What can happen. -/
inductive Event (σ ω α : Type) where
  /-- Time passes. -/
  | pass (millis : Nat)
  /-- Somebody begins a call. -/
  | arrive (protection : Protection) (operation : Operation σ ω α) (start : Nat → Nat → ω)
  /-- A caller takes an action, if it has one; its operation finds what it works on as it is. -/
  | act (index : Nat) (shared : σ)
  /-- A deadline cuts the operation of a caller short. -/
  | cut (index : Nat) (chosen : Deadline → Bool)
  /-- A caller leaves where it stands. -/
  | leave (index : Nat)

/-- The traffic after something happened. -/
def happen (traffic : Traffic σ ω α) : Event σ ω α → Traffic σ ω α
  | .pass millis => { traffic with now := traffic.now + millis }
  | .arrive protection operation start =>
    { traffic with
      callers := traffic.callers ++ [{ protection, operation, start, call := .new protection }] }
  | .act index shared =>
    match traffic.callers[index]? with
    | none => traffic
    | some caller =>
      match caller.call.step? caller.protection caller.operation caller.start traffic.now
          traffic.guards shared with
      | none => traffic
      | some (guards, _, call) =>
        { traffic with guards, callers := traffic.callers.set index { caller with call } }
  | .cut index chosen =>
    match traffic.callers[index]? with
    | none => traffic
    | some caller =>
      match caller.call.cut? caller.operation chosen with
      | none => traffic
      | some call => { traffic with callers := traffic.callers.set index { caller with call } }
  | .leave index =>
    match traffic.callers[index]? with
    | none => traffic
    | some caller =>
      { traffic with
        guards := caller.call.abandon traffic.guards traffic.now
        callers := traffic.callers.eraseIdx index }

/-- The traffic after some events. -/
def run (traffic : Traffic σ ω α) (events : List (Event σ ω α)) : Traffic σ ω α :=
  events.foldl happen traffic

/-- Before anybody has come: the guards with their names and settings. -/
def opening (now : Nat) (plans : List (String × BreakerSettings × BulkheadSettings)) :
    Traffic σ ω α :=
  { now
    guards := plans.map fun plan => .new plan.1 plan.2.1 plan.2.2
    callers := [] }

/-! ## What becomes of guards and callers -/

/-- What becomes of the guards and the callers in one event. -/
inductive Became (traffic : Traffic σ ω α) : List Guard × List (Caller σ ω α) → Prop
  | same : Became traffic (traffic.guards, traffic.callers)
  | arrived (protection : Protection) (operation : Operation σ ω α) (start : Nat → Nat → ω) :
      Became traffic
        (traffic.guards, traffic.callers ++ [⟨protection, operation, start, .new protection⟩])
  | acted {index : Nat} {caller : Caller σ ω α} {after : List Guard} {later : GuardedCall ω α}
      (hcaller : traffic.callers[index]? = some caller)
      (hdealt : Guard.Dealt traffic.guards caller.call.phase.stake after later.phase.stake)
      (hlength : after.length = traffic.guards.length)
      (hpath : caller.call.phase.OnPath traffic.guards.length caller.protection.path →
        later.phase.OnPath traffic.guards.length caller.protection.path) :
      Became traffic (after, traffic.callers.set index { caller with call := later })
  | left {index : Nat} {caller : Caller σ ω α}
      (hcaller : traffic.callers[index]? = some caller) :
      Became traffic
        (caller.call.abandon traffic.guards traffic.now, traffic.callers.eraseIdx index)

theorem became_happen (traffic : Traffic σ ω α) (event : Event σ ω α) :
    traffic.Became ((traffic.happen event).guards, (traffic.happen event).callers) := by
  cases event with
  | pass millis => exact .same
  | arrive protection operation start => exact .arrived ..
  | act index shared =>
      simp only [happen]
      split
      · exact .same
      · rename_i caller hcaller
        split
        · exact .same
        · rename_i hstep
          have hact := GuardedCall.act_of_step? hstep
          exact .acted hcaller hact.dealt hact.length hact.onPath
  | cut index chosen =>
      simp only [happen]
      split
      · exact .same
      · rename_i caller hcaller
        split
        · exact .same
        · -- Only the state of the operation is another.
          rename_i call hcut
          unfold GuardedCall.cut? at hcut
          split at hcut
          · rename_i held state hphase
            obtain ⟨later, -, rfl⟩ := Option.map_eq_some_iff.mp hcut
            refine .acted hcaller ?_ rfl ?_
            · rw [hphase]
              exact .refl ..
            · intro hpath
              rw [hphase] at hpath
              exact hpath.congr rfl rfl
          · cases hcut
  | leave index =>
      simp only [happen]
      split
      · exact .same
      · rename_i caller hcaller
        exact .left hcaller

/-! ## The stakes of all callers -/

/-- The stakes of the callers keep all bulkheads in order, and every caller is on its path. -/
structure InOrder (capacities : List Nat) (guards : List Guard)
    (callers : List (Caller σ ω α)) : Prop where
  length : guards.length = capacities.length
  bulkheads : ∀ position capacity, capacities[position]? = some capacity →
    ∃ guard : Guard, guards[position]? = some guard ∧ guard.bulkhead.capacity = capacity ∧
      guard.bulkhead.InOrder (callers.map (·.stake position))
  paths : ∀ caller ∈ callers, caller.call.phase.OnPath capacities.length caller.protection.path

theorem inOrder_opening (now : Nat)
    (plans : List (String × BreakerSettings × BulkheadSettings)) :
    InOrder (plans.map (·.2.2.maxConcurrent)) (opening now plans : Traffic σ ω α).guards
      (opening now plans : Traffic σ ω α).callers where
  length := by simp [opening]
  bulkheads := by
    intro position capacity hcapacity
    rw [List.getElem?_map, Option.map_eq_some_iff] at hcapacity
    obtain ⟨plan, hplan, rfl⟩ := hcapacity
    refine ⟨.new plan.1 plan.2.1 plan.2.2, ?_, rfl, Bulkhead.inOrder_new _⟩
    simp [opening, hplan]
  paths := fun _ hcaller => absurd hcaller List.not_mem_nil

namespace InOrder

variable {capacities : List Nat} {guards after : List Guard}
  {callers others : List (Caller σ ω α)} {had has : Nat → Stake}

/-- One stake changes as whoever has it deals with the bulkheads; those of the others do not. -/
theorem bulkheads_of_dealt (horder : InOrder capacities guards callers)
    (hdealt : Guard.Dealt guards had after has) {rest : Nat → List Stake}
    (hbefore : ∀ position, (callers.map (·.stake position)).Perm (had position :: rest position))
    (position capacity : Nat) (hcapacity : capacities[position]? = some capacity) :
    ∃ guard : Guard, after[position]? = some guard ∧ guard.bulkhead.capacity = capacity ∧
      guard.bulkhead.InOrder (has position :: rest position) := by
  obtain ⟨guard, hguard, hcapacity, hbulkhead⟩ := horder.bulkheads position capacity hcapacity
  obtain ⟨later, hlater, hdeals⟩ := hdealt.deals position guard hguard
  refine ⟨later, hlater, ?_, (hbulkhead.perm (hbefore position)).deals hdeals⟩
  exact (Bulkhead.capacity_of_deals hdeals).trans hcapacity

/-- The stake of one caller and those of the others. -/
theorem perm_stakes {index : Nat} {caller : Caller σ ω α}
    (hcaller : callers[index]? = some caller) (position : Nat) :
    (callers.map (·.stake position)).Perm
      (caller.stake position :: (callers.eraseIdx index).map (·.stake position)) := by
  obtain ⟨hindex, rfl⟩ := List.getElem?_eq_some_iff.mp hcaller
  exact ((List.getElem_cons_eraseIdx_perm hindex).map (·.stake position)).symm

theorem became {traffic : Traffic σ ω α} {later : List Guard × List (Caller σ ω α)}
    (horder : InOrder capacities traffic.guards traffic.callers) (hbecame : traffic.Became later) :
    InOrder capacities later.1 later.2 := by
  cases hbecame with
  | same => exact horder
  | arrived protection operation start =>
      refine ⟨horder.length, ?_, ?_⟩
      · intro position capacity hcapacity
        obtain ⟨guard, hguard, hsame, hbulkhead⟩ := horder.bulkheads position capacity hcapacity
        refine ⟨guard, hguard, hsame, ?_⟩
        rw [List.map_append]
        exact (Bulkhead.InOrder.cons_nothing_iff.mpr hbulkhead).perm
          (List.perm_append_singleton ..).symm
      · intro caller hcaller
        rcases List.mem_append.mp hcaller with hold | hnew
        · exact horder.paths caller hold
        · obtain rfl := List.mem_singleton.mp hnew
          exact .start ..
  | @acted index caller after later hcaller hdealt hlength hpath =>
      have hindex := (List.getElem?_eq_some_iff.mp hcaller).1
      refine ⟨hlength.trans horder.length, ?_, ?_⟩
      · intro position capacity hcapacity
        obtain ⟨guard, hguard, hsame, hbulkhead⟩ :=
          horder.bulkheads_of_dealt hdealt (perm_stakes hcaller) position capacity hcapacity
        refine ⟨guard, hguard, hsame, hbulkhead.perm ?_⟩
        exact ((List.set_perm_cons_eraseIdx hindex { caller with call := later }).map
          (·.stake position)).symm
      · intro other hother
        rcases List.mem_or_eq_of_mem_set hother with hold | rfl
        · exact horder.paths other hold
        · rw [← horder.length]
          refine hpath ?_
          rw [horder.length]
          exact horder.paths caller (List.mem_of_getElem? hcaller)
  | @left index caller hcaller =>
      refine ⟨(GuardedCall.length_abandon ..).trans horder.length, ?_, ?_⟩
      · intro position capacity hcapacity
        obtain ⟨guard, hguard, hsame, hbulkhead⟩ := horder.bulkheads_of_dealt
          (GuardedCall.dealt_abandon ..) (perm_stakes hcaller) position capacity hcapacity
        exact ⟨guard, hguard, hsame, Bulkhead.InOrder.cons_nothing_iff.mp hbulkhead⟩
      · exact fun other hother => horder.paths other (List.mem_of_mem_eraseIdx hother)

end InOrder

/-- The stakes of the callers keep all bulkheads in order, whatever happens. -/
theorem inOrder_run {capacities : List Nat} {traffic : Traffic σ ω α}
    (horder : InOrder capacities traffic.guards traffic.callers) (events : List (Event σ ω α)) :
    InOrder capacities (traffic.run events).guards (traffic.run events).callers := by
  induction events generalizing traffic with
  | nil => exact horder
  | cons event events ih => exact ih (horder.became (traffic.became_happen event))

/-! ## Conservation -/

/-- The slots of a bulkhead are accounted for by the callers. -/
structure Conserved (traffic : Traffic σ ω α) (position capacity : Nat) (bulkhead : Bulkhead) :
    Prop where
  /-- The slots that callers have and the free ones are all. -/
  total : sumOf (traffic.callers.map (·.slots bulkhead position)) + bulkhead.free = capacity
  /-- No more operations run under the guard than there are slots. -/
  operating : traffic.callers.countP (·.operatesUnder position) ≤ capacity
  /-- Nobody waits while a slot is free. -/
  busy : ∀ caller ∈ traffic.callers, caller.waitsFor bulkhead position → bulkhead.free = 0
  /-- Between attempts and after the last one a caller has no slot. -/
  resting : ∀ caller ∈ traffic.callers, ∀ wakes, caller.call.phase = .backingOff wakes →
    caller.slots bulkhead position = 0
  /-- When no call is in progress, all slots are free. -/
  idle : (∀ caller ∈ traffic.callers, caller.call.ending?.isSome) → bulkhead.free = capacity
  /-- A caller whose wait is over has left the line, and has no more slots than before. -/
  expired : ∀ index caller held ahead ticket latest shared,
    traffic.callers[index]? = some caller →
    caller.call.phase = .queued held position ahead ticket latest →
    ticket ∉ bulkhead.assigned → latest ≤ traffic.now →
    ∃ guard failure, (traffic.happen (.act index shared)).guards[position]? = some guard ∧
      guard.bulkhead = { bulkhead with waiting := bulkhead.waiting.erase ticket } ∧
      (traffic.happen (.act index shared)).callers = traffic.callers.set index
        { caller with
          call := { caller.call with
            phase := .leaving .ignored (.permit position :: held) (.error failure) } } ∧
      (caller.protection.path.Nodup → .slot position ∉ held)
  /-- A caller that leaves takes no slot away: those of the others and the free ones are all. -/
  cancelled : ∀ index, ∃ guard, (traffic.happen (.leave index)).guards[position]? = some guard ∧
    (traffic.happen (.leave index)).callers = traffic.callers.eraseIdx index ∧
    sumOf ((traffic.callers.eraseIdx index).map (·.slots guard.bulkhead position)) +
      guard.bulkhead.free = capacity

/-- Not more callers have some property than there are slots, if each of them has one. -/
theorem countP_le_sum_slots {callers : List (Caller σ ω α)} {bulkhead : Bulkhead}
    {position : Nat} {property : Caller σ ω α → Bool}
    (hslot : ∀ caller ∈ callers, property caller → 1 ≤ caller.slots bulkhead position) :
    callers.countP property ≤ sumOf (callers.map (·.slots bulkhead position)) := by
  induction callers with
  | nil => exact Nat.le_refl 0
  | cons caller callers ih =>
      have hrest := ih fun other hother => hslot other (List.mem_cons_of_mem _ hother)
      have hfirst := hslot caller List.mem_cons_self
      rw [List.countP_cons, List.map_cons, sumOf_cons]
      split
      · rename_i hproperty
        have hone := hfirst hproperty
        omega
      · omega

/-- A caller in its operation has a slot of every guard on its path. -/
theorem one_le_slots_of_operatesUnder {caller : Caller σ ω α} {count position : Nat}
    (bulkhead : Bulkhead) (hpath : caller.call.phase.OnPath count caller.protection.path)
    (hexists : position < count) (hoperates : caller.operatesUnder position) :
    1 ≤ caller.slots bulkhead position := by
  unfold Caller.operatesUnder at hoperates
  split at hoperates
  · rename_i held state hphase
    rw [hphase] at hpath
    have hmem := hpath.mem_of_operating (of_decide_eq_true hoperates) hexists
    have hcount := List.count_pos_iff.mpr hmem
    have hheld : (caller.stake position).slots = (Hold.slots held).count position := by
      rw [Caller.stake, hphase]
      rfl
    rw [Caller.slots, Stake.worth, hheld]
    omega
  · cases hoperates

/-- A caller with nothing has no slot. -/
theorem slots_of_stake {caller : Caller σ ω α} (bulkhead : Bulkhead) {position : Nat}
    (hstake : caller.call.phase.stake = Hold.stake []) : caller.slots bulkhead position = 0 := by
  rw [Caller.slots, Caller.stake, hstake]
  rfl

/-- If no caller has a slot, the sum is zero. -/
theorem sum_slots_eq_zero {callers : List (Caller σ ω α)} {bulkhead : Bulkhead} {position : Nat}
    (hnone : ∀ caller ∈ callers, caller.slots bulkhead position = 0) :
    sumOf (callers.map (·.slots bulkhead position)) = 0 := by
  induction callers with
  | nil => rfl
  | cons caller callers ih =>
      rw [List.map_cons, sumOf_cons, hnone caller List.mem_cons_self,
        ih fun other hother => hnone other (List.mem_cons_of_mem _ hother)]

namespace InOrder

variable {capacities : List Nat} {traffic : Traffic σ ω α} {position capacity : Nat}

theorem total (horder : InOrder capacities traffic.guards traffic.callers)
    (hcapacity : capacities[position]? = some capacity) :
    ∃ guard, traffic.guards[position]? = some guard ∧
      sumOf (traffic.callers.map (·.slots guard.bulkhead position)) + guard.bulkhead.free =
        capacity := by
  obtain ⟨guard, hguard, rfl, hbulkhead⟩ := horder.bulkheads position capacity hcapacity
  refine ⟨guard, hguard, ?_⟩
  rw [← hbulkhead.sum_worth, List.map_map]
  rfl

/-- A caller whose wait is over leaves the line. -/
theorem expired (horder : InOrder capacities traffic.guards traffic.callers) {guard : Guard}
    (hguard : traffic.guards[position]? = some guard) {index : Nat} {caller : Caller σ ω α}
    {held : List Hold} {ahead : List Nat} {ticket latest : Nat} (shared : σ)
    (hcaller : traffic.callers[index]? = some caller)
    (hphase : caller.call.phase = .queued held position ahead ticket latest)
    (hticket : ticket ∉ guard.bulkhead.assigned) (hlatest : latest ≤ traffic.now) :
    ∃ after failure, (traffic.happen (.act index shared)).guards[position]? = some after ∧
      after.bulkhead =
        { guard.bulkhead with waiting := guard.bulkhead.waiting.erase ticket } ∧
      (traffic.happen (.act index shared)).callers = traffic.callers.set index
        { caller with
          call := { caller.call with
            phase := .leaving .ignored (.permit position :: held) (.error failure) } } ∧
      (caller.protection.path.Nodup → .slot position ∉ held) := by
  have hindex := (List.getElem?_eq_some_iff.mp hguard).1
  have hgiveUp : guard.bulkhead.giveUp ticket =
      { guard.bulkhead with waiting := guard.bulkhead.waiting.erase ticket } := by
    rw [Bulkhead.giveUp, Bulkhead.claim?_eq_none_iff.mpr hticket]
  have hagain : guard.bulkhead.askAgain? traffic.now ticket latest =
      some (.refused, guard.bulkhead.giveUp ticket) := by
    rw [Bulkhead.askAgain?, Bulkhead.claim?_eq_none_iff.mpr hticket]
    exact if_pos hlatest
  have hstep : caller.call.step? caller.protection caller.operation caller.start traffic.now
      traffic.guards shared = some
        (traffic.guards.set position { guard with bulkhead := guard.bulkhead.giveUp ticket }, shared,
          { caller.call with
            phase := .leaving .ignored (.permit position :: held) (.error guard.full) }) := by
    simp only [GuardedCall.step?, hphase, hguard, hagain, Option.bind_some]
  refine ⟨{ guard with bulkhead := guard.bulkhead.giveUp ticket }, guard.full, ?_, hgiveUp, ?_, ?_⟩
  · simp only [happen, hcaller, hstep]
    exact List.getElem?_set_self hindex
  · simp only [happen, hcaller, hstep]
  · intro hnodup hmem
    have hpath := horder.paths caller (List.mem_of_getElem? hcaller)
    rw [hphase] at hpath
    exact hpath.not_mem_of_at (.queued ..) hnodup (List.mem_filterMap.mpr ⟨_, hmem, rfl⟩)

theorem cancelled (horder : InOrder capacities traffic.guards traffic.callers)
    (hcapacity : capacities[position]? = some capacity) (index : Nat) :
    ∃ guard, (traffic.happen (.leave index)).guards[position]? = some guard ∧
      (traffic.happen (.leave index)).callers = traffic.callers.eraseIdx index ∧
      sumOf ((traffic.callers.eraseIdx index).map (·.slots guard.bulkhead position)) +
        guard.bulkhead.free = capacity := by
  have hcallers : (traffic.happen (.leave index)).callers = traffic.callers.eraseIdx index := by
    simp only [happen]
    split
    · rename_i hnone
      rw [List.eraseIdx_of_length_le (List.getElem?_eq_none_iff.mp hnone)]
    · rfl
  obtain ⟨guard, hguard, htotal⟩ :=
    (horder.became (traffic.became_happen (.leave index))).total hcapacity
  refine ⟨guard, hguard, hcallers, ?_⟩
  rw [← hcallers]
  exact htotal

theorem conserved (horder : InOrder capacities traffic.guards traffic.callers)
    (hcapacity : capacities[position]? = some capacity) :
    ∃ guard, traffic.guards[position]? = some guard ∧
      traffic.Conserved position capacity guard.bulkhead := by
  obtain ⟨guard, hguard, htotal⟩ := horder.total hcapacity
  obtain ⟨same, hsame, -, hbulkhead⟩ := horder.bulkheads position capacity hcapacity
  cases hsame.symm.trans hguard
  refine ⟨guard, hguard, htotal, ?_, ?_, ?_, ?_, ?_, horder.cancelled hcapacity⟩
  · have hexists := (List.getElem?_eq_some_iff.mp hcapacity).1
    have hslots : traffic.callers.countP (·.operatesUnder position) ≤
        sumOf (traffic.callers.map (·.slots guard.bulkhead position)) :=
      countP_le_sum_slots fun caller hcaller =>
        one_le_slots_of_operatesUnder guard.bulkhead (horder.paths caller hcaller) hexists
    omega
  · rintro caller hcaller ⟨ticket, hticket, hwaits⟩
    exact hbulkhead.free_eq_zero (List.mem_map_of_mem hcaller) hticket hwaits
  · intro caller _ wakes hphase
    exact slots_of_stake _ (hphase ▸ rfl)
  · intro hdone
    have hnone : sumOf (traffic.callers.map (·.slots guard.bulkhead position)) = 0 := by
      refine sum_slots_eq_zero fun caller hcaller => ?_
      obtain ⟨ending, hending⟩ := Option.isSome_iff_exists.mp (hdone caller hcaller)
      have hphase := GuardedCall.ending?_eq_some_iff.mp hending
      exact slots_of_stake guard.bulkhead (hphase ▸ rfl)
    omega
  · intro index caller held ahead ticket latest shared hcaller hphase hticket hlatest
    exact horder.expired hguard shared hcaller hphase hticket hlatest

end InOrder

/-- **The slots of every bulkhead are conserved**, whoever comes, whatever the callers do and in
whichever order, and whoever leaves in the middle. -/
theorem conserved_run (now : Nat) (plans : List (String × BreakerSettings × BulkheadSettings))
    (events : List (Event σ ω α)) {position : Nat} {name : String} {breaker : BreakerSettings}
    {settings : BulkheadSettings} (hplan : plans[position]? = some (name, breaker, settings)) :
    ∃ guard, ((opening now plans).run events).guards[position]? = some guard ∧
      ((opening now plans).run events).Conserved position settings.maxConcurrent
        guard.bulkhead := by
  have horder := inOrder_run (inOrder_opening (σ := σ) (ω := ω) (α := α) now plans) events
  refine horder.conserved ?_
  rw [List.getElem?_map, hplan]
  rfl

/-- Two guards with a slot each. -/
def narrowPlans : List (String × BreakerSettings × BulkheadSettings) :=
  let breaker : BreakerSettings := ⟨1, 1, .ofNat 50, 1000, 1⟩
  [("global", breaker, ⟨1, 20⟩), ("text", breaker, ⟨1, 20⟩)]

/-- One caller works under both guards and another waits for the second of them until its time is
over; the first leaves in the middle and the other gives everything back. -/
def narrowEvents : List (Event Unit Unit Unit) :=
  let endless : Operation Unit Unit Unit :=
    { step? := fun _ _ _ => none, ending? := fun _ => none, wait? := fun _ => none
      effort := fun _ => 0 }
  [.arrive ⟨[1, 0], .once⟩ endless fun _ _ => (), .act 0 (), .act 0 (), .act 0 (), .act 0 (),
    .act 0 (), .arrive ⟨[0], .once⟩ endless fun _ _ => (), .act 1 (), .act 1 (), .act 1 (),
    .pass 20, .act 1 (), .leave 0, .act 0 (), .act 0 ()]

theorem conserved_run_narrow :
    narrowPlans[0]? = some ("global", ⟨1, 1, .ofNat 50, 1000, 1⟩, ⟨1, 20⟩) ∧
      (∃ guard, ((opening 0 narrowPlans).run narrowEvents).guards[0]? = some guard ∧
        ((opening 0 narrowPlans).run narrowEvents).Conserved 0 1 guard.bulkhead) ∧
      ((opening 0 narrowPlans).run (narrowEvents.take 10)).guards.map (·.bulkhead.waiting) =
        [[0], []] ∧
      ((opening 0 narrowPlans).run narrowEvents).guards.map (·.bulkhead.free) = [1, 1] := by
  have hplan : narrowPlans[0]? = some ("global", ⟨1, 1, .ofNat 50, 1000, 1⟩, ⟨1, 20⟩) := rfl
  exact ⟨hplan, conserved_run 0 narrowPlans narrowEvents hplan, rfl, rfl⟩

end Traffic

end Clearing
