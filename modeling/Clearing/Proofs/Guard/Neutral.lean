import Clearing.Proofs.Guard.Deeds
import Clearing.Proofs.Guard.Lending
import Clearing.Proofs.Guard.Traffic

/-!
# Attempts that leave no trace

An attempt that some guard turns away has passed the guards before that one: their
breakers have admitted it, perhaps as a trial call, and their bulkheads have given it a
slot.  All of this is undone when the attempt gives back what it holds.  So it is for an
attempt whose operation ran and found that a transaction breaks a rule.

If nobody else is admitted, tells an outcome or gives a slot back in the meantime, every
guard is as it was before (`Visit.asBefore_of_turnedAway`), with one exception: a breaker
that was open, and that was asked when its wait was over, stays half-open, without any
trial call.

## Strategy

While the attempt goes on, each guard is as it was before apart from what it has lent
(`Guard.Lent`): the permits and slots of the guard among all that the call holds.  An
action of the call changes the guard and what is held together (`Act.borrows`), and
nobody else changes what counts (`CallTurn.Spares.lending`).  That the guards were used
properly until then matters for tickets only: one that is drawn now is not among those
that a slot was assigned to before.
-/

namespace Clearing

variable {σ ω α : Type}

/-- The questions that a call puts to breakers in its next action. -/
def Phase.asks (now : Nat) : Phase ω α → List (Nat × Nat)
  | .entering _ (position :: _) => [(position, now)]
  | _ => []

/-- In a turn of a call no guard that is watched admits it or gives it a slot, is told an outcome or
gets a slot back. -/
def CallTurn.Spares (watched : List Nat) (turn : CallTurn σ ω α) : Prop :=
  match turn.deed with
  | .admitted position => position ∉ watched
  | .passed position => position ∉ watched
  | .told position _ => position ∉ watched
  | .released position => position ∉ watched
  | .aborted _ => ∀ hold ∈ turn.call.phase.held, hold.guard ∉ watched
  | _ => True

/-- An attempt of a call among others that use the same guards. -/
structure Visit (ω α : Type) where
  now : Nat
  guards : List Guard
  call : GuardedCall ω α
  /-- The questions to breakers since the attempt began, the latest first. -/
  asked : List (Nat × Nat)

/-- What can happen during an attempt while the guards that are watched admit nobody else, are told
nothing by anybody else and get no slot back from anybody else. -/
inductive Visit.Step (protection : Protection) (operation : Operation σ ω α)
    (start : Nat → Nat → ω) (watched : List Nat) : Visit ω α → Visit ω α → Prop
  /-- Time passes. -/
  | passed {visit : Visit ω α} (millis : Nat) :
      Step protection operation start watched visit { visit with now := visit.now + millis }
  /-- The call takes an action in its attempt.  A slot that it gives back goes to nobody in line, or
  else somebody would be let in. -/
  | acted {visit : Visit ω α} {shared next : σ} {after : List Guard} {later : GuardedCall ω α}
      (hstep : visit.call.step? protection operation start visit.now visit.guards shared =
        some (after, next, later))
      (hattempt : later.attempt = visit.call.attempt)
      (hline : Guard.news watched visit.guards after = []) :
      Step protection operation start watched visit
        { visit with
          guards := after
          call := later
          asked := visit.call.phase.asks visit.now ++ visit.asked }
  /-- A deadline cuts the operation of the call short. -/
  | cut {visit : Visit ω α} {chosen : Deadline → Bool} {later : GuardedCall ω α}
      (hcut : visit.call.cut? operation chosen = some later) :
      Step protection operation start watched visit { visit with call := later }
  /-- Somebody else takes an action and spares the guards. -/
  | other {visit : Visit ω α} {caller : Caller σ ω α} {shared next : σ} {after : List Guard}
      {later : GuardedCall ω α}
      (hstep : caller.call.step? caller.protection caller.operation caller.start visit.now
        visit.guards shared = some (after, next, later))
      (hspares : CallTurn.Spares watched
        ⟨visit.now, visit.guards, shared, caller.call, after, next, later⟩) :
      Step protection operation start watched visit
        { visit with
          guards := after
          asked := caller.call.phase.asks visit.now ++ visit.asked }
  /-- Somebody else leaves who holds nothing of the guards. -/
  | left {visit : Visit ω α} {caller : Caller σ ω α}
      (hnothing : ∀ hold ∈ caller.call.phase.held, hold.guard ∉ watched) :
      Step protection operation start watched visit
        { visit with guards := caller.call.abandon visit.guards visit.now }

/-- Some things happen during an attempt, one after the other. -/
abbrev Visit.Run (protection : Protection) (operation : Operation σ ω α)
    (start : Nat → Nat → ω) (watched : List Nat) : Visit ω α → Visit ω α → Prop :=
  Relation.ReflTransGen (Step protection operation start watched)

/-! ## What others give back -/

section GiveBack

variable {position : Nat} {held : List Hold}

theorem Hold.getElem?_giveBack (guards : List Guard) (now : Nat) (outcome : Outcome) {hold : Hold}
    (hother : hold.guard ≠ position) :
    (hold.giveBack guards now outcome)[position]? = guards[position]? := by
  cases hold <;> exact List.getElem?_modify_ne _ _ hother

theorem GuardedCall.getElem?_giveBackAll (guards : List Guard) (now : Nat) (outcome : Outcome)
    (hothers : ∀ hold ∈ held, hold.guard ≠ position) :
    (giveBackAll guards now outcome held)[position]? = guards[position]? := by
  induction held generalizing guards with
  | nil => rfl
  | cons hold held ih =>
      obtain ⟨hhold, hheld⟩ := List.forall_mem_cons.mp hothers
      exact (ih _ hheld).trans (hold.getElem?_giveBack guards now outcome hhold)

/-- Who leaves has no effect on a guard of which it holds nothing. -/
theorem GuardedCall.getElem?_abandon (guards : List Guard) (now : Nat) {call : GuardedCall ω α}
    (hothers : ∀ hold ∈ call.phase.held, hold.guard ≠ position) :
    (call.abandon guards now)[position]? = guards[position]? := by
  obtain ⟨attempt, phase⟩ := call
  cases phase with
  | queued held place ahead ticket latest =>
      have hplace : place ≠ position := hothers (.permit place) List.mem_cons_self
      refine (getElem?_giveBackAll _ now .ignored hothers).trans ?_
      exact List.getElem?_modify_ne _ _ hplace
  | backingOff => rfl
  | finished => rfl
  | _ => exact getElem?_giveBackAll guards now _ hothers

end GiveBack

/-! ## Guards and what is held of them -/

section Lending

variable {asked more : List (Nat × Nat)} {position now : Nat} {held kept : List Hold}
  {before : Guard} {guards : List Guard}

/-- A guard of a list is as it was before, apart from what is held of it. -/
def Guard.Lending (asked : List (Nat × Nat)) (position : Nat) (held : List Hold) (before : Guard)
    (guards : List Guard) : Prop :=
  ∃ guard, guards[position]? = some guard ∧ Guard.Lent asked position held before guard

/-- One guard changes, and something else is held of it: that guard must be right afterwards, and
any other one must not see a difference. -/
theorem Guard.Lending.set {place : Nat} {guard changed : Guard}
    (hlending : Lending asked position held before guards) (hguard : guards[place]? = some guard)
    (hhere : place = position → Lent asked position held before guard →
      Lent more position kept before changed)
    (helsewhere : place ≠ position → ∀ other, Lent asked position held before other →
      Lent more position kept before other) :
    Lending more position kept before (guards.set place changed) := by
  obtain ⟨there, hthere, hlent⟩ := hlending
  by_cases hplace : place = position
  · subst hplace
    cases hthere.symm.trans hguard
    have hindex := (List.getElem?_eq_some_iff.mp hguard).1
    exact ⟨changed, List.getElem?_set_self hindex, hhere rfl hlent⟩
  · refine ⟨there, ?_, helsewhere hplace there hlent⟩
    rw [List.getElem?_set_ne hplace]
    exact hthere

theorem Guard.Lending.imp (hlending : Lending asked position held before guards)
    (hlent : ∀ guard, Lent asked position held before guard →
      Lent more position kept before guard) : Lending more position kept before guards := by
  obtain ⟨guard, hguard, hheld⟩ := hlending
  exact ⟨guard, hguard, hlent guard hheld⟩

/-- A call gives something back and has nothing to tell. -/
theorem Guard.Lending.giveBack {hold : Hold}
    (hlending : Lending asked position (hold :: held) before guards)
    (hnobody : ∀ guard changed, guards[position]? = some guard →
      (hold.giveBack guards now .ignored)[position]? = some changed →
        guard.bulkhead.newlyAssigned changed.bulkhead = []) :
    Lending asked position held before (hold.giveBack guards now .ignored) := by
  obtain ⟨guard, hguard, hlent⟩ := hlending
  by_cases hhold : hold.guard = position
  · cases hold with
    | permit place =>
        obtain rfl : place = position := hhold
        refine ⟨guard.record now .ignored, ?_, hlent.recorded now⟩
        show (guards.modify place _)[place]? = _
        rw [List.getElem?_modify_eq, hguard]
        rfl
    | slot place =>
        obtain rfl : place = position := hhold
        have hchanged : (guards.modify place Guard.release)[place]? = some guard.release := by
          rw [List.getElem?_modify_eq, hguard]
          rfl
        exact ⟨guard.release, hchanged, hlent.released (hnobody guard _ hguard hchanged)⟩
  · refine ⟨guard, ?_, (Lent.cons_iff hold hhold).mp hlent⟩
    rw [hold.getElem?_giveBack guards now .ignored hhold, hguard]

end Lending

/-! ## Actions of the call and of others -/

section Actions

variable {protection : Protection} {operation : Operation σ ω α} {start : Nat → Nat → ω}
  {asked : List (Nat × Nat)} {position now : Nat} {before : Guard} {guards after : List Guard}
  {shared next : σ} {call later : GuardedCall ω α} {watched : List Nat}

/-- What a call holds of a guard is what the guard lacks, and no slot was assigned to its ticket
before. -/
structure Phase.Borrows (asked : List (Nat × Nat)) (position : Nat) (before : Guard)
    (guards : List Guard) (phase : Phase ω α) : Prop where
  lending : Guard.Lending asked position phase.held before guards
  ticket : ∀ ticket, phase.ticket? position = some ticket → ticket ∉ before.bulkhead.assigned

/-- An attempt that is under way or says nothing when it leaves. -/
def Phase.IsSilent : Phase ω α → Prop
  | .leaving outcome _ _ => outcome = .ignored
  | .backingOff _ => False
  | .finished _ => False
  | _ => True

/-- The outcome that an attempt tells is that of its result. -/
def Phase.TellsResult : Phase ω α → Prop
  | .leaving outcome _ result => outcome = .of result
  | _ => True

section Hears

variable {phase : Phase ω α} {place : Nat} {held : List Hold} {ahead : List Nat} {guard : Guard}
  {answer : Bulkhead.SlotAnswer} {bulkhead : Bulkhead}

theorem Phase.Hears.held_eq
    (hhears : phase.Hears now held place ahead guard.bulkhead (answer, bulkhead)) :
    phase.held = .permit place :: held := by
  cases hhears <;> rfl

theorem Phase.Hears.asks_eq
    (hhears : phase.Hears now held place ahead guard.bulkhead (answer, bulkhead)) :
    phase.asks now = [] := by
  cases hhears <;> rfl

/-- The answer of a bulkhead changes what is held of the guard as it changes the bulkhead. -/
theorem Phase.Hears.borrows
    (hhears : phase.Hears now held place ahead guard.bulkhead (answer, bulkhead))
    (hguard : guards[place]? = some guard) (hborrows : phase.Borrows asked position before guards) :
    (afterAnswer held place ahead guard answer : Phase ω α).Borrows asked position before
      (guards.set place { guard with bulkhead }) := by
  have hlending := hborrows.lending
  rw [hhears.held_eq] at hlending
  by_cases htaken : answer = .taken
  · subst htaken
    refine ⟨?_, nofun⟩
    have hpassed : Guard.Lending asked position (.slot place :: .permit place :: held) before
        (guards.set place { guard with bulkhead }) := by
      refine hlending.set hguard ?_ fun hother _ hlent => ?_
      · rintro rfl hlent
        exact hlent.passed hhears.answers hborrows.ticket
      · exact (Guard.Lent.cons_iff (.slot place) hother).mpr hlent
    have hperm : (Hold.slot place :: .permit place :: held).Perm
        (held ++ GuardedCall.holdsOf place) := by
      refine (List.Perm.swap ..).trans ?_
      show (GuardedCall.holdsOf place ++ held).Perm _
      exact List.perm_append_comm
    exact hpassed.imp fun _ hlent => hlent.perm hperm
  · have hheld : (afterAnswer held place ahead guard answer : Phase ω α).held =
        .permit place :: held := by
      cases answer with
      | taken => exact absurd rfl htaken
      | _ => rfl
    refine ⟨?_, ?_⟩
    · rw [hheld]
      refine hlending.set hguard ?_ fun _ _ => id
      rintro rfl hlent
      exact hlent.answered hhears.answers htaken
    · intro ticket hticket
      cases answer with
      | queued drawn latest =>
          obtain ⟨rfl, rfl⟩ : place = position ∧ drawn = ticket := by
            simpa [afterAnswer, Phase.ticket?] using hticket
          obtain ⟨there, hthere, hlent⟩ := hlending
          cases hthere.symm.trans hguard
          exact (hlent.bulkhead.answered hhears.answers htaken).2 drawn latest rfl
      | _ => cases hticket

end Hears

/-- After an attempt a call is no longer in it. -/
theorem GuardedCall.not_isSilent_settle (protection : Protection) (now : Nat)
    (call : GuardedCall ω α) (result : Except Failure α) :
    ¬ (settle protection now call result).phase.IsSilent := by
  unfold settle
  split
  · exact id
  · split <;> exact id

namespace GuardedCall.Act

/-- An action that leaves an attempt silent finds it silent. -/
theorem isSilent
    (hact : Act protection operation start now (guards, shared, call) (after, next, later))
    (hattempt : later.attempt = call.attempt) (hsilent : later.phase.IsSilent) :
    call.phase.IsSilent := by
  cases hact with
  | skip hat => cases hat <;> trivial
  | answered hguard hhears => cases hhears <;> trivial
  | gaveBack => exact hsilent
  | settled => exact (not_isSilent_settle _ _ _ _ hsilent).elim
  | backedOff => exact absurd hattempt (Nat.succ_ne_self _)
  | _ => trivial

/-- The outcome that is told stays that of the result. -/
theorem tellsResult
    (hact : Act protection operation start now (guards, shared, call) (after, next, later))
    (htells : call.phase.TellsResult) : later.phase.TellsResult := by
  cases hact with
  | rejected => exact rfl
  | answered hguard hhears =>
      rename_i answer _
      cases answer with
      | refused => exact rfl
      | _ => trivial
  | returned => exact rfl
  | gaveBack => exact htells
  | settled =>
      unfold settle
      split
      · trivial
      · split <;> trivial
  | _ => trivial

/-- **What a silent attempt holds of a guard is what the guard lacks**, whatever it does. -/
theorem borrows
    (hact : Act protection operation start now (guards, shared, call) (after, next, later))
    (hborrows : call.phase.Borrows asked position before guards)
    (hattempt : later.attempt = call.attempt) (hsilent : later.phase.IsSilent)
    (hnobody : ∀ guard changed, guards[position]? = some guard → after[position]? = some changed →
      guard.bulkhead.newlyAssigned changed.bulkhead = []) :
    later.phase.Borrows (call.phase.asks now ++ asked) position before after := by
  have hlending := hborrows.lending
  cases hact with
  | begin => exact ⟨hlending, nofun⟩
  | @skip _ _ _ place _ _ _ hat hmissing =>
      -- A guard that does not exist is not the one that is looked at.
      have hother : place ≠ position := by
        rintro rfl
        obtain ⟨guard, hguard, -⟩ := hlending
        cases hguard.symm.trans hmissing
      refine ⟨?_, nofun⟩
      cases hat with
      | asking => exact hlending.imp fun _ hlent => hlent.mono (List.subset_cons_self ..)
      | _ => exact hlending.imp fun _ => (Guard.Lent.cons_iff (.permit place) hother).mp
  | @admitted _ _ _ place _ _ _ _ hguard hacquire =>
      refine ⟨hlending.set hguard ?_ fun hother _ hlent => ?_, nofun⟩
      · rintro rfl hlent
        exact hlent.admitted hacquire
      · refine (Guard.Lent.cons_iff (.permit place) hother).mpr ?_
        exact hlent.mono (List.subset_cons_self ..)
  | rejected hguard hacquire =>
      refine ⟨hlending.set hguard ?_ fun _ _ hlent => ?_, nofun⟩
      · rintro rfl hlent
        exact hlent.rejected hacquire
      · exact hlent.mono (List.subset_cons_self ..)
  | answered hguard hhears =>
      rw [hhears.asks_eq]
      exact hhears.borrows hguard hborrows
  | operated => exact ⟨hlending, nofun⟩
  | returned => exact ⟨hlending, nofun⟩
  | aborted => exact hsilent.elim
  | gaveBack =>
      obtain rfl := hsilent
      exact ⟨hlending.giveBack hnobody, nofun⟩
  | settled => exact (not_isSilent_settle _ _ _ _ hsilent).elim
  | backedOff => exact absurd hattempt (Nat.succ_ne_self _)

end GuardedCall.Act

/-- **Whoever spares a guard leaves it as it was before**, apart from what somebody else holds of
it. -/
theorem CallTurn.Spares.lending {held : List Hold} {turn : CallTurn σ ω α}
    (hspares : turn.Spares watched) (hwatched : position ∈ watched)
    (hact : GuardedCall.Act protection operation start turn.now
      (turn.guards, turn.shared, turn.call) (turn.after, turn.next, turn.later))
    (hlending : Guard.Lending asked position held before turn.guards) :
    Guard.Lending (turn.call.phase.asks turn.now ++ asked) position held before turn.after := by
  obtain ⟨now, guards, shared, call, after, next, later⟩ := turn
  dsimp only at hact hlending ⊢
  cases hact with
  | skip hat =>
      exact hlending.imp fun _ hlent => hlent.mono (List.subset_append_right ..)
  | @admitted _ _ _ place _ _ _ _ hguard =>
      have hother : place ∉ watched := hspares
      refine hlending.set hguard ?_ fun _ _ hlent => hlent.mono (List.subset_cons_self ..)
      rintro rfl
      exact absurd hwatched hother
  | rejected hguard hacquire =>
      refine hlending.set hguard ?_ fun _ _ hlent => hlent.mono (List.subset_cons_self ..)
      rintro rfl hlent
      exact hlent.rejected hacquire
  | @answered _ _ _ place _ _ _ _ answer _ hguard hhears =>
      rw [hhears.asks_eq]
      rw [Spares, CallTurn.deed, hhears.between] at hspares
      refine hlending.set hguard ?_ fun _ _ => id
      rintro rfl hlent
      by_cases htaken : answer = .taken
      · subst htaken
        exact absurd hwatched hspares
      · exact hlent.answered hhears.answers htaken
  | aborted =>
      obtain ⟨guard, hguard, hlent⟩ := hlending
      refine ⟨guard, ?_, hlent⟩
      rw [GuardedCall.getElem?_giveBackAll, hguard]
      exact fun hold hheld heq => hspares hold hheld (heq ▸ hwatched)
  | @gaveBack _ _ _ outcome hold =>
      obtain ⟨guard, hguard, hlent⟩ := hlending
      have hother : hold.guard ∉ watched := by cases hold <;> exact hspares
      refine ⟨guard, ?_, hlent⟩
      rw [hold.getElem?_giveBack guards now outcome fun heq => hother (heq ▸ hwatched), hguard]
  | _ => exact hlending

end Actions

namespace Visit

section Run

variable {protection : Protection} {operation : Operation σ ω α} {start : Nat → Nat → ω}
  {position : Nat} {watched : List Nat} {before : Guard} {visit later : Visit ω α}

/-- The account of an attempt with a guard: as long as the attempt tells no outcome, what it holds
of the guard is what the guard lacks. -/
structure Sound (position : Nat) (before : Guard) (visit : Visit ω α) : Prop where
  tellsResult : visit.call.phase.TellsResult
  borrows : visit.call.phase.IsSilent →
    visit.call.phase.Borrows visit.asked position before visit.guards

/-- **Whatever happens during an attempt, the account with a guard that is watched stays right.** -/
theorem Sound.step (hsound : visit.Sound position before) (hwatched : position ∈ watched)
    (hstep : Step protection operation start watched visit later) :
    later.Sound position before := by
  cases hstep with
  | passed millis => exact ⟨hsound.tellsResult, hsound.borrows⟩
  | acted hstep hattempt hline =>
      have hact := GuardedCall.act_of_step? hstep
      refine ⟨hact.tellsResult hsound.tellsResult, fun hsilent => ?_⟩
      have hborrows := hsound.borrows (hact.isSilent hattempt hsilent)
      refine hact.borrows hborrows hattempt hsilent fun guard changed hguard hchanged => ?_
      have hnews := List.flatMap_eq_nil_iff.mp hline position hwatched
      rw [hguard, hchanged] at hnews
      exact List.map_eq_nil_iff.mp hnews
  | cut hcut =>
      unfold GuardedCall.cut? at hcut
      split at hcut
      · rename_i held state hphase
        obtain ⟨cut, -, rfl⟩ := Option.map_eq_some_iff.mp hcut
        have hborrows := hsound.borrows (hphase ▸ trivial)
        rw [hphase] at hborrows
        exact ⟨trivial, fun _ => ⟨hborrows.lending, nofun⟩⟩
      · cases hcut
  | other hstep hspares =>
      refine ⟨hsound.tellsResult, fun hsilent => ?_⟩
      have hborrows := hsound.borrows hsilent
      refine ⟨?_, hborrows.ticket⟩
      exact hspares.lending hwatched (GuardedCall.act_of_step? hstep) hborrows.lending
  | left hnothing =>
      refine ⟨hsound.tellsResult, fun hsilent => ?_⟩
      obtain ⟨⟨guard, hguard, hlent⟩, hticket⟩ := hsound.borrows hsilent
      refine ⟨⟨guard, ?_, hlent⟩, hticket⟩
      rw [GuardedCall.getElem?_abandon, hguard]
      exact fun hold hheld heq => hnothing hold hheld (heq ▸ hwatched)

theorem Sound.run (hsound : visit.Sound position before) (hwatched : position ∈ watched)
    (hrun : Run protection operation start watched visit later) : later.Sound position before := by
  induction hrun with
  | refl => exact hsound
  | tail _ hstep ih => exact ih.step hwatched hstep

end Run

end Visit

/-- The bulkhead of every guard is in order with what the callers have of it. -/
theorem Traffic.exists_inOrder_run (now : Nat)
    (plans : List (String × BreakerSettings × BulkheadSettings)) (events : List (Event σ ω α))
    {position : Nat} {guard : Guard}
    (hguard : ((opening now plans).run events).guards[position]? = some guard) :
    ∃ stakes, guard.bulkhead.InOrder stakes := by
  have horder := inOrder_run (inOrder_opening (σ := σ) (ω := ω) (α := α) now plans) events
  have hindex := (List.getElem?_eq_some_iff.mp hguard).1
  rw [horder.length] at hindex
  obtain ⟨same, hsame, -, hbulkhead⟩ :=
    horder.bulkheads position _ (List.getElem?_eq_getElem hindex)
  cases hsame.symm.trans hguard
  exact ⟨_, hbulkhead⟩

namespace Visit

variable {protection : Protection} {operation : Operation σ ω α} {start : Nat → Nat → ω}

/-- The beginning of an attempt among the callers that share some guards. -/
def new (traffic : Traffic σ ω α) (call : GuardedCall ω α) : Visit ω α :=
  { now := traffic.now, guards := traffic.guards, call, asked := [] }

/-- **An attempt that is turned away, or whose operation finds a broken rule, leaves no trace**:
once it has given everything back every guard is as it was before, whatever the guards had been
through until then. -/
theorem asBefore_of_turnedAway (now : Nat)
    (plans : List (String × BreakerSettings × BulkheadSettings))
    (events : List (Traffic.Event σ ω α)) {watched : List Nat} {call : GuardedCall ω α}
    {later : Visit ω α} {outcome : Outcome} {failure : Failure}
    (hfresh : call.phase = .entering [] protection.path)
    (hrun : Run protection operation start watched
      (new ((Traffic.opening now plans).run events) call) later)
    (hleft : later.call.phase = .leaving outcome [] (.error failure))
    (hkind : failure.kind = .circuitOpen ∨ failure.kind = .bulkheadFull ∨
      failure.kind = .validation) :
    ∀ position ∈ watched, ∀ guard,
      ((Traffic.opening now plans).run events).guards[position]? = some guard →
        ∃ after, later.guards[position]? = some after ∧
          guard.AsBefore later.asked position after := by
  intro position hwatched guard hguard
  obtain ⟨stakes, horder⟩ := Traffic.exists_inOrder_run now plans events hguard
  have hfirst : (new ((Traffic.opening now plans).run events) call).Sound position guard := by
    refine ⟨?_, fun _ => ⟨⟨guard, hguard, ?_⟩, fun _ hticket => ?_⟩⟩
    · show call.phase.TellsResult
      rw [hfresh]
      trivial
    · show Guard.Lent [] position call.phase.held guard guard
      rw [hfresh]
      exact .refl [] position horder
    · change call.phase.ticket? position = _ at hticket
      rw [hfresh] at hticket
      cases hticket
  have hlast := hfirst.run hwatched hrun
  have hignored : outcome = .ignored := by
    have htells := hlast.tellsResult
    rw [hleft] at htells
    refine Eq.trans htells ?_
    rw [Outcome.of, Outcome.ofFailure]
    rcases hkind with hkind | hkind | hkind <;> rw [hkind]
  have hsilent : later.call.phase.IsSilent := by
    rw [hleft]
    exact hignored
  obtain ⟨after, hafter, hlent⟩ := (hlast.borrows hsilent).lending
  rw [hleft] at hlent
  exact ⟨after, hafter, hlent.asBefore⟩

/-- The visit after the call took some actions with nobody else around. -/
def alone (protection : Protection) (operation : Operation σ ω α) (start : Nat → Nat → ω)
    (watched : List Nat) : Nat → σ → Visit ω α → Visit ω α
  | 0, _, visit => visit
  | steps + 1, shared, visit =>
    match visit.call.step? protection operation start visit.now visit.guards shared with
    | none => visit
    | some (guards, next, call) =>
      if call.attempt = visit.call.attempt ∧ Guard.news watched visit.guards guards = [] then
        alone protection operation start watched steps next
          { visit with guards, call, asked := visit.call.phase.asks visit.now ++ visit.asked }
      else visit

theorem run_alone (watched : List Nat) (steps : Nat) (shared : σ) (visit : Visit ω α) :
    Run protection operation start watched visit
      (alone protection operation start watched steps shared visit) := by
  induction steps generalizing shared visit with
  | zero => exact .refl
  | succ steps ih =>
      unfold alone
      split
      · exact .refl
      · rename_i hstep
        split
        · rename_i hgoes
          exact .head (.acted hstep hgoes.1 hgoes.2) (ih ..)
        · exact .refl

/-- Two guards with a slot each and nobody in line. -/
def brittlePlans : List (String × BreakerSettings × BulkheadSettings) :=
  let breaker : BreakerSettings := ⟨1, 1, .ofNat 50, 10, 1⟩
  [("global", breaker, ⟨1, 0⟩), ("text", breaker, ⟨1, 0⟩)]

/-- An operation that is at its end, if there is one. -/
def still (ending? : Option (Ending Unit)) : Operation Unit Unit Unit :=
  { step? := fun _ _ _ => none, ending? := fun _ => ending?, wait? := fun _ => none
    effort := fun _ => 0 }

/-- One caller keeps the slot of the second guard.  Another fails under the first, which then opens,
and its wait passes. -/
def brittleEvents : List (Traffic.Event Unit Unit Unit) :=
  let failing := still (some (.returned (.error (.timeout "process" (.ofMillis 20)))))
  [.arrive ⟨[1], .once⟩ (still none) fun _ _ => (), .act 0 (), .act 0 (), .act 0 (),
    .arrive ⟨[0], .once⟩ failing fun _ _ => (), .act 1 (), .act 1 (), .act 1 (), .act 1 (),
    .act 1 (), .act 1 (), .act 1 (), .pass 10]

/-- The first breaker admits the call as a trial, and the second bulkhead has no slot for it. -/
theorem asBefore_of_turnedAway_brittle :
    let protection : Protection := ⟨[0, 1], .once⟩
    let operation := still none
    let traffic := (Traffic.opening 0 brittlePlans).run brittleEvents
    let first : Visit Unit Unit := new traffic (.new protection)
    let last := alone protection operation (fun _ _ => ()) [0, 1] 7 () first
    let failure := Failure.bulkheadFull "text" (.ofMillis 0)
    first.call.phase = .entering [] protection.path ∧
      Run protection operation (fun _ _ => ()) [0, 1] first last ∧
      last.call.phase = .leaving .ignored [] (.error failure) ∧
      failure.kind = .bulkheadFull ∧
      (∀ position ∈ [0, 1], ∀ guard, traffic.guards[position]? = some guard →
        ∃ after, last.guards[position]? = some after ∧ guard.AsBefore last.asked position after) ∧
      traffic.guards.map (·.breaker.state) = [.opened 10, .closed] ∧
      last.guards.map (·.breaker.state) = [.halfOpen 0 0 0, .closed] := by
  intro protection operation traffic first last failure
  have hrun : Run protection operation (fun _ _ => ()) [0, 1] first last :=
    run_alone [0, 1] 7 () first
  have hleft : last.call.phase = .leaving .ignored [] (.error failure) := rfl
  refine ⟨rfl, hrun, hleft, rfl, ?_, ?_, ?_⟩
  · exact asBefore_of_turnedAway 0 brittlePlans brittleEvents rfl hrun hleft (.inr (.inl rfl))
  · decide +kernel
  · decide +kernel

end Visit

end Clearing
