import Mathlib.Data.List.Nodup
import Clearing.Proofs.Guard.Act
import Clearing.Proofs.Guard.Slots

/-!
# What a guarded call has of the bulkheads

A guarded call has a stake in the bulkhead of each guard: the slots it holds, and its
ticket while it stands in line there.  Whatever the call does, it deals with each
bulkhead in the ways of `Bulkhead.Deal` and in no other, and so does its end when it is
dropped where it stands (`Act.dealt`, `dealt_abandon`).

The slots that it holds are those of the guards that it has passed; in the operation
these are all guards of its path (`Phase.OnPath`).
-/

namespace Clearing

variable {σ ω α : Type}

/-- The guard of which this is a slot. -/
def Hold.slot? : Hold → Option Nat
  | .permit _ => none
  | .slot guard => some guard

/-- The guards of which something held is a slot. -/
def Hold.slots (held : List Hold) : List Nat :=
  held.filterMap Hold.slot?

/-- What someone has of each bulkhead who holds something and does not stand in line. -/
def Hold.stake (held : List Hold) (position : Nat) : Stake :=
  ⟨(Hold.slots held).count position, none⟩

namespace Phase

/-- What a call holds. -/
def held : Phase ω α → List Hold
  | .entering held _ => held
  | .taking held position _ => .permit position :: held
  | .lining held position _ _ => .permit position :: held
  | .queued held position _ _ _ => .permit position :: held
  | .operating held _ => held
  | .leaving _ held _ => held
  | .backingOff _ => []
  | .finished _ => []

/-- The guards that a call has yet to pass. -/
def ahead : Phase ω α → List Nat
  | .entering _ ahead => ahead
  | .taking _ position ahead => position :: ahead
  | .lining _ position ahead _ => position :: ahead
  | .queued _ position ahead _ _ => position :: ahead
  | _ => []

/-- The call has neither been turned away nor come back from the operation. -/
def isUnderway : Phase ω α → Bool
  | .leaving .. => false
  | .backingOff _ => false
  | .finished _ => false
  | _ => true

/-- The ticket in the line of a guard. -/
def ticket? (position : Nat) : Phase ω α → Option Nat
  | .queued _ other _ ticket _ => if other = position then some ticket else none
  | _ => none

/-- What a call has of each bulkhead. -/
def stake (phase : Phase ω α) (position : Nat) : Stake :=
  ⟨(Hold.slots phase.held).count position, phase.ticket? position⟩

end Phase

namespace Guard

/-- The guards have changed as if all that was done about each bulkhead was dealt by someone who
had some stakes before and has others now. -/
structure Dealt (before : List Guard) (had : Nat → Stake) (after : List Guard)
    (has : Nat → Stake) : Prop where
  deals : ∀ position guard, before[position]? = some guard →
    ∃ later, after[position]? = some later ∧
      Bulkhead.Deals (guard.bulkhead, had position) (later.bulkhead, has position)

namespace Dealt

variable {before between after guards : List Guard} {had kept has : Nat → Stake}

theorem refl (guards : List Guard) (stake : Nat → Stake) : Dealt guards stake guards stake :=
  ⟨fun _ guard hguard => ⟨guard, hguard, .refl⟩⟩

theorem trans (hfirst : Dealt before had between kept) (hsecond : Dealt between kept after has) :
    Dealt before had after has := by
  constructor
  intro position guard hguard
  obtain ⟨middle, hmiddle, hfirst⟩ := hfirst.deals position guard hguard
  obtain ⟨later, hlater, hsecond⟩ := hsecond.deals position middle hmiddle
  exact ⟨later, hlater, hfirst.trans hsecond⟩

/-- One guard is changed, and the stakes in the others stay the same. -/
theorem modify {position : Nat} {change : Guard → Guard}
    (hothers : ∀ other, other ≠ position → had other = has other)
    (hdeals : ∀ guard, guards[position]? = some guard →
      Bulkhead.Deals (guard.bulkhead, had position) ((change guard).bulkhead, has position)) :
    Dealt guards had (guards.modify position change) has := by
  constructor
  intro other guard hguard
  by_cases hother : other = position
  · subst hother
    exact ⟨change guard, by simp [hguard], hdeals guard hguard⟩
  · refine ⟨guard, ?_, ?_⟩
    · rw [List.getElem?_modify_ne _ _ (Ne.symm hother), hguard]
    · rw [hothers other hother]

/-- The bulkhead of one guard is replaced. -/
theorem set {position : Nat} {guard : Guard} {bulkhead : Bulkhead}
    (hguard : guards[position]? = some guard)
    (hothers : ∀ other, other ≠ position → had other = has other)
    (hdeals : Bulkhead.Deals (guard.bulkhead, had position) (bulkhead, has position)) :
    Dealt guards had (guards.set position { guard with bulkhead }) has := by
  rw [List.set_eq_modify]
  refine modify hothers fun other hother => ?_
  cases hguard.symm.trans hother
  exact hdeals

/-- Only a breaker has changed. -/
theorem setBreaker {position : Nat} {guard : Guard} (breaker : Breaker)
    (hguard : guards[position]? = some guard) (hsame : had = has) :
    Dealt guards had (guards.set position { guard with breaker }) has := by
  subst hsame
  rw [List.set_eq_modify]
  refine modify (fun _ _ => rfl) fun other hother => ?_
  cases hguard.symm.trans hother
  exact .refl

end Dealt

end Guard

/-! ## Giving back -/

theorem Hold.dealt_giveBack (guards : List Guard) (now : Nat) (outcome : Outcome) (hold : Hold)
    (held : List Hold) :
    Guard.Dealt guards (Hold.stake (hold :: held)) (hold.giveBack guards now outcome)
      (Hold.stake held) := by
  cases hold with
  | permit position => exact .modify (fun _ _ => rfl) fun _ _ => .refl
  | slot position =>
      refine .modify (fun other hother => ?_) fun guard _ => ?_
      · show (⟨(position :: slots held).count other, none⟩ : Stake) = ⟨(slots held).count other, none⟩
        rw [List.count_cons_of_ne (Ne.symm hother)]
      · have hcount : (slots (.slot position :: held)).count position =
            (slots held).count position + 1 := List.count_cons_self
        show Bulkhead.Deals (guard.bulkhead, ⟨_, none⟩) _
        rw [hcount]
        exact .single .release

theorem GuardedCall.dealt_giveBackAll (guards : List Guard) (now : Nat) (outcome : Outcome)
    (held : List Hold) :
    Guard.Dealt guards (Hold.stake held) (giveBackAll guards now outcome held) (Hold.stake []) := by
  induction held generalizing guards with
  | nil => exact .refl ..
  | cons hold held ih => exact (hold.dealt_giveBack guards now outcome held).trans (ih _)

@[simp] theorem Hold.length_giveBack (guards : List Guard) (now : Nat) (outcome : Outcome)
    (hold : Hold) : (hold.giveBack guards now outcome).length = guards.length := by
  cases hold <;> exact List.length_modify ..

@[simp] theorem GuardedCall.length_giveBackAll (guards : List Guard) (now : Nat)
    (outcome : Outcome) (held : List Hold) :
    (giveBackAll guards now outcome held).length = guards.length := by
  induction held generalizing guards with
  | nil => rfl
  | cons hold held ih => exact (ih _).trans (hold.length_giveBack ..)

/-! ## Asking for a slot -/

theorem Phase.stake_queued (held : List Hold) (position : Nat) (ahead : List Nat)
    (ticket latest : Nat) :
    (queued held position ahead ticket latest : Phase ω α).stake position =
      ⟨(Hold.slots held).count position, some ticket⟩ := by
  rw [stake, ticket?, if_pos rfl]
  rfl

theorem Phase.stake_queued_of_ne {position other : Nat} (held : List Hold) (ahead : List Nat)
    (ticket latest : Nat) (hother : other ≠ position) :
    (queued held position ahead ticket latest : Phase ω α).stake other = Hold.stake held other := by
  rw [stake, ticket?, if_neg (Ne.symm hother)]
  rfl

/-- The slots after one more guard was passed. -/
theorem Hold.slots_append_holdsOf (held : List Hold) (position : Nat) :
    slots (held ++ GuardedCall.holdsOf position) = slots held ++ [position] :=
  List.filterMap_append

theorem Hold.count_slots_passed (held : List Hold) (position : Nat) :
    (slots (held ++ GuardedCall.holdsOf position)).count position =
      (slots held).count position + 1 := by
  rw [slots_append_holdsOf, List.count_append, List.count_singleton_self]

/-- What a bulkhead answers to somebody who has a ticket or none, and how it is after that. -/
inductive Bulkhead.Answers (bulkhead : Bulkhead) : Option Nat → SlotAnswer → Bulkhead → Prop
  | took {later : Bulkhead} (htake : bulkhead.take? = some later) :
      Answers bulkhead none .taken later
  | refused (hfull : bulkhead.take? = none) (hnever : bulkhead.maxWaitMillis = 0) :
      Answers bulkhead none .refused bulkhead
  | mayWait (latest : Nat) (hfull : bulkhead.take? = none) (hpatient : bulkhead.maxWaitMillis ≠ 0) :
      Answers bulkhead none (.mayWait latest) bulkhead
  | queued (latest : Nat) (hfull : bulkhead.take? = none) :
      Answers bulkhead none (.queued bulkhead.nextTicket latest) bulkhead.queue.2
  | claimed {ticket : Nat} {later : Bulkhead} (hclaim : bulkhead.claim? ticket = some later) :
      Answers bulkhead (some ticket) .taken later
  | gaveUp {ticket : Nat} (hnone : bulkhead.claim? ticket = none) :
      Answers bulkhead (some ticket) .refused (bulkhead.giveUp ticket)

/-- A call hears nothing but these answers. -/
theorem Phase.Hears.answers {phase : Phase ω α} {now position : Nat} {held : List Hold}
    {ahead : List Nat} {bulkhead later : Bulkhead} {answer : Bulkhead.SlotAnswer}
    (hhears : phase.Hears now held position ahead bulkhead (answer, later)) :
    bulkhead.Answers (phase.ticket? position) answer later := by
  cases hhears with
  | first htold =>
      unfold Bulkhead.ask at htold
      split at htold
      · rename_i htake
        cases htold
        exact .took htake
      · rename_i hfull
        split at htold <;> cases htold
        · rename_i hnever
          exact .refused hfull hnever
        · rename_i hpatient
          exact .mayWait _ hfull hpatient
  | line htold =>
      unfold Bulkhead.lineUp at htold
      split at htold
      · rename_i htake
        cases htold
        exact .took htake
      · rename_i hfull
        cases htold
        exact .queued _ hfull
  | again htold =>
      rw [ticket?, if_pos rfl]
      unfold Bulkhead.askAgain? at htold
      split at htold
      · rename_i hclaim
        cases htold
        exact .claimed hclaim
      · rename_i hnone
        split at htold <;> cases htold
        exact .gaveUp hnone

/-- Who hears from a bulkhead has of it the slots that are held, and perhaps a ticket. -/
theorem Phase.Hears.stake_eq {phase : Phase ω α} {now position : Nat} {held : List Hold}
    {ahead : List Nat} {bulkhead : Bulkhead} {answer : Bulkhead.SlotAnswer × Bulkhead}
    (hhears : phase.Hears now held position ahead bulkhead answer) :
    phase.stake position = ⟨(Hold.slots held).count position, phase.ticket? position⟩ := by
  cases hhears <;> rfl

/-- Who asks a bulkhead for a slot deals with it as the answer says. -/
theorem Phase.Hears.deals {phase : Phase ω α} {now position : Nat} {held : List Hold}
    {ahead : List Nat} {guard : Guard} {answer : Bulkhead.SlotAnswer} {bulkhead : Bulkhead}
    (hhears : phase.Hears now held position ahead guard.bulkhead (answer, bulkhead)) :
    Bulkhead.Deals (guard.bulkhead, phase.stake position)
      (bulkhead, (Phase.afterAnswer held position ahead guard answer : Phase ω α).stake position) := by
  have htaken : (Phase.afterAnswer held position ahead guard .taken : Phase ω α).stake position =
      ⟨(Hold.slots held).count position + 1, none⟩ := by
    rw [← Hold.count_slots_passed]
    rfl
  have hanswers := hhears.answers
  rw [hhears.stake_eq]
  generalize phase.ticket? position = ticket? at hanswers ⊢
  cases hanswers with
  | took htake =>
      rw [htaken]
      exact .single (.take htake)
  | refused => exact .refl
  | mayWait => exact .refl
  | queued latest hfull =>
      show Bulkhead.Deals (_, ⟨_, none⟩) (_, Phase.stake (.queued ..) position)
      rw [Phase.stake_queued]
      exact .single (.queue hfull)
  | claimed hclaim =>
      rw [htaken]
      exact .single (.claim hclaim)
  | gaveUp => exact .single .giveUp

/-- Who is at a guard has nothing else of the others than what is held. -/
theorem Phase.At.stake_of_ne {phase : Phase ω α} {held : List Hold} {position other : Nat}
    {ahead : List Nat} (hat : phase.At held position ahead) (hother : other ≠ position) :
    phase.stake other = Hold.stake held other := by
  cases hat with
  | queued ticket latest => exact stake_queued_of_ne held ahead ticket latest hother
  | _ => rfl

theorem Phase.Hears.at {phase : Phase ω α} {now position : Nat} {held : List Hold}
    {ahead : List Nat} {bulkhead : Bulkhead} {answer : Bulkhead.SlotAnswer × Bulkhead}
    (hhears : phase.Hears now held position ahead bulkhead answer) :
    phase.At held position ahead := by
  cases hhears with
  | first => exact .taking
  | line => exact .lining _
  | again => exact .queued ..

theorem Phase.stake_afterAnswer_of_ne {position other : Nat} (held : List Hold)
    (ahead : List Nat) (guard : Guard) (answer : Bulkhead.SlotAnswer) (hother : other ≠ position) :
    (afterAnswer held position ahead guard answer : Phase ω α).stake other =
      Hold.stake held other := by
  cases answer with
  | taken =>
      show Hold.stake (held ++ GuardedCall.holdsOf position) other = _
      rw [Hold.stake, Hold.slots_append_holdsOf, List.count_append,
        List.count_singleton, if_neg (by simpa using Ne.symm hother)]
      rfl
  | queued ticket latest => exact stake_queued_of_ne held ahead ticket latest hother
  | _ => rfl

namespace GuardedCall

/-! ## All that a call does -/

variable {protection : Protection} {operation : Operation σ ω α} {start : Nat → Nat → ω}

/-- Where a call stands after an attempt it has nothing. -/
theorem stake_settle (protection : Protection) (now : Nat) (call : GuardedCall ω α)
    (result : Except Failure α) :
    (settle protection now call result).phase.stake = Hold.stake [] := by
  unfold settle
  split
  · rfl
  · split <;> rfl

/-- **A call only deals with bulkheads**: one action of it changes each bulkhead and what the call
has of it in the ways of `Bulkhead.Deal`. -/
theorem Act.dealt {now : Nat} {guards after : List Guard} {shared next : σ}
    {call later : GuardedCall ω α}
    (hact : Act protection operation start now (guards, shared, call) (after, next, later)) :
    Guard.Dealt guards call.phase.stake after later.phase.stake := by
  cases hact with
  | begin => exact .refl ..
  | skip hat hmissing =>
      constructor
      intro position guard hguard
      have hother : position ≠ _ := fun heq => nomatch (heq ▸ hguard).symm.trans hmissing
      refine ⟨guard, hguard, ?_⟩
      rw [hat.stake_of_ne hother]
      exact .refl
  | admitted hguard => exact .setBreaker _ hguard rfl
  | rejected hguard => exact .setBreaker _ hguard rfl
  | answered hguard hhears =>
      refine .set hguard (fun other hother => ?_) hhears.deals
      rw [hhears.at.stake_of_ne hother, Phase.stake_afterAnswer_of_ne _ _ _ _ hother]
  | operated => exact .refl ..
  | returned => exact .refl ..
  | aborted => exact dealt_giveBackAll ..
  | gaveBack => exact Hold.dealt_giveBack ..
  | settled =>
      rw [stake_settle]
      exact .refl ..
  | backedOff => exact .refl ..

/-- A call that is dropped where it stands deals with all it has. -/
theorem dealt_abandon (guards : List Guard) (now : Nat) (call : GuardedCall ω α) :
    Guard.Dealt guards call.phase.stake (call.abandon guards now) (Hold.stake []) := by
  obtain ⟨attempt, phase⟩ := call
  cases phase with
  | entering => exact dealt_giveBackAll ..
  | taking held position => exact dealt_giveBackAll guards now .ignored (.permit position :: held)
  | lining held position => exact dealt_giveBackAll guards now .ignored (.permit position :: held)
  | queued held position ahead ticket latest =>
      refine .trans (.modify (fun other hother => ?_) fun guard _ => ?_)
        (dealt_giveBackAll _ now .ignored (.permit position :: held))
      · exact Phase.stake_queued_of_ne held ahead ticket latest hother
      · show Bulkhead.Deals (_, Phase.stake (.queued ..) position) (_, ⟨_, none⟩)
        rw [Phase.stake_queued]
        exact .single .giveUp
  | operating => exact dealt_giveBackAll ..
  | leaving => exact dealt_giveBackAll ..
  | backingOff => exact .refl ..
  | finished => exact .refl ..

theorem Act.length {now : Nat} {guards after : List Guard} {shared next : σ}
    {call later : GuardedCall ω α}
    (hact : Act protection operation start now (guards, shared, call) (after, next, later)) :
    after.length = guards.length := by
  cases hact with
  | admitted => exact List.length_set
  | rejected => exact List.length_set
  | answered => exact List.length_set
  | aborted => exact length_giveBackAll ..
  | gaveBack => exact Hold.length_giveBack ..
  | _ => rfl

theorem length_abandon (guards : List Guard) (now : Nat) (call : GuardedCall ω α) :
    (call.abandon guards now).length = guards.length := by
  unfold abandon
  split <;> simp

end GuardedCall

/-! ## Where a call is on its path -/

/-- A call has slots of guards that it has passed, in the order of its path.  Until it is turned
away or comes back from the operation it has a slot of every one that it has passed; guards that do
not exist are left out. -/
structure Phase.OnPath (count : Nat) (path : List Nat) (phase : Phase ω α) : Prop where
  passed : (Hold.slots phase.held ++ phase.ahead).Sublist path
  complete : phase.isUnderway → ∀ position ∈ path, position < count →
    position ∈ Hold.slots phase.held ++ phase.ahead

namespace Phase

variable {phase later : Phase ω α} {count position : Nat} {path ahead : List Nat}
  {held : List Hold}

theorem At.slots_held (hat : phase.At held position ahead) :
    Hold.slots phase.held = Hold.slots held := by
  cases hat <;> rfl

theorem At.ahead_eq (hat : phase.At held position ahead) : phase.ahead = position :: ahead := by
  cases hat <;> rfl

theorem At.isUnderway (hat : phase.At held position ahead) : phase.isUnderway := by
  cases hat <;> rfl

namespace OnPath

/-- Nothing changes on the path. -/
theorem congr (hpath : phase.OnPath count path) (hunderway : phase.isUnderway)
    (hsame : Hold.slots later.held ++ later.ahead = Hold.slots phase.held ++ phase.ahead) :
    later.OnPath count path :=
  ⟨hsame ▸ hpath.passed, fun _ => hsame ▸ hpath.complete hunderway⟩

/-- The call is over, apart from what it still holds. -/
theorem ended (hpath : phase.OnPath count path) (hover : later.isUnderway = false)
    (hless : (Hold.slots later.held ++ later.ahead).Sublist
      (Hold.slots phase.held ++ phase.ahead)) : later.OnPath count path :=
  ⟨hless.trans hpath.passed, fun hunderway => nomatch hover.symm.trans hunderway⟩

theorem start (count : Nat) (path : List Nat) :
    (entering [] path : Phase ω α).OnPath count path :=
  ⟨.refl _, fun _ _ hmem _ => hmem⟩

/-- A call in its operation has a slot of every guard on its path. -/
theorem mem_of_operating {operation : ω}
    (hpath : (operating held operation : Phase ω α).OnPath count path) (hmem : position ∈ path)
    (hexists : position < count) : position ∈ Hold.slots held := by
  have hall := hpath.complete rfl position hmem hexists
  rwa [show (operating held operation : Phase ω α).ahead = [] from rfl, List.append_nil] at hall

/-- A call that is at a guard has no slot of it yet, unless it is on its path twice. -/
theorem not_mem_of_at (hpath : phase.OnPath count path) (hat : phase.At held position ahead)
    (hnodup : path.Nodup) : position ∉ Hold.slots held := by
  have hpassed := hpath.passed.nodup hnodup
  rw [hat.slots_held, hat.ahead_eq] at hpassed
  exact fun hmem =>
    (List.nodup_append.mp hpassed).2.2 position hmem position List.mem_cons_self rfl

end OnPath

end Phase

/-- A call stays on its path. -/
theorem GuardedCall.Act.onPath {protection : Protection} {operation : Operation σ ω α}
    {start : Nat → Nat → ω} {now : Nat} {guards after : List Guard} {shared next : σ}
    {call later : GuardedCall ω α}
    (hact : Act protection operation start now (guards, shared, call) (after, next, later))
    (hpath : call.phase.OnPath guards.length protection.path) :
    later.phase.OnPath guards.length protection.path := by
  cases hact with
  | begin => exact hpath.congr rfl rfl
  | @skip _ _ _ missing _ _ _ hat hmissing =>
      have hpassed := hpath.passed
      have hcomplete := hpath.complete hat.isUnderway
      rw [hat.slots_held, hat.ahead_eq] at hpassed hcomplete
      refine ⟨.trans (.append (.refl _) (List.sublist_cons_self ..)) hpassed, ?_⟩
      intro _ position hmem hexists
      have hother : position ≠ missing := fun heq =>
        absurd (List.getElem?_eq_none_iff.mp hmissing) (by omega)
      have hstill := hcomplete position hmem hexists
      simp only [List.mem_append, List.mem_cons, hother, false_or] at hstill
      exact List.mem_append.mpr hstill
  | admitted => exact hpath.congr rfl rfl
  | rejected => exact hpath.ended rfl (.append (.refl _) (List.nil_sublist _))
  | answered hguard hhears =>
      have hat := hhears.at
      rename_i answer _
      have hsame := congrArg₂ (· ++ ·) hat.slots_held hat.ahead_eq
      cases answer with
      | taken =>
          refine hpath.congr hat.isUnderway (Eq.trans ?_ hsame.symm)
          show Hold.slots (_ ++ holdsOf _) ++ _ = _
          rw [Hold.slots_append_holdsOf, List.append_assoc]
          rfl
      | refused =>
          refine hpath.ended rfl (hsame ▸ ?_)
          exact .append (.refl _) (List.nil_sublist _)
      | mayWait latest => exact hpath.congr hat.isUnderway hsame.symm
      | queued ticket latest => exact hpath.congr hat.isUnderway hsame.symm
  | operated => exact hpath.congr rfl rfl
  | returned => exact hpath.ended rfl (.refl _)
  | aborted => exact hpath.ended rfl (List.nil_sublist _)
  | gaveBack =>
      exact hpath.ended rfl (.append ((List.sublist_cons_self ..).filterMap _) (.refl _))
  | settled =>
      unfold settle
      split
      · exact hpath.ended rfl (List.nil_sublist _)
      · split <;> exact hpath.ended rfl (List.nil_sublist _)
  | backedOff => exact .start ..

end Clearing
