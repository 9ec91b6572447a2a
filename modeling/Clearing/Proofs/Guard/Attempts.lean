import Clearing.Proofs.Guard.Deeds
import Clearing.Proofs.Guard.Effort
import Clearing.Rehearsal.Script

/-!
# The attempts of a guarded call

A guarded call is one attempt after the other.  In an attempt it passes the guards of its
path in order, does what it is for, and tells every breaker the outcome; or some guard
turns it away, and then the guards that were passed before hear that there is nothing to
tell and those behind hear nothing at all.  After an attempt that failed and is worth
another, the call rests as long as its policy says.

These are laws about the deeds of a call, whatever else happens at the guards between
two of them: `Passes` for the guards, `Attempted` for an attempt, `Tried` for those
before it, and `Stands` for a call at any moment.

## Strategy

`Standing` says where an attempt is in its course.  An action appends its deed, and the
new deeds again stand for where the attempt is (`Stands.act`).
-/

namespace Clearing

variable {σ ω α : Type}

theorem Failure.isRetryable_iff {failure : Failure} :
    failure.isRetryable ↔ failure.kind = .timeout ∨ failure.kind = .persistence := by
  simp [isRetryable]

/-! ## The laws -/

/-- The guards of a path are passed in order: the breaker of each admits the call, and its bulkhead
gives it a slot, perhaps not at once. -/
inductive Passes : List Nat → List (CallDeed α) → Prop
  | start : Passes [] []
  | next {path : List Nat} {deeds : List (CallDeed α)} (hpasses : Passes path deeds)
      (position waits : Nat) :
      Passes (path ++ [position])
        (deeds ++ .admitted position ::
          (List.replicate waits (.waits position) ++ [.passed position]))

/-- Every guard of a path is told the outcome, once, and gets its slot back. -/
def handBack (path : List Nat) (outcome : Outcome) : List (CallDeed α) :=
  path.flatMap fun position => [.told position outcome, .released position]

/-- An attempt and its result. -/
inductive Attempted (path : List Nat) (number : Nat) : List (CallDeed α) → Except Failure α → Prop
  /-- All guards let the call pass, and the operation ran. -/
  | ran {deeds : List (CallDeed α)} {result : Except Failure α} (hpasses : Passes path deeds)
      (steps : Nat) :
      Attempted path number
        (deeds ++ .began number :: (List.replicate steps .worked ++
          .ended result :: handBack path (.of result))) result
  /-- A breaker turned the call away. -/
  | rejected {before behind : List Nat} {position : Nat} {deeds : List (CallDeed α)}
      {failure : Failure} (hpath : before ++ position :: behind = path)
      (hpasses : Passes before deeds) (hkind : failure.kind = .circuitOpen) :
      Attempted path number
        (deeds ++ .rejected position failure :: handBack before .ignored) (.error failure)
  /-- A bulkhead turned the call away. -/
  | refused {before behind : List Nat} {position : Nat} {deeds : List (CallDeed α)}
      {failure : Failure} (hpath : before ++ position :: behind = path)
      (hpasses : Passes before deeds) (waits : Nat) (hkind : failure.kind = .bulkheadFull) :
      Attempted path number
        (deeds ++ .admitted position :: (List.replicate waits (.waits position) ++
          .refused position failure :: .told position .ignored :: handBack before .ignored))
        (.error failure)

variable (protection : Protection)

/-- The attempts before the one with a given number: each failed, was worth another and was
followed by a rest. -/
inductive Tried : Nat → List (CallDeed α) → Prop
  | start : Tried 1 []
  | again {number wakes : Nat} {earlier last : List (CallDeed α)} {failure : Failure}
      (htried : Tried number earlier)
      (hattempted : Attempted protection.path number last (.error failure))
      (hworth : failure.kind = .timeout ∨ failure.kind = .persistence)
      (hmore : number < protection.retry.maxAttempts) :
      Tried (number + 1) (earlier ++ last ++ [.rested number wakes, .woke wakes])

/-- The call is at the bulkhead of a guard. -/
inductive Phase.AtBulkhead (held : List Hold) (position : Nat) (ahead : List Nat) :
    Phase ω α → Prop
  | taking : AtBulkhead held position ahead (.taking held position ahead)
  | lining (latest : Nat) : AtBulkhead held position ahead (.lining held position ahead latest)
  | queued (ticket latest : Nat) :
      AtBulkhead held position ahead (.queued held position ahead ticket latest)

/-- What has been done in the current attempt, and where it stands. -/
inductive Standing (path : List Nat) (number : Nat) : List (CallDeed α) → Phase ω α → Prop
  | entering {before ahead : List Nat} {deeds : List (CallDeed α)} (hpath : before ++ ahead = path)
      (hpasses : Passes before deeds) :
      Standing path number deeds (.entering (before.flatMap GuardedCall.holdsOf) ahead)
  | asking {before ahead : List Nat} {position : Nat} {deeds : List (CallDeed α)} {phase : Phase ω α}
      (hpath : before ++ position :: ahead = path) (hpasses : Passes before deeds) (waits : Nat)
      (hat : phase.AtBulkhead (before.flatMap GuardedCall.holdsOf) position ahead) :
      Standing path number
        (deeds ++ .admitted position :: List.replicate waits (.waits position)) phase
  | operating {deeds : List (CallDeed α)} {state : ω} (hpasses : Passes path deeds) (steps : Nat) :
      Standing path number (deeds ++ .began number :: List.replicate steps .worked)
        (.operating (path.flatMap GuardedCall.holdsOf) state)
  | leaving {deeds : List (CallDeed α)} {outcome : Outcome} {held : List Hold}
      {result : Except Failure α}
      (hattempted : Attempted path number (deeds ++ held.map (.gaveBack outcome)) result) :
      Standing path number deeds (.leaving outcome held result)

/-- What a call has done, and where it stands: in an attempt, resting, or at its end. -/
inductive Stands : List (CallDeed α) → GuardedCall ω α → Prop
  | attempting {number : Nat} {earlier deeds : List (CallDeed α)} {phase : Phase ω α}
      (htried : Tried protection number earlier)
      (hstanding : Standing protection.path number deeds phase) :
      Stands (earlier ++ deeds) ⟨number, phase⟩
  | resting {number wakes : Nat} {earlier last : List (CallDeed α)} {failure : Failure}
      (htried : Tried protection number earlier)
      (hattempted : Attempted protection.path number last (.error failure))
      (hworth : failure.kind = .timeout ∨ failure.kind = .persistence)
      (hmore : number < protection.retry.maxAttempts) :
      Stands (earlier ++ last ++ [.rested number wakes]) ⟨number, .backingOff wakes⟩
  /-- The call returns the result of its last attempt, which is not worth another or has none left. -/
  | returned {number : Nat} {earlier last : List (CallDeed α)} {result : Except Failure α}
      (htried : Tried protection number earlier)
      (hattempted : Attempted protection.path number last result)
      (hlast : ∀ failure, result = .error failure →
        failure.kind = .timeout ∨ failure.kind = .persistence →
          number = protection.retry.maxAttempts) :
      Stands (earlier ++ last ++ [.finished]) ⟨number, .finished (.returned result)⟩
  | aborted {number : Nat} {earlier deeds : List (CallDeed α)} {cause : Abort}
      (htried : Tried protection number earlier) (hpasses : Passes protection.path deeds)
      (steps : Nat) :
      Stands (earlier ++ (deeds ++ .began number :: (List.replicate steps .worked ++
        [.aborted cause]))) ⟨number, .finished (.aborted cause)⟩

/-! ## Each action follows the laws -/

variable {protection}

theorem map_gaveBack_holdsOf (path : List Nat) (outcome : Outcome) :
    (path.flatMap GuardedCall.holdsOf).map (CallDeed.gaveBack outcome) =
      (handBack path outcome : List (CallDeed α)) :=
  List.map_flatMap

theorem Tried.number_le {number : Nat} {earlier : List (CallDeed α)}
    (htried : Tried protection number earlier) (hone : 1 ≤ protection.retry.maxAttempts) :
    number ≤ protection.retry.maxAttempts := by
  cases htried with
  | start => exact hone
  | again _ _ _ hmore => exact hmore

theorem Standing.start (path : List Nat) (number : Nat) :
    Standing path number [] (.entering [] path : Phase ω α) :=
  .entering (List.nil_append path) .start

/-- Who hears from a bulkhead has passed the guards before it. -/
theorem Phase.Hears.standing {path : List Nat} {number now position : Nat} {held : List Hold}
    {ahead : List Nat} {phase : Phase ω α} {bulkhead : Bulkhead}
    {answer : Bulkhead.SlotAnswer × Bulkhead} {deeds : List (CallDeed α)}
    (hhears : phase.Hears now held position ahead bulkhead answer)
    (hstanding : Standing path number deeds phase) :
    ∃ before earlier waits, held = before.flatMap GuardedCall.holdsOf ∧
      before ++ position :: ahead = path ∧ Passes before earlier ∧
        deeds = earlier ++ .admitted position :: List.replicate waits (.waits position) := by
  cases hhears <;> cases hstanding with
  | asking hpath hpasses waits hat =>
      cases hat
      exact ⟨_, _, waits, rfl, hpath, hpasses, rfl⟩

section Inversion

variable {path ahead : List Nat} {number : Nat} {deeds : List (CallDeed α)} {held : List Hold}
  {outcome : Outcome} {result : Except Failure α} {state : ω} {wakes : Nat}

theorem Standing.of_entering
    (hstanding : Standing path number deeds (.entering held ahead : Phase ω α)) :
    ∃ before, held = before.flatMap GuardedCall.holdsOf ∧ before ++ ahead = path ∧
      Passes before deeds := by
  cases hstanding with
  | entering hpath hpasses => exact ⟨_, rfl, hpath, hpasses⟩
  | asking _ _ _ hat => cases hat

theorem Standing.of_operating (hstanding : Standing path number deeds (.operating held state)) :
    ∃ earlier steps, held = path.flatMap GuardedCall.holdsOf ∧ Passes path earlier ∧
      deeds = earlier ++ .began number :: List.replicate steps .worked := by
  cases hstanding with
  | operating hpasses steps => exact ⟨_, steps, rfl, hpasses, rfl⟩
  | asking _ _ _ hat => cases hat

theorem Standing.of_leaving
    (hstanding : Standing path number deeds (.leaving outcome held result : Phase ω α)) :
    Attempted path number (deeds ++ held.map (.gaveBack outcome)) result := by
  cases hstanding with
  | leaving hattempted => exact hattempted
  | asking _ _ _ hat => cases hat

theorem Standing.not_backingOff
    (hstanding : Standing path number deeds (.backingOff wakes : Phase ω α)) : False := by
  cases hstanding with
  | asking _ _ _ hat => cases hat

end Inversion

/-- The guards ahead are on the path. -/
theorem Standing.mem_path {path : List Nat} {number position : Nat} {phase : Phase ω α}
    {deeds : List (CallDeed α)} (hstanding : Standing path number deeds phase)
    (hahead : position ∈ phase.ahead) : position ∈ path := by
  cases hstanding with
  | entering hpath => exact hpath ▸ List.mem_append_right _ hahead
  | asking hpath _ _ hat => cases hat <;> exact hpath ▸ List.mem_append_right _ hahead
  | operating => cases hahead
  | leaving => cases hahead

variable {operation : Operation σ ω α} {start : Nat → Nat → ω}

/-- The answer of a bulkhead leads on in the attempt, or out of it. -/
theorem Phase.Hears.standing_afterAnswer {path : List Nat} {number now position : Nat}
    {held : List Hold} {ahead : List Nat} {phase : Phase ω α} {guard : Guard}
    {answer : Bulkhead.SlotAnswer} {bulkhead : Bulkhead} {deeds : List (CallDeed α)}
    (hhears : phase.Hears now held position ahead guard.bulkhead (answer, bulkhead))
    (hstanding : Standing path number deeds phase) :
    Standing path number (deeds ++ [.ofAnswer position
        (afterAnswer held position ahead guard answer : Phase ω α)])
      (afterAnswer held position ahead guard answer : Phase ω α) := by
  obtain ⟨before, earlier, waits, rfl, hpath, hpasses, rfl⟩ := hhears.standing hstanding
  rw [List.append_assoc, List.cons_append]
  -- Still waiting means one more wait than before.
  have hwait : ∀ {later : Phase ω α},
      later.AtBulkhead (before.flatMap GuardedCall.holdsOf) position ahead →
      Standing path number (earlier ++ .admitted position ::
        (List.replicate waits (.waits position) ++ [.waits position])) later := by
    intro later hat
    rw [← List.replicate_succ']
    exact .asking hpath hpasses (waits + 1) hat
  cases answer with
  | taken =>
      have hheld : before.flatMap GuardedCall.holdsOf ++ GuardedCall.holdsOf position =
          (before ++ [position]).flatMap GuardedCall.holdsOf := by
        rw [List.flatMap_append, List.flatMap_singleton]
      show Standing path number _ (.entering (_ ++ GuardedCall.holdsOf position) ahead)
      rw [hheld]
      exact .entering (by rw [← hpath, List.append_assoc]; rfl) (.next hpasses position waits)
  | refused =>
      refine .leaving ?_
      rw [List.map_cons, map_gaveBack_holdsOf, List.append_assoc, List.cons_append,
        List.append_assoc]
      exact .refused hpath hpasses waits rfl
  | mayWait latest => exact hwait (.lining latest)
  | queued ticket latest => exact hwait (.queued ticket latest)

/-- After an attempt the call rests if the result is worth another, and else it is done. -/
theorem Stands.settled {number now : Nat} {earlier last : List (CallDeed α)} {outcome : Outcome}
    {result : Except Failure α} (htried : Tried protection number earlier)
    (hattempted : Attempted protection.path number last result)
    (hone : 1 ≤ protection.retry.maxAttempts) :
    let later : GuardedCall ω α :=
      GuardedCall.settle protection now ⟨number, .leaving outcome [] result⟩ result
    Stands protection
      (earlier ++ last ++ [.between number (.leaving outcome [] result) later.phase]) later := by
  unfold GuardedCall.settle
  split
  · exact .returned htried hattempted nofun
  · split
    · rename_i hmore
      exact .resting htried hattempted (Failure.isRetryable_iff.mp hmore.1) hmore.2
    · rename_i failure hdone
      refine .returned htried hattempted ?_
      rintro _ ⟨⟩ hworth
      have hnone : ¬number < protection.retry.maxAttempts := fun hless =>
        hdone ⟨Failure.isRetryable_iff.mpr hworth, hless⟩
      exact Nat.le_antisymm (htried.number_le hone) (Nat.le_of_not_lt hnone)

/-- **Each action of a call follows the laws.** -/
theorem Stands.act {now : Nat} {guards after : List Guard} {shared next : σ}
    {call later : GuardedCall ω α} {deeds : List (CallDeed α)} (hstands : Stands protection deeds call)
    (hact : GuardedCall.Act protection operation start now (guards, shared, call)
      (after, next, later))
    (hone : 1 ≤ protection.retry.maxAttempts)
    (hexists : ∀ position ∈ protection.path, position < guards.length) :
    Stands protection (deeds ++ [.between call.attempt call.phase later.phase]) later := by
  cases hstands with
  | resting htried hattempted hworth hmore =>
      cases hact with
      | skip hat => cases hat
      | answered _ hhears => cases hhears
      | backedOff hwakes =>
          rw [List.append_assoc, ← List.append_nil (_ ++ _)]
          exact .attempting (.again htried hattempted hworth hmore) (.start ..)
  | returned =>
      cases hact with
      | skip hat => cases hat
      | answered _ hhears => cases hhears
  | aborted =>
      cases hact with
      | skip hat => cases hat
      | answered _ hhears => cases hhears
  | attempting htried hstanding =>
      rename_i number earlier deeds phase
      rw [List.append_assoc]
      cases hact with
      | begin =>
          obtain ⟨before, rfl, hpath, hpasses⟩ := hstanding.of_entering
          rw [List.append_nil] at hpath
          subst hpath
          exact .attempting htried (.operating hpasses 0)
      | skip hat hmissing =>
          have hmem := hstanding.mem_path (hat.ahead_eq ▸ List.mem_cons_self)
          exact absurd (List.getElem?_eq_none_iff.mp hmissing) (Nat.not_le_of_lt (hexists _ hmem))
      | admitted =>
          obtain ⟨before, rfl, hpath, hpasses⟩ := hstanding.of_entering
          exact .attempting htried (.asking hpath hpasses 0 .taking)
      | rejected =>
          obtain ⟨before, rfl, hpath, hpasses⟩ := hstanding.of_entering
          refine .attempting htried (.leaving ?_)
          rw [map_gaveBack_holdsOf, List.append_assoc]
          exact .rejected hpath hpasses rfl
      | answered _ hhears =>
          rw [hhears.between]
          exact .attempting htried (hhears.standing_afterAnswer hstanding)
      | operated =>
          obtain ⟨begun, steps, rfl, hpasses, rfl⟩ := hstanding.of_operating
          refine .attempting htried ?_
          rw [List.append_assoc, List.cons_append]
          show Standing _ _ (_ ++ _ :: (List.replicate steps .worked ++ [.worked])) _
          rw [← List.replicate_succ']
          exact .operating hpasses (steps + 1)
      | returned =>
          obtain ⟨begun, steps, rfl, hpasses, rfl⟩ := hstanding.of_operating
          refine .attempting htried (.leaving ?_)
          rw [map_gaveBack_holdsOf, List.append_assoc, List.append_assoc, List.cons_append]
          exact .ran hpasses steps
      | aborted =>
          obtain ⟨begun, steps, rfl, hpasses, rfl⟩ := hstanding.of_operating
          rw [List.append_assoc, List.cons_append]
          exact .aborted htried hpasses steps
      | gaveBack =>
          refine .attempting htried (.leaving ?_)
          rw [List.append_assoc]
          exact hstanding.of_leaving
      | settled =>
          have hattempted := hstanding.of_leaving
          rw [List.map_nil, List.append_nil] at hattempted
          rw [← List.append_assoc]
          exact .settled htried hattempted hone
      | backedOff => exact hstanding.not_backingOff.elim

/-- A call that was cut short is where it was. -/
theorem Stands.cut {call later : GuardedCall ω α} {deeds : List (CallDeed α)}
    {chosen : Deadline → Bool} (hstands : Stands protection deeds call)
    (hcut : call.cut? operation chosen = some later) : Stands protection deeds later := by
  obtain ⟨attempt, phase⟩ := call
  cases phase with
  | operating held state =>
      obtain ⟨other, -, rfl⟩ := Option.map_eq_some_iff.mp hcut
      cases hstands with
      | attempting htried hstanding =>
          obtain ⟨begun, steps, rfl, hpasses, rfl⟩ := hstanding.of_operating
          exact .attempting htried (.operating hpasses steps)
  | _ => cases hcut

/-! ## Whole calls -/

/-- A chance for a call to act, with what it finds then, or for a deadline to cut its operation
short. -/
inductive Occasion (σ : Type) where
  | act (now : Nat) (guards : List Guard) (shared : σ)
  | cut (chosen : Deadline → Bool)

/-- The guards of a path exist. -/
def Occasion.offers (path : List Nat) : Occasion σ → Bool
  | .act _ guards _ => path.all (· < guards.length)
  | .cut _ => true

namespace GuardedCall

/-- The turns that a call takes on some occasions, and the call after that.  It lets those pass on
which it cannot act. -/
def follow (protection : Protection) (operation : Operation σ ω α) (start : Nat → Nat → ω) :
    GuardedCall ω α → List (Occasion σ) → List (CallTurn σ ω α) × GuardedCall ω α
  | call, [] => ([], call)
  | call, .act now guards shared :: rest =>
    match call.step? protection operation start now guards shared with
    | none => follow protection operation start call rest
    | some (after, next, later) =>
      let (turns, last) := follow protection operation start later rest
      ({ now, guards, shared, call, after, next, later } :: turns, last)
  | call, .cut chosen :: rest =>
    follow protection operation start ((call.cut? operation chosen).getD call) rest

/-- A call keeps to its policy and its path. -/
structure Lawful (protection : Protection) (operation : Operation σ ω α) (start : Nat → Nat → ω)
    (turns : List (CallTurn σ ω α)) (call : GuardedCall ω α) : Prop where
  /-- Every turn is what its deed says. -/
  effects : ∀ turn ∈ turns, turn.deed.Effect protection operation start turn
  /-- The deeds are attempts and rests as the laws want them. -/
  stands : Stands protection (turns.map CallTurn.deed) call
  /-- The number of attempts stays within the limit. -/
  attempt_le : call.attempt ≤ protection.retry.maxAttempts
  /-- Unless the call is done, it can act from some time on, whatever the guards are like then. -/
  goesOn : call.ending? = none → ∃ due, ∀ now guards shared, due ≤ now →
    (call.step? protection operation start now guards shared).isSome

end GuardedCall

theorem Stands.attempt_le {call : GuardedCall ω α} {deeds : List (CallDeed α)}
    (hstands : Stands protection deeds call) (hone : 1 ≤ protection.retry.maxAttempts) :
    call.attempt ≤ protection.retry.maxAttempts := by
  cases hstands with
  | attempting htried => exact htried.number_le hone
  | resting htried => exact htried.number_le hone
  | returned htried => exact htried.number_le hone
  | aborted htried => exact htried.number_le hone

/-- A call that rests has an attempt left. -/
theorem Stands.attempt_lt {call : GuardedCall ω α} {deeds : List (CallDeed α)} {wakes : Nat}
    (hstands : Stands protection deeds call) (hphase : call.phase = .backingOff wakes) :
    call.attempt < protection.retry.maxAttempts := by
  cases hstands with
  | attempting _ hstanding =>
      obtain rfl : _ = Phase.backingOff wakes := hphase
      exact hstanding.not_backingOff.elim
  | resting _ _ _ hmore => exact hmore
  | returned => cases hphase
  | aborted => cases hphase

theorem Stands.mem_path {call : GuardedCall ω α} {deeds : List (CallDeed α)} {position : Nat}
    (hstands : Stands protection deeds call) (hahead : position ∈ call.phase.ahead) :
    position ∈ protection.path := by
  cases hstands with
  | attempting _ hstanding => exact hstanding.mem_path hahead
  | resting => cases hahead
  | returned => cases hahead
  | aborted => cases hahead

namespace GuardedCall

/-- Whatever a call does, it follows the laws. -/
theorem stands_follow (operation : Operation σ ω α) (start : Nat → Nat → ω)
    {call : GuardedCall ω α} {deeds : List (CallDeed α)}
    {occasions : List (Occasion σ)} (hstands : Stands protection deeds call)
    (hone : 1 ≤ protection.retry.maxAttempts)
    (hoffers : ∀ occasion ∈ occasions, occasion.offers protection.path) :
    (∀ turn ∈ (call.follow protection operation start occasions).1,
      turn.deed.Effect protection operation start turn) ∧
    Stands protection
      (deeds ++ (call.follow protection operation start occasions).1.map CallTurn.deed)
      (call.follow protection operation start occasions).2 := by
  induction occasions generalizing call deeds with
  | nil => simpa [follow] using hstands
  | cons occasion rest ih =>
      have hrest : ∀ occasion ∈ rest, occasion.offers protection.path := fun other hother =>
        hoffers other (List.mem_cons_of_mem _ hother)
      cases occasion with
      | cut chosen =>
          refine ih ?_ hrest
          cases hcut : call.cut? operation chosen with
          | none => exact hstands
          | some later => exact hstands.cut hcut
      | act now guards shared =>
          simp only [follow]
          split
          · exact ih hstands hrest
          · rename_i after next later hstep
            have hexists : ∀ position ∈ protection.path, position < guards.length := by
              simpa [Occasion.offers] using hoffers _ List.mem_cons_self
            have hact := act_of_step? hstep
            obtain ⟨heffects, hlater⟩ := ih (hstands.act hact hone hexists) hrest
            constructor
            · intro turn hturn
              rcases List.mem_cons.mp hturn with rfl | hturn
              · exact effect_of_act hact fun position hahead =>
                  hexists position (hstands.mem_path hahead)
              · exact heffects turn hturn
            · rw [List.append_assoc] at hlater
              exact hlater

/-- Turns lessen what is left of a call. -/
theorem length_follow_add_effort_le (operation : Operation σ ω α) (start : Nat → Nat → ω)
    (bound : Nat) {call : GuardedCall ω α}
    {deeds : List (CallDeed α)} {occasions : List (Occasion σ)}
    (hstands : Stands protection deeds call) (hone : 1 ≤ protection.retry.maxAttempts)
    (hoffers : ∀ occasion ∈ occasions, occasion.offers protection.path)
    (hdwindles : operation.Dwindles)
    (hbound : ∀ now attempt, operation.effort (start now attempt) ≤ bound) :
    (call.follow protection operation start occasions).1.length +
        (call.follow protection operation start occasions).2.effort protection operation bound ≤
      call.effort protection operation bound := by
  induction occasions generalizing call deeds with
  | nil => simp [follow]
  | cons occasion rest ih =>
      have hrest : ∀ occasion ∈ rest, occasion.offers protection.path := fun other hother =>
        hoffers other (List.mem_cons_of_mem _ hother)
      cases occasion with
      | cut chosen =>
          simp only [follow]
          cases hcut : call.cut? operation chosen with
          | none => exact ih hstands hrest
          | some later =>
              have hless := ih (hstands.cut hcut) hrest
              exact Nat.le_trans hless (effort_cut?_le hdwindles hcut)
      | act now guards shared =>
          simp only [follow]
          split
          · exact ih hstands hrest
          · rename_i after next later hstep
            have hexists : ∀ position ∈ protection.path, position < guards.length := by
              simpa [Occasion.offers] using hoffers _ List.mem_cons_self
            have hact := act_of_step? hstep
            have hlater := ih (hstands.act hact hone hexists) hrest
            have hless := hact.effort_lt hdwindles hbound fun wakes hphase =>
              hstands.attempt_lt hphase
            simp only [List.length_cons]
            omega

/-- **A guarded call of an operation under a deadline is lawful**, whatever it finds at the guards
each time it acts, and it ends after only so many actions if its operation does. -/
theorem lawful_follow (inner : Operation σ ω α) (stage : String) (limitMillis : Nat)
    (begin : Nat → Nat → ω) (retry : RetrySettings) (path : List Nat)
    (occasions : List (Occasion σ)) (hoffers : ∀ occasion ∈ occasions, occasion.offers path) :
    let protection : Protection := { path, retry := .ofSettings retry }
    let operation := inner.timed stage limitMillis
    let start := fun now attempt => Timed.start now limitMillis (begin now attempt)
    let course := (new protection).follow protection operation start occasions
    Lawful protection operation start course.1 course.2 ∧
      -- The operation ends with its own result, or the deadline has elapsed and it failed.
      (∀ turn ∈ course.1, ∀ result, turn.deed = .ended result → ∃ held timed,
        turn.call.phase = .operating held timed ∧
          if timed.elapsed then
            result = .error (.timeout stage (.ofMillis limitMillis)) ∧ Outcome.of result = .failure
          else inner.ending? timed.state = some (.returned result)) ∧
      (inner.Dwindles → ∀ bound, (∀ now attempt, inner.effort (begin now attempt) ≤ bound) →
        course.1.length ≤ max retry.maxAttempts 1 * (bound + 7 * path.length + 7)) := by
  intro protection operation start course
  have hone : 1 ≤ protection.retry.maxAttempts := Nat.le_max_right ..
  have hnew : Stands protection [] (new protection : GuardedCall (Timed ω) α) :=
    .attempting .start (.start ..)
  obtain ⟨heffects, hstands⟩ :=
    stands_follow operation start hnew hone hoffers
  rw [List.nil_append] at hstands
  refine ⟨⟨heffects, hstands, hstands.attempt_le hone, ?_⟩, ?_, ?_⟩
  · exact acts_of_wakes (Operation.wakes_timed inner stage limitMillis)
  · intro turn hturn result hdeed
    have heffect := heffects turn hturn
    rw [hdeed] at heffect
    obtain ⟨-, -, held, timed, hphase, -, hending⟩ := heffect
    refine ⟨held, timed, hphase, ?_⟩
    simp only [operation, Operation.timed] at hending
    split at hending
    · rename_i helapsed
      rw [if_pos helapsed]
      cases hending
      exact ⟨rfl, rfl⟩
    · rename_i hrunning
      rw [if_neg hrunning]
      exact hending
  · intro hdwindles bound hbound
    have hless := length_follow_add_effort_le operation start (bound + 1) hnew hone hoffers
      (hdwindles.timed ..) fun now attempt => Nat.succ_le_succ (hbound now attempt)
    have hall := effort_new_le operation (bound + 1) hone
    calc course.1.length
        ≤ (new protection : GuardedCall (Timed ω) α).effort protection operation (bound + 1) :=
          Nat.le_trans (Nat.le_add_right ..) hless
      _ ≤ protection.retry.maxAttempts * (bound + 1 + 7 * path.length + 6) := hall
      _ = max retry.maxAttempts 1 * (bound + 7 * path.length + 7) := by
          rw [Nat.add_right_comm bound 1]
          rfl

/-- The occasions of a call at some times, when it has the guards and all else to itself. -/
def aloneAt (protection : Protection) (operation : Operation σ ω α) (start : Nat → Nat → ω) :
    List Nat → List Guard → σ → GuardedCall ω α → List (Occasion σ)
  | [], _, _, _ => []
  | now :: times, guards, shared, call =>
    .act now guards shared ::
      match call.step? protection operation start now guards shared with
      | none => aloneAt protection operation start times guards shared call
      | some (guards, shared, call) => aloneAt protection operation start times guards shared call

/-- An operation that takes too long the first time and ends at once the second time. -/
def slowOnce : Operation Starts ScriptState Nat :=
  Script.operation 0 [⟨[50], .ok ()⟩, ⟨[], .ok ()⟩]

/-- Three attempts at most, the second after ten milliseconds. -/
def patient : RetrySettings :=
  ⟨3, 10, .ofNat 2, 1000⟩

/-- The occasions of a call that has two guards to itself. -/
def slowOnceOccasions : List (Occasion Starts) :=
  let protection : Protection := { path := [1, 0], retry := .ofSettings patient }
  let breaker : BreakerSettings := ⟨2, 2, .ofNat 100, 1000, 1⟩
  aloneAt protection (slowOnce.timed "process" 20) (fun now _ => Timed.start now 20 .starting)
    (List.replicate 6 0 ++ List.replicate 7 20 ++ List.replicate 13 30)
    [.new "global" breaker ⟨1, 0⟩, .new "text" breaker ⟨1, 0⟩] [] (.new protection)

theorem lawful_follow_slowOnce :
    (∀ occasion ∈ slowOnceOccasions, occasion.offers [1, 0]) ∧
      let protection : Protection := { path := [1, 0], retry := .ofSettings patient }
      let operation := slowOnce.timed "process" 20
      let start := fun now _ => Timed.start now 20 .starting
      let course := (new protection).follow protection operation start slowOnceOccasions
      Lawful protection operation start course.1 course.2 ∧
        course.1.map CallTurn.deed =
          [.admitted 1, .passed 1, .admitted 0, .passed 0, .began 1, .worked, .worked,
            .ended (.error (.timeout "process" (.ofMillis 20))), .told 1 .failure, .released 1,
            .told 0 .failure, .released 0, .rested 1 30, .woke 30,
            .admitted 1, .passed 1, .admitted 0, .passed 0, .began 2, .worked, .ended (.ok 2),
            .told 1 .success, .released 1, .told 0 .success, .released 0, .finished] ∧
        course.2.attempt = 2 := by
  have hoffers : ∀ occasion ∈ slowOnceOccasions, occasion.offers [1, 0] := by decide +kernel
  refine ⟨hoffers, ?_, ?_, ?_⟩
  · exact (lawful_follow slowOnce "process" 20 (fun _ _ => .starting) patient [1, 0]
      slowOnceOccasions hoffers).1
  · decide +kernel
  · decide +kernel

end GuardedCall

end Clearing
