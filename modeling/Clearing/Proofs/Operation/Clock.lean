import Mathlib.Logic.Relation
import Clearing.Operation.Deadline
import Clearing.Operation.Look

/-!
# Operations that have the clock to themselves

If nobody else moves, an operation makes its steps at the time that it is; when it has none
the clock moves to the earliest of its alarms (`Operation.Advances`).  What it comes to, and
when, is settled from the start (`Operation.ComesTo.unique`).  A schedule runs a task in this
way if it is the only one (`Schedule.Solitary.run_of_comesTo`).

Under a deadline an operation gets as far as it does without one, up to the end of its time
and including it (`Operation.Reaches.timed`).  If it is still waiting then, for something
that is later, it is cut short at the end of its time and not before
(`Operation.Idle.elapses`).  An operation takes along another one of which it is a part, to its
end (`Operation.Hosts`) or up to its last step (`Operation.Carries`).
-/

namespace Clearing

/-- The state of an operation and what it works on, at some time. -/
structure Solo (σ ω : Type) where
  now : Nat
  shared : σ
  state : ω

variable {σ τ ω ψ α β : Type}

/-- The same time for an operation on something else, with another kind of states. -/
def Solo.map (lift : σ → τ) (embed : ω → ψ) (solo : Solo σ ω) : Solo τ ψ :=
  ⟨solo.now, lift solo.shared, embed solo.state⟩

/-- The operation under a deadline that has not elapsed. -/
abbrev Solo.timed (solo : Solo σ ω) (latest : Nat) : Solo σ (Timed ω) :=
  ⟨solo.now, solo.shared, ⟨solo.state, latest, false⟩⟩

namespace Operation

variable {operation : Operation σ ω α}

/-- The earliest time at which an alarm of the operation rings. -/
structure IsNextDue (operation : Operation σ ω α) (state : ω) (due : Nat) : Prop where
  rings : ∃ alarm ∈ operation.alarms state, alarm.due = due
  earliest : ∀ alarm ∈ operation.alarms state, due ≤ alarm.due

theorem IsNextDue.unique {state : ω} {due other : Nat} (hdue : operation.IsNextDue state due)
    (hother : operation.IsNextDue state other) : due = other := by
  obtain ⟨alarm, halarm, rfl⟩ := hdue.rings
  obtain ⟨second, hsecond, rfl⟩ := hother.rings
  exact Nat.le_antisymm (hdue.earliest second hsecond) (hother.earliest alarm halarm)

/-- What an operation does while nobody else moves. -/
inductive Advances (operation : Operation σ ω α) : Solo σ ω → Solo σ ω → Prop
  /-- It makes its step. -/
  | acts {now : Nat} {shared next : σ} {state later : ω}
      (hstep : operation.step? now shared state = some (next, later)) :
      Advances operation ⟨now, shared, state⟩ ⟨now, next, later⟩
  /-- It has no step and has not ended: the clock moves. -/
  | waits {now due : Nat} {shared : σ} {state : ω}
      (hstep : operation.step? now shared state = none)
      (hending : operation.ending? state = none) (hdue : operation.IsNextDue state due)
      (hlater : now < due) : Advances operation ⟨now, shared, state⟩ ⟨due, shared, state⟩

/-- Some time passes in this way. -/
abbrev Reaches (operation : Operation σ ω α) : Solo σ ω → Solo σ ω → Prop :=
  Relation.ReflTransGen operation.Advances

variable {before after : Solo σ ω}

theorem alarms_of_wait {state : ω} {due : Nat} (hwait : operation.wait? state = some (.time due))
    (hdeadlines : operation.deadlines state = []) : operation.alarms state = [.wait due] := by
  simp [alarms, deadlineAlarms, hwait, hdeadlines, Wait.alarm?]

/-- An operation that waits for a time, with no deadline running, gets to that time. -/
theorem advances_of_wait {now due : Nat} {shared : σ} {state : ω}
    (hwait : operation.wait? state = some (.time due))
    (hdeadlines : operation.deadlines state = [])
    (hstep : operation.step? now shared state = none)
    (hending : operation.ending? state = none) (hlater : now < due) :
    operation.Advances ⟨now, shared, state⟩ ⟨due, shared, state⟩ := by
  have halarms := alarms_of_wait hwait hdeadlines
  refine .waits hstep hending ⟨?_, ?_⟩ hlater
  · exact ⟨.wait due, halarms ▸ List.mem_singleton_self _, rfl⟩
  · intro alarm halarm
    rw [halarms] at halarm
    rw [List.mem_singleton.mp halarm]
    exact Nat.le_refl due

theorem Advances.now_le (hadvances : operation.Advances before after) :
    before.now ≤ after.now := by
  cases hadvances with
  | acts hstep => exact Nat.le_refl _
  | waits hstep hending hdue hlater => exact Nat.le_of_lt hlater

theorem Reaches.now_le (hreaches : operation.Reaches before after) : before.now ≤ after.now := by
  induction hreaches with
  | refl => exact Nat.le_refl _
  | tail _ hlast ih => exact Nat.le_trans ih hlast.now_le

theorem advances_rightUnique (operation : Operation σ ω α) :
    Relator.RightUnique operation.Advances := by
  intro before after other hafter hother
  cases hafter with
  | acts hstep =>
      cases hother with
      | acts hsame =>
          rw [hstep, Option.some.injEq, Prod.mk.injEq] at hsame
          rw [hsame.1, hsame.2]
      | waits hnone =>
          rw [hstep] at hnone
          cases hnone
  | waits hnone _ hdue =>
      cases hother with
      | acts hstep =>
          rw [hnone] at hstep
          cases hstep
      | waits _ _ hsame => rw [hdue.unique hsame]

/-- The operation ends, with what it works on in some state and at some time. -/
def ComesTo (operation : Operation σ ω α) (start : Solo σ ω) (ending : Ending α) (time : Nat)
    (shared : σ) : Prop :=
  ∃ state, operation.Reaches start ⟨time, shared, state⟩ ∧
    operation.ending? state = some ending ∧ operation.step? time shared state = none

/-- **What an operation comes to, and when, is settled from the start.** -/
theorem ComesTo.unique {start : Solo σ ω} {ending other : Ending α} {time moment : Nat}
    {shared changed : σ} (hfirst : operation.ComesTo start ending time shared)
    (hsecond : operation.ComesTo start other moment changed) :
    ending = other ∧ time = moment ∧ shared = changed := by
  have hstuck {time : Nat} {shared : σ} {state : ω} {ending : Ending α} {point : Solo σ ω}
      (hending : operation.ending? state = some ending)
      (hstep : operation.step? time shared state = none)
      (hreaches : operation.Reaches ⟨time, shared, state⟩ point) :
      point = ⟨time, shared, state⟩ := by
    rcases Relation.ReflTransGen.cases_head hreaches with hsame | ⟨next, hnext, -⟩
    · exact hsame.symm
    · cases hnext with
      | acts hsome =>
          rw [hstep] at hsome
          cases hsome
      | waits _ hnone =>
          rw [hending] at hnone
          cases hnone
  obtain ⟨state, hreaches, hending, hstep⟩ := hfirst
  obtain ⟨final, harrives, hends, hstays⟩ := hsecond
  have hsame : (⟨time, shared, state⟩ : Solo σ ω) = ⟨moment, changed, final⟩ := by
    rcases Relation.ReflTransGen.total_of_right_unique operation.advances_rightUnique hreaches
      harrives with hgoes | hgoes
    · exact (hstuck hending hstep hgoes).symm
    · exact hstuck hends hstays hgoes
  cases hsame
  rw [hending, Option.some.injEq] at hends
  exact ⟨hends, rfl, rfl⟩

/-- What an operation comes to it still comes to after its first move. -/
theorem ComesTo.of_advances {ending : Ending α} {time : Nat} {shared : σ}
    (hcomes : operation.ComesTo before ending time shared)
    (hadvances : operation.Advances before after) : operation.ComesTo after ending time shared := by
  obtain ⟨state, hreaches, hending, hstep⟩ := hcomes
  rcases Relation.ReflTransGen.cases_head hreaches with rfl | ⟨next, hnext, hrest⟩
  · cases hadvances with
    | acts hsome =>
        rw [hstep] at hsome
        cases hsome
    | waits _ hnone =>
        rw [hending] at hnone
        cases hnone
  · rw [operation.advances_rightUnique hadvances hnext]
    exact ⟨state, hrest, hending, hstep⟩

/-- If it has no step and has not ended, then its next move is to wait. -/
theorem ComesTo.exists_due {now : Nat} {world : σ} {state : ω} {ending : Ending α} {time : Nat}
    {shared : σ} (hcomes : operation.ComesTo ⟨now, world, state⟩ ending time shared)
    (hstep : operation.step? now world state = none) (hending : operation.ending? state = none) :
    ∃ due, operation.IsNextDue state due ∧ now < due ∧
      operation.ComesTo ⟨due, world, state⟩ ending time shared := by
  obtain ⟨final, hreaches, hended, hstuck⟩ := hcomes
  rcases Relation.ReflTransGen.cases_head hreaches with hsame | ⟨next, hnext, hrest⟩
  · cases hsame
    rw [hending] at hended
    cases hended
  · cases hnext with
    | acts hsome =>
        rw [hstep] at hsome
        cases hsome
    | waits _ _ hdue hlater => exact ⟨_, hdue, hlater, final, hrest, hended, hstuck⟩

/-! ## Deadlines -/

variable {stage : String} {limitMillis latest : Nat} {state : ω} {shared : σ}

theorem alarms_timed (operation : Operation σ ω α) (stage : String) (limitMillis : Nat)
    (state : ω) (latest : Nat) :
    (operation.timed stage limitMillis).alarms ⟨state, latest, false⟩ =
      operation.alarms state ++ [.deadline ⟨stage, latest⟩] := by
  simp [alarms, deadlineAlarms, timed]

theorem timed_step?_eq_none {now : Nat} (hstep : operation.step? now shared state = none)
    (hnow : operation.ending? state = none → now < latest) :
    (operation.timed stage limitMillis).step? now shared ⟨state, latest, false⟩ = none := by
  have hover : ¬((operation.ending? state).isNone = true ∧ latest ≤ now) := by
    rintro ⟨hnone, hle⟩
    exact absurd (hnow (Option.isNone_iff_eq_none.mp hnone)) (Nat.not_lt_of_le hle)
  simp only [timed, Bool.false_eq_true, if_false, hstep, if_neg hover]

theorem Advances.timed (hadvances : operation.Advances before after)
    (htime : after.now ≤ latest) :
    (operation.timed stage limitMillis).Advances (before.timed latest) (after.timed latest) := by
  cases hadvances with
  | acts hstep => exact .acts (timed_step?_of_step? operation stage limitMillis rfl hstep)
  | waits hstep hending hdue hlater =>
      refine .waits (timed_step?_eq_none hstep fun _ => Nat.lt_of_lt_of_le hlater htime) hending
        ⟨?_, ?_⟩ hlater
      · obtain ⟨alarm, halarm, hrings⟩ := hdue.rings
        rw [alarms_timed]
        exact ⟨alarm, List.mem_append_left _ halarm, hrings⟩
      · intro alarm halarm
        rw [alarms_timed] at halarm
        rcases List.mem_append.mp halarm with hinner | hown
        · exact hdue.earliest alarm hinner
        · rw [List.mem_singleton.mp hown]
          exact htime

/-- **Until its time is over an operation does not notice its deadline.** -/
theorem Reaches.timed (hreaches : operation.Reaches before after) (htime : after.now ≤ latest) :
    (operation.timed stage limitMillis).Reaches (before.timed latest) (after.timed latest) := by
  induction hreaches with
  | refl => exact .refl
  | tail _ hlast ih =>
      exact (ih (Nat.le_trans hlast.now_le htime)).tail (hlast.timed htime)

/-- Up to a time and including it the operation can only wait, and for something later. -/
structure Idle (operation : Operation σ ω α) (latest : Nat) (shared : σ) (state : ω) : Prop where
  running : operation.ending? state = none
  still : ∀ now ≤ latest, operation.step? now shared state = none
  later : ∀ alarm ∈ operation.alarms state, latest < alarm.due

/-- **An operation that is still waiting when its time is over is cut short, and not before.** -/
theorem Idle.elapses (hidle : operation.Idle latest shared state) {now : Nat}
    (hnow : now ≤ latest) (stage : String) (limitMillis : Nat) :
    (operation.timed stage limitMillis).Reaches ⟨now, shared, ⟨state, latest, false⟩⟩
      ⟨latest, shared, ⟨state, latest, true⟩⟩ := by
  have hcut : (operation.timed stage limitMillis).Advances
      ⟨latest, shared, ⟨state, latest, false⟩⟩ ⟨latest, shared, ⟨state, latest, true⟩⟩ := by
    apply Advances.acts
    simp [Operation.timed, hidle.still latest (Nat.le_refl _), hidle.running]
  rcases Nat.eq_or_lt_of_le hnow with rfl | hlt
  · exact .single hcut
  · have hwait : (operation.timed stage limitMillis).Advances
        ⟨now, shared, ⟨state, latest, false⟩⟩ ⟨latest, shared, ⟨state, latest, false⟩⟩ := by
      refine .waits (timed_step?_eq_none (hidle.still now hnow) fun _ => hlt) hidle.running
        ⟨?_, ?_⟩ hlt
      · rw [alarms_timed]
        exact ⟨_, List.mem_append_right _ List.mem_cons_self, rfl⟩
      · intro alarm halarm
        rw [alarms_timed] at halarm
        rcases List.mem_append.mp halarm with hinner | hown
        · exact Nat.le_of_lt (hidle.later alarm hinner)
        · rw [List.mem_singleton.mp hown]
          exact Nat.le_refl _
    exact .head hwait (.single hcut)

/-- An operation stays idle under a deadline that is later still. -/
theorem Idle.timed (hidle : operation.Idle latest shared state) {own : Nat} (hown : latest < own)
    (stage : String) (limitMillis : Nat) :
    (operation.timed stage limitMillis).Idle latest shared ⟨state, own, false⟩ where
  running := hidle.running
  still now hnow := timed_step?_eq_none (hidle.still now hnow) fun _ => Nat.lt_of_le_of_lt hnow hown
  later alarm halarm := by
    rw [alarms_timed] at halarm
    rcases List.mem_append.mp halarm with hinner | hdeadline
    · exact hidle.later alarm hinner
    · rw [List.mem_singleton.mp hdeadline]
      exact hown

/-! ## Operations inside others -/

/-- While a part of the operation waits, the operation waits for the same. -/
structure Follows (whole : Operation τ ψ β) (part : Operation σ ω α) (lift : σ → τ)
    (embed : ω → ψ) : Prop where
  still {now : Nat} {shared : σ} {state : ω} (hstep : part.step? now shared state = none)
    (hending : part.ending? state = none) : whole.step? now (lift shared) (embed state) = none
  running {state : ω} (hending : part.ending? state = none) : whole.ending? (embed state) = none
  alarms (state : ω) : whole.alarms (embed state) = part.alarms state

/-- Until a part of the operation ends, the operation does what the part does. -/
structure Carries (whole : Operation τ ψ β) (part : Operation σ ω α) (lift : σ → τ)
    (embed : ω → ψ) : Prop extends whole.Follows part lift embed where
  step {now : Nat} {shared next : σ} {state later : ω}
    (hstep : part.step? now shared state = some (next, later))
    (hrunning : part.ending? later = none) :
    whole.step? now (lift shared) (embed state) = some (lift next, embed later)

/-- The operation does what the part does, to its end. -/
structure Hosts (whole : Operation τ ψ β) (part : Operation σ ω α) (lift : σ → τ)
    (embed : ω → ψ) : Prop extends whole.Follows part lift embed where
  step {now : Nat} {shared next : σ} {state later : ω}
    (hstep : part.step? now shared state = some (next, later)) :
    whole.step? now (lift shared) (embed state) = some (lift next, embed later)

/-- An operation that has ended makes no steps. -/
def Stops (operation : Operation σ ω α) : Prop :=
  ∀ {now : Nat} {shared : σ} {state : ω} {ending : Ending α},
    operation.ending? state = some ending → operation.step? now shared state = none

theorem Advances.running (hstops : operation.Stops) (hadvances : operation.Advances before after) :
    operation.ending? before.state = none := by
  cases hadvances with
  | @acts now shared _ state _ hstep =>
      cases hending : operation.ending? state with
      | none => rfl
      | some ending =>
          rw [hstops hending] at hstep
          cases hstep
  | waits _ hending => exact hending

section Parts

variable {whole : Operation τ ψ β} {part : Operation σ ω α} {lift : σ → τ} {embed : ω → ψ}

theorem Follows.waits (hfollows : whole.Follows part lift embed) {now due : Nat}
    (hstep : part.step? now shared state = none) (hending : part.ending? state = none)
    (hdue : part.IsNextDue state due) (hlater : now < due) :
    whole.Advances ⟨now, lift shared, embed state⟩ ⟨due, lift shared, embed state⟩ := by
  refine .waits (hfollows.still hstep hending) (hfollows.running hending) ⟨?_, ?_⟩ hlater
  · rw [hfollows.alarms]
    exact hdue.rings
  · rw [hfollows.alarms]
    exact hdue.earliest

theorem Follows.idle (hfollows : whole.Follows part lift embed)
    (hidle : part.Idle latest shared state) : whole.Idle latest (lift shared) (embed state) where
  running := hfollows.running hidle.running
  still now hnow := hfollows.still (hidle.still now hnow) hidle.running
  later := by
    rw [hfollows.alarms]
    exact hidle.later

theorem Carries.advances (hcarries : whole.Carries part lift embed)
    (hadvances : part.Advances before after) (hrunning : part.ending? after.state = none) :
    whole.Advances (before.map lift embed) (after.map lift embed) := by
  cases hadvances with
  | acts hstep => exact .acts (hcarries.step hstep hrunning)
  | waits hstep hending hdue hlater => exact hcarries.waits hstep hending hdue hlater

theorem Carries.reaches (hcarries : whole.Carries part lift embed) (hstops : part.Stops)
    (hreaches : part.Reaches before after) (hrunning : part.ending? after.state = none) :
    whole.Reaches (before.map lift embed) (after.map lift embed) := by
  induction hreaches with
  | refl => exact .refl
  | tail _ hlast ih => exact (ih (hlast.running hstops)).tail (hcarries.advances hlast hrunning)

/-- A part that ends does so with a step, before which the operation has come along. -/
theorem Carries.exists_last (hcarries : whole.Carries part lift embed) (hstops : part.Stops)
    (hreaches : part.Reaches before after) (hbefore : part.ending? before.state = none)
    {ending : Ending α} (hafter : part.ending? after.state = some ending) :
    ∃ shared state, whole.Reaches (before.map lift embed) ⟨after.now, lift shared, embed state⟩ ∧
      part.step? after.now shared state = some (after.shared, after.state) := by
  rcases Relation.ReflTransGen.cases_tail hreaches with hsame | ⟨middle, hmiddle, hlast⟩
  · rw [hsame, hbefore] at hafter
    cases hafter
  · have hcomes := hcarries.reaches hstops hmiddle (hlast.running hstops)
    cases hlast with
    | acts hstep => exact ⟨_, _, hcomes, hstep⟩
    | waits _ hending =>
        rw [hending] at hafter
        cases hafter

theorem Hosts.advances (hhosts : whole.Hosts part lift embed)
    (hadvances : part.Advances before after) :
    whole.Advances (before.map lift embed) (after.map lift embed) := by
  cases hadvances with
  | acts hstep => exact .acts (hhosts.step hstep)
  | waits hstep hending hdue hlater => exact hhosts.waits hstep hending hdue hlater

theorem Hosts.reaches (hhosts : whole.Hosts part lift embed)
    (hreaches : part.Reaches before after) :
    whole.Reaches (before.map lift embed) (after.map lift embed) :=
  Relation.ReflTransGen.lift (Solo.map lift embed) (fun _ _ => hhosts.advances) _ _ hreaches

end Parts

/-- A part of something larger is worked on as it is by itself. -/
theorem hosts_within (operation : Operation σ ω α) {part : τ → σ} {replace : τ → σ → τ}
    (whole : τ) (hpart : ∀ shared, part (replace whole shared) = shared)
    (hreplace : ∀ shared next, replace (replace whole shared) next = replace whole next) :
    (operation.within part replace).Hosts operation (replace whole) id where
  step hstep := by
    simp only [within, id_eq, hpart, hstep, Option.map_some, hreplace]
  still hstep _ := by
    simp only [within, id_eq, hpart, hstep, Option.map_none]
  running hending := hending
  alarms _ := rfl

end Operation

end Clearing
