import Mathlib.Logic.Relation
import Clearing.Operation.Deadline
import Clearing.Operation.Look

/-!
# Operations that nothing holds up

An operation proceeds if it does not wait, makes a step and has less left to do
(`Operation.Proceeds`); one state leads to another if it gets there in this way
(`Operation.Leads`).  Then what is left to do bounds the number of steps
(`Operation.Takes`), so a single look takes such an operation as far as it leads,
without using up any of the allowance (`Operation.look_of_leads`).
-/

namespace Clearing

variable {σ τ ω ψ α β : Type}

namespace Operation

/-- The operation does not wait, makes a step, and has less left to do after it. -/
structure Proceeds (operation : Operation σ ω α) (now : Nat) (before after : σ × ω) : Prop where
  wait : operation.wait? before.2 = none
  step : operation.step? now before.1 before.2 = some after
  less : operation.effort after.2 < operation.effort before.2

/-- The operation gets from one state to the other without waiting. -/
abbrev Leads (operation : Operation σ ω α) (now : Nat) : σ × ω → σ × ω → Prop :=
  Relation.ReflTransGen (operation.Proceeds now)

variable {operation : Operation σ ω α} {now : Nat} {before after : σ × ω}

theorem Proceeds.leads (hproceeds : operation.Proceeds now before after) :
    operation.Leads now before after :=
  .single hproceeds

/-- What holds nothing up in one operation holds nothing up in another that goes along with it. -/
theorem Leads.lift {other : Operation τ ψ β} (embed : σ × ω → τ × ψ)
    (hembed : ∀ {before after : σ × ω}, operation.Proceeds now before after →
      other.Proceeds now (embed before) (embed after))
    (hleads : operation.Leads now before after) :
    other.Leads now (embed before) (embed after) :=
  Relation.ReflTransGen.lift embed (fun _ _ => hembed) _ _ hleads

/-- A deadline holds nothing up. -/
theorem Proceeds.timed (hproceeds : operation.Proceeds now before after) (stage : String)
    (limitMillis latest : Nat) :
    (operation.timed stage limitMillis).Proceeds now (before.1, ⟨before.2, latest, false⟩)
      (after.1, ⟨after.2, latest, false⟩) where
  wait := hproceeds.wait
  step := timed_step?_of_step? operation stage limitMillis rfl hproceeds.step
  less := Nat.add_lt_add_right hproceeds.less 1

theorem Leads.timed (hleads : operation.Leads now before after) (stage : String)
    (limitMillis latest : Nat) :
    (operation.timed stage limitMillis).Leads now (before.1, ⟨before.2, latest, false⟩)
      (after.1, ⟨after.2, latest, false⟩) :=
  hleads.lift (fun point => (point.1, (⟨point.2, latest, false⟩ : Timed ω)))
    fun hproceeds => hproceeds.timed stage limitMillis latest

/-- The operation gets from one state to the other in so many steps without waiting. -/
inductive Takes (operation : Operation σ ω α) (now : Nat) : Nat → σ × ω → σ × ω → Prop
  | stay {point : σ × ω} : Takes operation now 0 point point
  | go {count : Nat} {before middle after : σ × ω} (hwait : operation.wait? before.2 = none)
      (hstep : operation.step? now before.1 before.2 = some middle)
      (hrest : Takes operation now count middle after) :
      Takes operation now (count + 1) before after

/-- What is left to do bounds the number of steps. -/
theorem Leads.takes (hleads : operation.Leads now before after) :
    ∃ count, operation.Takes now count before after ∧
      count + operation.effort after.2 ≤ operation.effort before.2 := by
  induction hleads using Relation.ReflTransGen.head_induction_on with
  | refl => exact ⟨0, .stay, Nat.le_of_eq (Nat.zero_add _)⟩
  | head hfirst _ ih =>
      obtain ⟨count, htakes, hcount⟩ := ih
      have hless := hfirst.less
      exact ⟨count + 1, .go hfirst.wait hfirst.step htakes, by omega⟩

theorem Takes.trans {first second : Nat} {middle : σ × ω}
    (hfirst : operation.Takes now first before middle)
    (hsecond : operation.Takes now second middle after) :
    operation.Takes now (first + second) before after := by
  induction hfirst with
  | stay => rwa [Nat.zero_add]
  | @go count _ _ _ hwait hstep _ ih =>
      rw [Nat.add_right_comm]
      exact .go hwait hstep (ih hsecond)

/-- What waits for nothing in one operation waits for nothing in another that goes along with it. -/
theorem Takes.lift {other : Operation τ ψ β} (embed : σ × ω → τ × ψ)
    (hwait : ∀ {point : σ × ω}, operation.wait? point.2 = none → other.wait? (embed point).2 = none)
    (hstep : ∀ {point next : σ × ω}, operation.step? now point.1 point.2 = some next →
      other.step? now (embed point).1 (embed point).2 = some (embed next))
    {count : Nat} (htakes : operation.Takes now count before after) :
    other.Takes now count (embed before) (embed after) := by
  induction htakes with
  | stay => exact .stay
  | go hfirst hmiddle _ ih => exact .go (hwait hfirst) (hstep hmiddle) ih

end Operation

/-! ## Looks -/

namespace Look

variable {operation : Operation σ ω α} {now number : Nat} {heeding : Bool}

/-- A look with enough fuel takes all the steps. -/
private theorem goOn_of_takes {count : Nat} {before after : σ × ω}
    (htakes : operation.Takes now count before after) (hwait : operation.wait? after.2 = none)
    (hstep : operation.step? now after.1 after.2 = none) {fuel : Nat} {look : Look σ ω}
    (hshared : look.shared = before.1) (hwatched : look.watched = .new before.2)
    (hfuel : count < fuel) :
    ∃ moved, goOn operation now number heeding fuel look =
      { look with shared := after.1, watched := .new after.2, moved } := by
  induction htakes generalizing fuel look with
  | stay =>
      obtain ⟨shared, watched, allowance, moved, putOff⟩ := look
      dsimp only at hshared hwatched
      subst hshared hwatched
      obtain ⟨fuel, rfl⟩ : ∃ less, fuel = less + 1 := ⟨fuel - 1, by omega⟩
      refine ⟨moved, ?_⟩
      simp only [goOn, Watched.new, hwait, hstep]
  | @go count before middle after hfirst hmiddle hrest ih =>
      obtain ⟨shared, watched, allowance, moved, putOff⟩ := look
      dsimp only at hshared hwatched
      subst hshared hwatched
      obtain ⟨fuel, rfl⟩ : ∃ less, fuel = less + 1 := ⟨fuel - 1, by omega⟩
      obtain ⟨ended, hrest⟩ := @ih hwait hstep fuel
        { shared := middle.1, watched := .new middle.2, allowance, moved := true, putOff }
        rfl rfl (by omega)
      refine ⟨ended, ?_⟩
      rw [← hrest]
      simp only [goOn, Watched.new, hfirst, hmiddle]
      rfl

end Look

/-- **A look takes all the steps there are**, as long as there are no more than may be left. -/
theorem Operation.look_of_takes {operation : Operation σ ω α} {now count : Nat} {shared last : σ}
    {state final : ω} (htakes : operation.Takes now count (shared, state) (last, final))
    (hcount : count ≤ operation.effort state) (hwait : operation.wait? final = none)
    (hstep : operation.step? now last final = none) (number allowance : Nat) :
    ∃ moved, operation.look now number allowance shared (.new state) =
      { shared := last, watched := .new final, allowance, moved, putOff := false } :=
  Look.goOn_of_takes htakes hwait hstep rfl rfl (Nat.lt_succ_of_le hcount)

/-- **A look goes as far as the operation leads**, if it can make no step there. -/
theorem Operation.look_of_leads {operation : Operation σ ω α} {now : Nat} {shared last : σ}
    {state final : ω} (hleads : operation.Leads now (shared, state) (last, final))
    (hwait : operation.wait? final = none) (hstep : operation.step? now last final = none)
    (number allowance : Nat) :
    ∃ moved, operation.look now number allowance shared (.new state) =
      { shared := last, watched := .new final, allowance, moved, putOff := false } := by
  obtain ⟨count, htakes, hcount⟩ := hleads.takes
  exact look_of_takes htakes (Nat.le_trans (Nat.le_add_right _ _) hcount) hwait hstep number
    allowance

end Clearing
