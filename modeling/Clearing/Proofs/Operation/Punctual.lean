import Clearing.Proofs.Guard.Effort
import Clearing.Proofs.Operation.Changes
import Clearing.Proofs.Operation.Clock

/-!
# Operations that are never stuck

An operation is punctual if it makes a step or waits as long as it has not ended, and makes a
step when the earliest of its alarms rings (`Operation.Punctual`).  Requests, lookups and checks
are, and so is everything under a deadline.  All of them dwindle too, so they come to an end.
-/

namespace Clearing

variable {σ ω α β : Type}

namespace Operation

variable {operation : Operation σ ω α}

/-- In all states that it can get to, an operation that has not ended makes a step or waits, and
when the earliest of its alarms rings it makes one. -/
structure Punctual (operation : Operation σ ω α) (sound : ω → Prop) : Prop where
  keeps {now : Nat} {shared next : σ} {state later : ω} (hsound : sound state)
    (hstep : operation.step? now shared state = some (next, later)) : sound later
  waits {now : Nat} {shared : σ} {state : ω} (hsound : sound state)
    (hstep : operation.step? now shared state = none)
    (hending : operation.ending? state = none) : operation.wait? state ≠ none
  rings {due : Nat} {shared : σ} {state : ω} (hsound : sound state)
    (hdue : operation.IsNextDue state due) (hending : operation.ending? state = none) :
    (operation.step? due shared state).isSome

/-- Whoever makes no step when the earliest of its alarms rings has ended. -/
theorem Punctual.ends_of_rings {sound : ω → Prop} (hpunctual : operation.Punctual sound) {due : Nat}
    {shared : σ} {state : ω} (hsound : sound state) (hdue : operation.IsNextDue state due)
    (hstep : operation.step? due shared state = none) : (operation.ending? state).isSome := by
  cases hending : operation.ending? state with
  | some ending => rfl
  | none =>
      have hsome : (operation.step? due shared state).isSome :=
        hpunctual.rings hsound hdue hending
      rw [hstep] at hsome
      cases hsome

/-- A deadline rings too. -/
theorem Punctual.timed {sound : ω → Prop} (hpunctual : operation.Punctual sound) (stage : String)
    (limitMillis : Nat) :
    (operation.timed stage limitMillis).Punctual fun timed => sound timed.state where
  keeps {now shared next state later} hsound hstep := by
    obtain ⟨-, ⟨inner, hinner, rfl⟩ | ⟨-, -, -, -, rfl⟩⟩ := timed_step?_cases hstep
    · exact hpunctual.keeps hsound hinner
    · exact hsound
  waits {now shared state} hsound hstep hending := by
    obtain ⟨state, latest, elapsed⟩ := state
    cases elapsed with
    | true => cases hending
    | false => exact hpunctual.waits hsound (step?_eq_none_of_timed rfl hstep) hending
  rings {due shared state} hsound hdue hending := by
    obtain ⟨state, latest, elapsed⟩ := state
    cases elapsed with
    | true => cases hending
    | false =>
        cases hinner : operation.step? due shared state with
        | some next =>
            rw [timed_step?_of_step? operation stage limitMillis rfl hinner]
            rfl
        | none =>
            have hopen : operation.ending? state = none := hending
            have hearliest := hdue.earliest
            obtain ⟨alarm, halarm, hrings⟩ := hdue.rings
            rw [alarms_timed] at halarm hearliest
            rcases List.mem_append.mp halarm with hown | hdeadline
            · have hnext : operation.IsNextDue state due :=
                ⟨⟨alarm, hown, hrings⟩, fun other hother =>
                  hearliest other (List.mem_append_left _ hother)⟩
              have hended := hpunctual.ends_of_rings hsound hnext hinner
              rw [hopen] at hended
              cases hended
            · rw [List.mem_singleton.mp hdeadline] at hrings
              have hover : latest ≤ due := Nat.le_of_eq hrings
              simp [Operation.timed, hinner, hopen, hover]

end Operation

/-! ## Requests, lookups and checks are punctual -/

theorem Request.punctual (request : Request β α) : request.operation.Punctual fun _ => True where
  keeps _ _ := trivial
  waits {now store state} _ hstep hending := by
    cases state with
    | waiting read wakes fails => exact Option.some_ne_none _
    | answered ending => cases hending
    | _ => cases hstep
  rings {due store state} _ hdue hending := by
    cases state with
    | waiting read wakes fails =>
        obtain ⟨alarm, halarm, hrings⟩ := hdue.rings
        rw [Operation.alarms_of_wait rfl rfl] at halarm
        rw [List.mem_singleton.mp halarm] at hrings
        have hwakes : wakes ≤ due := Nat.le_of_eq hrings
        simp [operation, hwakes]
    | answered ending => cases hending
    | _ => rfl

/-- As soon as its request is answered a lookup is done. -/
def LookupState.Sound : LookupState α → Prop
  | .asking (.answered _) => False
  | _ => True

theorem Lookup.sound_heard (lookup : Lookup α) (now : Nat) (resources : Resources) (store : Store)
    (state : RequestState Unit α) : (lookup.heard now resources store state).2.Sound := by
  rcases state with _ | _ | _ | (failure | value) | cause <;> exact trivial

theorem Lookup.punctual (lookup : Lookup α) :
    lookup.operation.Punctual LookupState.Sound where
  keeps {now resources next state later} hsound hstep := by
    cases state with
    | looking =>
        simp only [operation] at hstep
        split at hstep <;> cases hstep <;> exact trivial
    | asking request =>
        obtain ⟨⟨store, answered⟩, -, hheard⟩ := Option.map_eq_some_iff.mp hstep
        have hlater : later = (lookup.heard now resources store answered).2 :=
          (congrArg Prod.snd hheard).symm
        rw [hlater]
        exact sound_heard ..
    | done ending => cases hstep
  waits {now resources state} hsound hstep hending := by
    cases state with
    | looking =>
        simp only [operation] at hstep
        split at hstep <;> cases hstep
    | asking request =>
        refine lookup.request.punctual.waits trivial (Option.map_eq_none_iff.mp hstep) ?_
        cases request with
        | answered ending => exact hsound.elim
        | _ => rfl
    | done ending => cases hending
  rings {due resources state} hsound hdue hending := by
    cases state with
    | looking =>
        simp only [operation]
        split <;> rfl
    | asking request =>
        have hopen : lookup.request.operation.ending? request = none := by
          cases request with
          | answered ending => exact hsound.elim
          | _ => rfl
        have hsome : (lookup.request.operation.step? due resources.store request).isSome :=
          lookup.request.punctual.rings trivial ⟨hdue.rings, hdue.earliest⟩ hopen
        simp only [operation, Option.isSome_map, hsome]
    | done ending => cases hending

/-- Without a transaction a check makes a single step. -/
def CheckState.Sound (transaction : Option Transaction) : CheckState → Prop
  | .customer state => transaction.isSome ∧ state.Sound
  | .product state => transaction.isSome ∧ state.Sound
  | _ => True

theorem CheckState.sound_afterCustomer (transaction : Transaction) (ending : Ending Bool) :
    (afterCustomer transaction ending).Sound (some transaction) := by
  rcases ending with (failure | known) | cause
  · exact trivial
  · cases known
    · exact trivial
    · exact ⟨rfl, trivial⟩
  · exact trivial

theorem CheckState.sound_afterProduct (transaction : Transaction) (clock : Timestamp)
    (ending : Ending (Option Product)) :
    (afterProduct transaction clock ending).Sound (some transaction) := by
  rcases ending with (failure | found) | cause <;> exact trivial

theorem validation_punctual (clock : Nat → Timestamp) (transaction : Option Transaction) :
    (validation clock transaction).Punctual (CheckState.Sound transaction) where
  keeps {now resources next state later} hsound hstep := by
    cases transaction with
    | none =>
        cases state with
        | starting =>
            cases hstep
            exact trivial
        | _ => cases hstep
    | some transaction =>
        cases CheckState.act_of_step? hstep with
        | start => exact ⟨rfl, trivial⟩
        | askCustomer hinner => exact ⟨rfl, (Lookup.punctual _).keeps hsound.2 hinner⟩
        | hearCustomer => exact CheckState.sound_afterCustomer ..
        | askProduct hinner => exact ⟨rfl, (Lookup.punctual _).keeps hsound.2 hinner⟩
        | hearProduct => exact CheckState.sound_afterProduct ..
  waits {now resources state} hsound hstep hending := by
    cases transaction with
    | none =>
        cases state with
        | starting => cases hstep
        | customer state => cases hsound.1
        | product state => cases hsound.1
        | done ending => cases hending
    | some transaction =>
        cases state with
        | starting => cases hstep
        | customer state =>
            simp only [validation] at hstep
            split at hstep
            · cases hstep
            · rename_i hinner
              exact (Lookup.punctual _).waits hsound.2 hinner (Option.map_eq_none_iff.mp hstep)
        | product state =>
            simp only [validation] at hstep
            split at hstep
            · cases hstep
            · rename_i hinner
              exact (Lookup.punctual _).waits hsound.2 hinner (Option.map_eq_none_iff.mp hstep)
        | done ending => cases hending
  rings {due resources state} hsound hdue hending := by
    cases transaction with
    | none =>
        cases state with
        | starting => rfl
        | customer state => cases hsound.1
        | product state => cases hsound.1
        | done ending => cases hending
    | some transaction =>
        cases state with
        | starting => rfl
        | customer state =>
            simp only [validation]
            split
            · rfl
            · rename_i hinner
              rw [Option.isSome_map]
              exact (Lookup.punctual _).ends_of_rings hsound.2 ⟨hdue.rings, hdue.earliest⟩ hinner
        | product state =>
            simp only [validation]
            split
            · rfl
            · rename_i hinner
              rw [Option.isSome_map]
              exact (Lookup.punctual _).ends_of_rings hsound.2 ⟨hdue.rings, hdue.earliest⟩ hinner
        | done ending => cases hending

/-! ## They come to an end -/

theorem Request.dwindles (request : Request β α) : request.operation.Dwindles where
  step now store state next later hstep := by
    have hconclude : ∀ read fails,
        request.operation.effort (request.conclude store read fails).2 = 0 := by
      intro read fails
      unfold conclude
      split <;> rfl
    cases state with
    | arriving =>
        have hlater : later = (request.arrive now store).2 :=
          (congrArg Prod.snd (Option.some.inj hstep)).symm
        rw [hlater, arrive]
        split
        · exact Nat.succ_pos 1
        · split
          · exact Nat.succ_pos 1
          · dsimp only
            split <;> exact Nat.lt_succ_self 1
    | waiting read wakes fails =>
        have hdone := (Option.ite_none_right_eq_some.mp hstep).2
        have hnone := hconclude read fails
        rw [Option.some.inj hdone] at hnone
        exact Nat.lt_one_iff.mpr hnone
    | concluding read fails =>
        have hnone := hconclude read fails
        rw [Option.some.inj hstep] at hnone
        exact Nat.lt_one_iff.mpr hnone
    | answered ending => cases hstep
  cut _ _ _ hcut := absurd hcut (Option.some_ne_none _).symm

theorem Lookup.dwindles (lookup : Lookup α) : lookup.operation.Dwindles where
  step now resources state next later hstep := by
    cases state with
    | looking =>
        simp only [operation] at hstep
        split at hstep
        · cases hstep
          exact Nat.succ_pos 2
        · cases hstep
          exact Nat.lt_succ_self 2
    | asking request =>
        obtain ⟨⟨store, answered⟩, hasked, hheard⟩ := Option.map_eq_some_iff.mp hstep
        have hless := lookup.request.dwindles.step _ _ _ _ _ hasked
        have hlater : later = (lookup.heard now resources store answered).2 :=
          (congrArg Prod.snd hheard).symm
        rw [hlater]
        rcases answered with _ | _ | _ | (failure | value) | cause
        · exact hless
        · exact hless
        · exact hless
        · exact Nat.zero_lt_of_lt hless
        · exact Nat.zero_lt_of_lt hless
        · exact Nat.zero_lt_of_lt hless
    | done ending => cases hstep
  cut _ _ _ hcut := absurd hcut (Option.some_ne_none _).symm

theorem validation_dwindles (clock : Nat → Timestamp) (transaction : Option Transaction) :
    (validation clock transaction).Dwindles where
  step now resources state next later hstep := by
    cases transaction with
    | none =>
        cases state with
        | starting =>
            cases hstep
            exact Nat.succ_pos 8
        | _ => cases hstep
    | some transaction =>
        cases CheckState.act_of_step? hstep with
        | start => exact Nat.lt_succ_self 8
        | askCustomer hinner =>
            exact Nat.add_lt_add_right ((Lookup.dwindles _).step _ _ _ _ _ hinner) 5
        | @hearCustomer state ending hending =>
            cases state with
            | done other =>
                rcases ending with (failure | known) | cause
                · exact Nat.succ_pos 4
                · cases known
                  · exact Nat.succ_pos 4
                  · exact Nat.lt_succ_self 4
                · exact Nat.succ_pos 4
            | _ => cases hending
        | askProduct hinner =>
            exact Nat.add_lt_add_right ((Lookup.dwindles _).step _ _ _ _ _ hinner) 1
        | @hearProduct state ending hending =>
            cases state with
            | done other => rcases ending with (failure | found) | cause <;> exact Nat.succ_pos 0
            | _ => cases hending
  cut _ _ _ hcut := absurd hcut (Option.some_ne_none _).symm

/-- No more steps than these are left of a check. -/
theorem effort_validation_le (clock : Nat → Timestamp) (transaction : Option Transaction)
    (state : CheckState) : (validation clock transaction).effort state ≤ 9 := by
  have hlookup {α : Type} (lookup : Lookup α) (state : LookupState α) :
      lookup.operation.effort state ≤ 3 := by
    rcases state with _ | (_ | _ | _ | _) | _ <;> exact Nat.le_of_ble_eq_true rfl
  cases state with
  | starting => exact Nat.le_refl 9
  | customer state =>
      exact Nat.le_trans (Nat.add_le_add_right (hlookup (Lookup.customerExists 0) state) 5)
        (by decide)
  | product state =>
      exact Nat.le_trans (Nat.add_le_add_right (hlookup (Lookup.product "") state) 1) (by decide)
  | done ending => exact Nat.zero_le 9

end Clearing
