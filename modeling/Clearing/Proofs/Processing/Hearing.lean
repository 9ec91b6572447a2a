import Clearing.Proofs.Cache.Expiring
import Clearing.Proofs.Operation.Changes
import Clearing.Proofs.Operation.Clock

/-!
# What a lookup hears, and when

A request meets the condition that the store has for its kind: it is aborted or fails or is
answered (`Condition.verdict`), after some time (`Condition.latency`).  A lookup asks the
store only if the cache has no valid answer; what it hears, and after how long, is settled
when it begins (`Lookup.hearing`).

It gets there by itself (`Lookup.Laws.reaches`), and before that it only waits
(`Lookup.Laws.waits`): so much of the cache and of the store as it changes while it waits is
`Lookup.inquired`, and what it leaves behind is `Lookup.informed`.
-/

namespace Clearing

variable {α β : Type}

namespace Ending

/-- The value that was returned. -/
def value? : Ending α → Option α
  | .returned (.ok value) => some value
  | _ => none

/-- An ending without a value, as one of something else. -/
def failure? : Ending α → Option (Ending β)
  | .returned (.ok _) => none
  | .returned (.error failure) => some (.returned (.error failure))
  | .aborted cause => some (.aborted cause)

end Ending

/-! ## Requests -/

namespace Condition

/-- The time that a request takes; one that aborts does so at once. -/
def latency (condition : Condition) : Nat :=
  if 0 < condition.aborts then 0 else condition.delayMillis

/-- What becomes of a request that would be answered in this way. -/
def verdict (condition : Condition) (answer : α) : Ending α :=
  if 0 < condition.aborts then .aborted .requested
  else if 0 < condition.failures then .returned (.error condition.refusal)
  else .returned (.ok answer)

/-- The condition after one more request has arrived. -/
def met (condition : Condition) : Condition :=
  if 0 < condition.aborts then
    { condition with calls := condition.calls + 1, aborts := condition.aborts - 1 }
  else { condition with calls := condition.calls + 1, failures := condition.failures - 1 }

@[simp] theorem calls_met (condition : Condition) : condition.met.calls = condition.calls + 1 := by
  unfold met
  split <;> rfl

@[simp] theorem refusal_met (condition : Condition) :
    condition.met.refusal = condition.refusal := by
  unfold met
  split <;> rfl

end Condition

namespace Store

/-- The store after one more request of a kind has arrived. -/
def meet (store : Store) (kind : RequestKind) : Store :=
  store.withCondition kind (store.conditions.of kind).met

@[simp] theorem of_meet (store : Store) (kind other : RequestKind) :
    (store.meet kind).conditions.of other =
      if other = kind then (store.conditions.of kind).met else store.conditions.of other :=
  Conditions.of_set ..

end Store

namespace Request

variable {request : Request β α} {store : Store} {read : β}

/-- A request that is told to abort. -/
theorem arrive_of_aborts (hread : request.read store.ledger = .ok read)
    (haborts : 0 < (store.conditions.of request.kind).aborts) (now : Nat) :
    request.arrive now store = (store.meet request.kind, .answered (.aborted .requested)) := by
  simp only [arrive, hread, if_pos haborts, Store.meet, Condition.met]

/-- A request that is let in. -/
theorem arrive_of_no_aborts (hread : request.read store.ledger = .ok read)
    (haborts : ¬0 < (store.conditions.of request.kind).aborts) (now : Nat) :
    request.arrive now store = (store.meet request.kind,
      if (store.conditions.of request.kind).delayMillis = 0 then
        .concluding read (0 < (store.conditions.of request.kind).failures)
      else .waiting read (now + (store.conditions.of request.kind).delayMillis)
        (0 < (store.conditions.of request.kind).failures)) := by
  simp only [arrive, hread, if_neg haborts, Store.meet, Condition.met]

/-- The store after a request has ended that could read what it needs. -/
def concluded (request : Request β α) (store : Store) (read : β) : Store :=
  if 0 < (store.conditions.of request.kind).aborts ∨
      0 < (store.conditions.of request.kind).failures then store.meet request.kind
  else { store.meet request.kind with ledger := (request.perform read store.ledger).2 }

/-- A request that was let in fails or is answered, as the store meant to when it arrived. -/
theorem conclude_meet (request : Request β α) (read : β)
    (haborts : ¬0 < (store.conditions.of request.kind).aborts) :
    request.conclude (store.meet request.kind) read
        (0 < (store.conditions.of request.kind).failures) =
      (request.concluded store read,
        .answered ((store.conditions.of request.kind).verdict
          (request.perform read store.ledger).1)) := by
  by_cases hfailures : 0 < (store.conditions.of request.kind).failures
  · simp only [conclude, concluded, hfailures, decide_true, if_true, or_true, Store.of_meet,
      Condition.refusal_met, Condition.verdict, if_neg haborts]
  · simp only [conclude, concluded, haborts, hfailures, decide_false, or_false, if_false,
      Bool.false_eq_true, Condition.verdict]
    rfl

/-- A request that looks leaves the ledger as it is. -/
theorem concluded_look {kind : RequestKind} {answer : Ledger → α} :
    (look kind answer).concluded store () = store.meet kind := by
  unfold concluded
  split <;> rfl

theorem stops (request : Request β α) : request.operation.Stops := by
  intro now shared state ending hending
  cases state with
  | answered ending => rfl
  | _ => cases hending

/-- Until it wakes a request can only wait. -/
theorem idle_waiting (request : Request β α) (store : Store) (read : β) {latest wakes : Nat}
    (fails : Bool) (hlate : latest < wakes) :
    request.operation.Idle latest store (.waiting read wakes fails) where
  running := rfl
  still now hnow := if_neg (by omega)
  later alarm halarm := by
    rw [Operation.alarms_of_wait rfl rfl] at halarm
    rw [List.mem_singleton.mp halarm]
    exact hlate

/-- **A request ends when its time has passed.** -/
theorem reaches (hread : request.read store.ledger = .ok read) (now : Nat) :
    request.operation.Reaches ⟨now, store, .arriving⟩
      ⟨now + (store.conditions.of request.kind).latency, request.concluded store read,
        .answered ((store.conditions.of request.kind).verdict
          (request.perform read store.ledger).1)⟩ := by
  by_cases haborts : 0 < (store.conditions.of request.kind).aborts
  · have harrive := arrive_of_aborts hread haborts now
    rw [Condition.latency, concluded, Condition.verdict, if_pos haborts, if_pos (.inl haborts),
      if_pos haborts]
    exact .single (.acts (congrArg some harrive))
  · have harrive := arrive_of_no_aborts hread haborts now
    have hconclude := conclude_meet request read haborts
    rw [Condition.latency, if_neg haborts]
    refine .head (.acts (congrArg some harrive)) ?_
    by_cases hdelay : (store.conditions.of request.kind).delayMillis = 0
    · rw [if_pos hdelay, hdelay, Nat.add_zero]
      exact .single (.acts (congrArg some hconclude))
    · have hlater : now < now + (store.conditions.of request.kind).delayMillis :=
        Nat.lt_add_of_pos_right (Nat.pos_of_ne_zero hdelay)
      have hwaits := idle_waiting request (store.meet request.kind) read
        (0 < (store.conditions.of request.kind).failures) hlater
      rw [if_neg hdelay]
      refine .head (Operation.advances_of_wait rfl rfl (hwaits.still now (Nat.le_refl now)) rfl
        hlater) (.single (.acts ?_))
      exact (if_pos (Nat.le_refl _)).trans (congrArg some hconclude)

/-- **Before that it only waits.** -/
theorem waits (hread : request.read store.ledger = .ok read) {now latest : Nat}
    (hnow : now ≤ latest)
    (hlate : latest < now + (store.conditions.of request.kind).latency) :
    ∃ state, request.operation.Reaches ⟨now, store, .arriving⟩
        ⟨now, store.meet request.kind, state⟩ ∧
      request.operation.Idle latest (store.meet request.kind) state := by
  unfold Condition.latency at hlate
  by_cases haborts : 0 < (store.conditions.of request.kind).aborts
  · rw [if_pos haborts] at hlate
    omega
  · rw [if_neg haborts] at hlate
    have harrive := arrive_of_no_aborts hread haborts now
    rw [if_neg (by omega)] at harrive
    exact ⟨_, .single (.acts (congrArg some harrive)), idle_waiting request _ read _ hlate⟩

end Request

/-! ## Lookups -/

/-- What a lookup hears. -/
structure Hearing (α : Type) where
  /-- The store is asked. -/
  asked : Bool
  /-- How long it takes until the lookup ends. -/
  millis : Nat
  ending : Ending α

/-- The entry that a cache makes of what is heard, if it is heard in time. -/
def Hearing.kept? (hearing : Hearing α) (now limitMillis : Nat) : Option (Aged α) :=
  if hearing.millis ≤ limitMillis then
    hearing.ending.value?.map fun value => ⟨value, now + hearing.millis⟩
  else none

namespace Lookup

/-- What the lookup hears if it begins at a given time: the answer of the cache, or else what
becomes of a request to the store. -/
def hearing (lookup : Lookup α) (now : Nat) (resources : Resources) : Hearing α :=
  match (lookup.cached resources.references now).1 with
  | some answer => { asked := false, millis := 0, ending := .returned (.ok answer) }
  | none =>
    let condition := resources.store.conditions.of lookup.request.kind
    { asked := true
      millis := condition.latency
      ending := condition.verdict (lookup.request.perform () resources.store.ledger).1 }

/-- The resources while the lookup waits. -/
def inquired (lookup : Lookup α) (now : Nat) (resources : Resources) : Resources :=
  { resources with
    references := (lookup.cached resources.references now).2
    store :=
      if (lookup.hearing now resources).asked then resources.store.meet lookup.request.kind
      else resources.store }

/-- The resources after the lookup: an answer of the store is remembered. -/
def informed (lookup : Lookup α) (now : Nat) (resources : Resources) : Resources :=
  let hearing := lookup.hearing now resources
  let inquired := lookup.inquired now resources
  match if hearing.asked then hearing.ending.value? else none with
  | some answer =>
    { inquired with
      references := lookup.remember inquired.references (now + hearing.millis) answer }
  | none => inquired

variable {lookup : Lookup α} {kind : RequestKind} {answer : Ledger → α} {resources : Resources}
  {now latest : Nat}

theorem hearing_of_cached {found : α}
    (hfound : (lookup.cached resources.references now).1 = some found) :
    lookup.hearing now resources =
      { asked := false, millis := 0, ending := .returned (.ok found) } := by
  rw [hearing, hfound]

theorem hearing_of_not_cached (hnone : (lookup.cached resources.references now).1 = none) :
    lookup.hearing now resources =
      { asked := true
        millis := (resources.store.conditions.of lookup.request.kind).latency
        ending := (resources.store.conditions.of lookup.request.kind).verdict
          (lookup.request.perform () resources.store.ledger).1 } := by
  rw [hearing, hnone]

/-- **The store is asked exactly if the cache has no valid answer.** -/
theorem asked_eq_true_iff : (lookup.hearing now resources).asked = true ↔
    (lookup.cached resources.references now).1 = none := by
  cases hcached : (lookup.cached resources.references now).1 with
  | none => simp [hearing_of_not_cached hcached]
  | some found => simp [hearing_of_cached hcached]

theorem inquired_of_not_cached (hnone : (lookup.cached resources.references now).1 = none) :
    lookup.inquired now resources =
      { resources with
        references := (lookup.cached resources.references now).2
        store := resources.store.meet lookup.request.kind } := by
  rw [inquired, asked_eq_true_iff.mpr hnone, if_pos rfl]

/-- The state of a lookup whose request has ended in some way. -/
theorem heard_answered (lookup : Lookup α) (now : Nat) (resources : Resources) (store : Store)
    (ending : Ending α) :
    lookup.heard now resources store (.answered ending) =
      (match ending.value? with
        | some answer =>
          { resources with
            store, references := lookup.remember resources.references now answer }
        | none => { resources with store },
        .done ending) := by
  rcases ending with (failure | value) | cause <;> rfl

/-- What is heard of the request of a lookup is what the lookup hears. -/
theorem heard_inquired (hnone : (lookup.cached resources.references now).1 = none)
    (store : Store) :
    lookup.heard (now + (lookup.hearing now resources).millis)
        { resources with references := (lookup.cached resources.references now).2, store }
        (resources.store.meet lookup.request.kind)
        (.answered (lookup.hearing now resources).ending) =
      (lookup.informed now resources, .done (lookup.hearing now resources).ending) := by
  rw [heard_answered, informed, inquired_of_not_cached hnone, asked_eq_true_iff.mpr hnone]
  rfl

/-- The first step of a lookup that the cache cannot answer. -/
theorem advances_asking (hnone : (lookup.cached resources.references now).1 = none) :
    lookup.operation.Advances ⟨now, resources, .looking⟩
      ⟨now, { resources with references := (lookup.cached resources.references now).2 },
        .asking .arriving⟩ := by
  apply Operation.Advances.acts
  simp only [operation, hnone]

/-- Until the request of a lookup is answered the lookup does what the request does. -/
theorem carries_request (lookup : Lookup α) (resources : Resources) :
    lookup.operation.Carries lookup.request.operation
      (fun store => { resources with store }) .asking where
  step {_ _ _ _ later} hstep hrunning := by
    simp only [operation, hstep, Option.map_some]
    cases later with
    | answered ending => cases hrunning
    | _ => rfl
  still hstep _ := by simp only [operation, hstep, Option.map_none]
  running _ := rfl
  alarms _ := rfl

/-- **A lookup comes to what it hears, after the time that it takes.** -/
theorem Laws.reaches (hlaws : lookup.Laws kind answer) (now : Nat) (resources : Resources) :
    lookup.operation.Reaches ⟨now, resources, .looking⟩
      ⟨now + (lookup.hearing now resources).millis, lookup.informed now resources,
        .done (lookup.hearing now resources).ending⟩ := by
  cases hcached : (lookup.cached resources.references now).1 with
  | some found =>
      rw [informed, inquired, hearing_of_cached hcached]
      apply Relation.ReflTransGen.single
      apply Operation.Advances.acts
      simp only [operation, hcached]
      rfl
  | none =>
      have hread : lookup.request.read resources.store.ledger = .ok () := by
        rw [hlaws.request]
        rfl
      have hconcluded : lookup.request.concluded resources.store () =
          resources.store.meet lookup.request.kind := by
        rw [hlaws.request]
        exact Request.concluded_look
      have hheard := heard_inquired hcached
      rw [hearing_of_not_cached hcached] at hheard ⊢
      obtain ⟨store, state, hcomes, hstep⟩ := (carries_request lookup { resources with
          references := (lookup.cached resources.references now).2 }).exists_last
        (Request.stops lookup.request) (Request.reaches hread now) rfl rfl
      refine .head (advances_asking hcached) (hcomes.tail (.acts ?_))
      rw [hconcluded] at hstep
      simp only [operation, hstep, Option.map_some]
      rw [hheard]

/-- **Before that it only waits.** -/
theorem Laws.waits (hlaws : lookup.Laws kind answer) (now : Nat) (resources : Resources)
    (hlate : latest < now + (lookup.hearing now resources).millis) (hnow : now ≤ latest) :
    ∃ state, lookup.operation.Reaches ⟨now, resources, .looking⟩
        ⟨now, lookup.inquired now resources, state⟩ ∧
      lookup.operation.Idle latest (lookup.inquired now resources) state := by
  cases hcached : (lookup.cached resources.references now).1 with
  | some found =>
      rw [hearing_of_cached hcached] at hlate
      exact absurd hnow (Nat.not_le_of_lt hlate)
  | none =>
      have hread : lookup.request.read resources.store.ledger = .ok () := by
        rw [hlaws.request]
        rfl
      have hcarries := carries_request lookup { resources with
        references := (lookup.cached resources.references now).2 }
      rw [hearing_of_not_cached hcached] at hlate
      obtain ⟨state, hreaches, hidle⟩ := Request.waits hread hnow hlate
      rw [inquired_of_not_cached hcached]
      exact ⟨.asking state, .head (advances_asking hcached)
        (hcarries.reaches (Request.stops lookup.request) hreaches hidle.running),
        hcarries.idle hidle⟩

end Lookup

end Clearing
