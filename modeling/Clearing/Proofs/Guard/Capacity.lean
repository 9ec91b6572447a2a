import Clearing.Proofs.Processing.Smooth

/-!
# The slots of a new pipeline

A new pipeline has one guard for all transactions and one for each format.  Each of
them has as many slots as the settings say, all of them free (`Pipeline.Vacant`).

A check asks for at least one slot at each guard and for nothing else about slots,
while a bulkhead cannot have more than `Bulkhead.maxCapacity` of them.  With settings
that were checked a pipeline is therefore built exactly if neither number of slots is
above that (`Pipeline.vacant_of_check`).
-/

namespace Clearing

/-- A guard that nobody has passed: all its slots are free, and nobody stands in line. -/
structure Guard.Vacant (slots : Nat) (guard : Guard) : Prop where
  capacity : guard.bulkhead.capacity = slots
  free : guard.bulkhead.free = slots
  waiting : guard.bulkhead.waiting = []
  assigned : guard.bulkhead.assigned = []
  closed : guard.breaker.state = .closed
  window : guard.breaker.window = []

/-- The numbers of slots that the settings give to the guards, by the position of the guard. -/
def Settings.slots (settings : Settings) : List Nat :=
  [settings.bulkheads.shared.maxConcurrent, settings.bulkheads.perFormat.maxConcurrent,
    settings.bulkheads.perFormat.maxConcurrent]

/-- No number of slots is more than a bulkhead can have. -/
def Settings.HasRoom (settings : Settings) : Prop :=
  ∀ slots ∈ settings.slots, slots ≤ Bulkhead.maxCapacity

theorem Settings.hasRoom_iff {settings : Settings} :
    settings.HasRoom ↔ settings.bulkheads.shared.maxConcurrent ≤ Bulkhead.maxCapacity ∧
      settings.bulkheads.perFormat.maxConcurrent ≤ Bulkhead.maxCapacity := by
  simp [HasRoom, slots]

/-- Nobody has passed any guard, and each has the slots that the settings give to it. -/
structure Pipeline.Vacant (pipeline : Pipeline) : Prop where
  names : pipeline.guards.map Guard.name =
    [sharedGuardName, WireFormat.text.name, WireFormat.binary.name]
  guards : List.Forall₂ Guard.Vacant pipeline.settings.slots pipeline.guards
  usable : ∀ guard ∈ pipeline.guards, 0 < guard.bulkhead.free

namespace Guard

variable {name : String} {breaker : BreakerSettings} {bulkhead : BulkheadSettings}

theorem new?_eq_some (hroom : bulkhead.maxConcurrent ≤ Bulkhead.maxCapacity) :
    new? name breaker bulkhead = some (new name breaker bulkhead) := by
  rw [new?, Bulkhead.new?, if_pos hroom, Option.map_some, new]

theorem new?_eq_none (hroom : ¬ bulkhead.maxConcurrent ≤ Bulkhead.maxCapacity) :
    new? name breaker bulkhead = none := by
  rw [new?, Bulkhead.new?, if_neg hroom, Option.map_none]

theorem vacant_new : (new name breaker bulkhead).Vacant bulkhead.maxConcurrent :=
  ⟨rfl, rfl, rfl, rfl, rfl, rfl⟩

end Guard

namespace Pipeline

variable {settings : Settings}

theorem new?_eq_some (hroom : settings.HasRoom) (ledger : Ledger) (clock : Nat → Timestamp) :
    new? settings ledger clock = some
      { settings
        clock
        guards :=
          [.new sharedGuardName settings.breakers.shared settings.bulkheads.shared,
            .new WireFormat.text.name settings.breakers.perFormat settings.bulkheads.perFormat,
            .new WireFormat.binary.name settings.breakers.perFormat settings.bulkheads.perFormat]
        resources := .new ledger settings.cacheMillis
        statistics := .empty } := by
  obtain ⟨hshared, hformat⟩ := Settings.hasRoom_iff.mp hroom
  rw [new?, Guard.new?_eq_some hshared, Guard.new?_eq_some hformat, Guard.new?_eq_some hformat]
  rfl

/-- One bulkhead that would have too many slots is enough for the construction to fail. -/
theorem new?_eq_none (hroom : ¬ settings.HasRoom) (ledger : Ledger) (clock : Nat → Timestamp) :
    new? settings ledger clock = none := by
  by_cases hshared : settings.bulkheads.shared.maxConcurrent ≤ Bulkhead.maxCapacity
  · have hformat : ¬ settings.bulkheads.perFormat.maxConcurrent ≤ Bulkhead.maxCapacity :=
      fun hformat => hroom (Settings.hasRoom_iff.mpr ⟨hshared, hformat⟩)
    rw [new?, Guard.new?_eq_some hshared, Guard.new?_eq_none hformat]
    rfl
  · rw [new?, Guard.new?_eq_none hshared]
    rfl

/-- **With settings that were checked a pipeline is built exactly if no bulkhead would have more
slots than it can have; its guards then have the slots that the settings say, all of them free.** -/
theorem vacant_of_check (hcheck : settings.check = .ok ()) (ledger : Ledger)
    (clock : Nat → Timestamp) :
    (settings.HasRoom → ∃ pipeline, new? settings ledger clock = some pipeline ∧
      pipeline.settings = settings ∧ pipeline.Vacant) ∧
    (¬ settings.HasRoom → new? settings ledger clock = none) := by
  refine ⟨fun hroom => ⟨_, new?_eq_some hroom ledger clock, rfl, ?_⟩,
    fun hroom => new?_eq_none hroom ledger clock⟩
  have husable := Settings.check_eq_ok_iff.mp hcheck
  refine ⟨rfl, ?_, ?_⟩
  · exact .cons Guard.vacant_new (.cons Guard.vacant_new (.cons Guard.vacant_new .nil))
  · simp only [List.forall_mem_cons]
    exact ⟨husable.sharedSlots, husable.formatSlots, husable.formatSlots, List.forall_mem_nil _⟩

/-- The settings that hold when nothing is set have room. -/
theorem vacant_of_check_initial :
    Settings.initial.check = .ok () ∧ Settings.initial.HasRoom ∧
      ∃ pipeline, new? .initial (.empty .initial) (fun _ => ⟨0, 0⟩) = some pipeline ∧
        pipeline.settings = .initial ∧ pipeline.Vacant := by
  have hcheck : Settings.initial.check = .ok () := by decide +kernel
  have hroom : Settings.initial.HasRoom := Settings.hasRoom_iff.mpr (by decide)
  exact ⟨hcheck, hroom, (vacant_of_check hcheck (.empty .initial) _).1 hroom⟩

/-- One slot more than a bulkhead can have at the guard for all transactions. -/
def crowdedSettings : Settings :=
  { Settings.initial with
    bulkheads := { Settings.initial.bulkheads with
      shared := { Settings.initial.bulkheads.shared with
        maxConcurrent := Bulkhead.maxCapacity + 1 } } }

/-- Settings that were checked do not always make a pipeline. -/
theorem not_built_of_crowdedSettings :
    ¬ ∀ (settings : Settings) (ledger : Ledger) (clock : Nat → Timestamp),
      settings.check = .ok () → ∃ pipeline, new? settings ledger clock = some pipeline ∧
        pipeline.settings = settings ∧ pipeline.Vacant := by
  intro hbuilt
  have hcheck : crowdedSettings.check = .ok () := by decide +kernel
  obtain ⟨pipeline, hnew, -, -⟩ := hbuilt crowdedSettings (.empty .initial) (fun _ => ⟨0, 0⟩) hcheck
  have hnone : new? crowdedSettings (.empty .initial) (fun _ => ⟨0, 0⟩) = none := rfl
  rw [hnone] at hnew
  exact Option.some_ne_none pipeline hnew.symm

end Pipeline

end Clearing
