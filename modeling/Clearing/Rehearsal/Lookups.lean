import Clearing.Resources
import Clearing.Schedule

/-!
# Rehearsing lookups

Reference data is looked up, one question by one or several at the same time,
while the store may be slow or fail.
-/

namespace Clearing

/-- Resources at some time. -/
structure LookupRehearsal where
  now : Nat
  /-- What is left of the allowance for the foreground. -/
  allowance : Nat
  resources : Resources

/-- Lookups with nothing in the background. -/
def Lookup.schedule {α : Type} : Schedule Resources (Lookup α × LookupState α) α :=
  .ofTask
    { step? := fun now resources (lookup, state) =>
        (lookup.operation.step? now resources state).map fun (resources, state) =>
          (resources, (lookup, state))
      ending? := fun (lookup, state) => lookup.operation.ending? state
      wait? := fun (lookup, state) => lookup.operation.wait? state
      effort := fun (lookup, state) => lookup.operation.effort state }
    fun resources => ([], resources)

namespace LookupRehearsal

/-- A rehearsal that is about to start. -/
def new (ledger : Ledger) (lifetimeMillis : Nat) : LookupRehearsal :=
  { now := 0, allowance := Schedule.allowance, resources := .new ledger lifetimeMillis }

/-- Asks questions at the same time. -/
def ask {α : Type} (rehearsal : LookupRehearsal) (questions : List (Lookup α)) :
    List (Option (Ending α)) × LookupRehearsal :=
  let scene := Lookup.schedule.run (4 * questions.length) rehearsal.now rehearsal.allowance
    rehearsal.resources (questions.map fun question => (question, .looking))
  (scene.times.map fun ((question, state), _) => question.operation.ending? state,
    { now := scene.now, allowance := scene.allowance, resources := scene.world })

/-- From now on the store meets requests of a kind like this. -/
def replan (rehearsal : LookupRehearsal) (kind : RequestKind)
    (delayMillis failures aborts : Nat) : LookupRehearsal :=
  let store := rehearsal.resources.store
  let condition := (store.conditions.of kind).replan delayMillis failures aborts
  { rehearsal with
    resources := { rehearsal.resources with store := store.withCondition kind condition } }

/-- The reference data is changed behind the back of the cache. -/
def mapLedger (rehearsal : LookupRehearsal) (change : Ledger → Ledger) : LookupRehearsal :=
  { rehearsal with resources := rehearsal.resources.mapLedger change }

/-- Time passes. -/
def advance (rehearsal : LookupRehearsal) (millis : Nat) : LookupRehearsal :=
  { rehearsal with
    now := rehearsal.now + restMillis millis
    allowance := Schedule.afterRest millis rehearsal.allowance }

end LookupRehearsal

end Clearing
