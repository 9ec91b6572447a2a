import Clearing.Guard.Breaker
import Clearing.Rehearsal.Script

/-!
# Rehearsing a breaker

Calls are admitted by a breaker, and their permits are kept under names until an
outcome is told or the permit is dropped.
-/

namespace Clearing

/-- A breaker, and the names under which permits are kept. -/
structure BreakerRehearsal where
  name : String
  breaker : Breaker
  permits : List String
  now : Nat

namespace BreakerRehearsal

/-- A rehearsal that is about to start. -/
def new (name : String) (settings : BreakerSettings) : BreakerRehearsal :=
  { name, breaker := .new settings, permits := [], now := 0 }

/-- The state as it shows. -/
def status (rehearsal : BreakerRehearsal) : BreakerStatus :=
  rehearsal.breaker.status rehearsal.now

/-- An outcome is told. -/
def tell (rehearsal : BreakerRehearsal) (outcome : Outcome) : BreakerRehearsal :=
  { rehearsal with breaker := rehearsal.breaker.record rehearsal.now outcome }

/-- A call asks to be admitted. -/
def enter (rehearsal : BreakerRehearsal) : Except Failure Unit × BreakerRehearsal :=
  let (breaker, admitted) := rehearsal.breaker.acquire rehearsal.now
  (if admitted then .ok () else .error (.circuitOpen rehearsal.name), { rehearsal with breaker })

/-- Takes the permit that is kept under a name, if there is one, and tells an outcome. -/
def finish (rehearsal : BreakerRehearsal) (slot : String) (outcome : Outcome) :
    Bool × BreakerRehearsal :=
  if slot ∈ rehearsal.permits then
    (true, { rehearsal.tell outcome with permits := rehearsal.permits.erase slot })
  else (false, rehearsal)

/-- A call is admitted and its permit is kept; the permit that was there before is dropped
afterwards. -/
def acquire (rehearsal : BreakerRehearsal) (slot : String) :
    Except Failure Unit × BreakerRehearsal :=
  match rehearsal.enter with
  | (.ok (), admitted) =>
    let dropped := (admitted.finish slot .ignored).2
    (.ok (), { dropped with permits := slot :: dropped.permits })
  | (.error failure, rejected) => (.error failure, rejected)

/-- A call is admitted and tells an outcome at once: the state after that. -/
def call (rehearsal : BreakerRehearsal) (outcome : Outcome) :
    Except Failure BreakerStatus × BreakerRehearsal :=
  match rehearsal.enter with
  | (.ok (), admitted) =>
    let told := admitted.tell outcome
    (.ok told.status, told)
  | (.error failure, rejected) => (.error failure, rejected)

/-- Calls that follow one another. -/
def calls (rehearsal : BreakerRehearsal) :
    List Outcome → List (Except Failure BreakerStatus) × BreakerRehearsal
  | [] => ([], rehearsal)
  | outcome :: rest =>
    let (status, rehearsal) := rehearsal.call outcome
    let (others, rehearsal) := rehearsal.calls rest
    (status :: others, rehearsal)

/-- Time passes. -/
def advance (rehearsal : BreakerRehearsal) (millis : Nat) : BreakerRehearsal :=
  { rehearsal with now := rehearsal.now + restMillis millis }

/-- A call of a scripted operation. -/
def run (rehearsal : BreakerRehearsal) (script : Script) : Except Failure Unit × BreakerRehearsal :=
  match rehearsal.enter with
  | (.ok (), admitted) =>
    let done := script.waits.foldl advance admitted
    (script.result, done.tell (.of script.result))
  | (.error failure, rejected) => (.error failure, rejected)

end BreakerRehearsal

end Clearing
