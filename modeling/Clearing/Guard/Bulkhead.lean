import Clearing.Settings

/-!
# Bulkheads

A bulkhead has a fixed number of slots.  A call that finds one free takes it; a
call that does not may wait its turn.  Those who wait stand in line with a
ticket: a slot that is given back goes to the oldest ticket, whose owner then
takes it as soon as it looks.  A ticket that is given up leaves the line, and if
a slot was already assigned to it the slot is given back.

A slot is therefore free, assigned to a ticket or held by a call.
-/

namespace Clearing

/-- A bulkhead. -/
structure Bulkhead where
  capacity : Nat
  maxWaitMillis : Nat
  /-- The number of free slots. -/
  free : Nat
  /-- The tickets that wait, the oldest first. -/
  waiting : List Nat
  /-- The tickets that a slot is assigned to, the oldest first. -/
  assigned : List Nat
  /-- The number of the next ticket. -/
  nextTicket : Nat
  deriving DecidableEq, Repr

namespace Bulkhead

/-- The largest number of slots that a bulkhead can have. -/
def maxCapacity : Nat := 2305843009213693951

/-- A bulkhead with all slots free. -/
def new (settings : BulkheadSettings) : Bulkhead :=
  { capacity := settings.maxConcurrent
    maxWaitMillis := settings.maxWaitMillis
    free := settings.maxConcurrent
    waiting := []
    assigned := []
    nextTicket := 0 }

/-- A bulkhead with all slots free, unless it would have too many. -/
def new? (settings : BulkheadSettings) : Option Bulkhead :=
  if settings.maxConcurrent ≤ maxCapacity then some (new settings) else none

/-- Takes a free slot. -/
def take? (bulkhead : Bulkhead) : Option Bulkhead :=
  if 0 < bulkhead.free then some { bulkhead with free := bulkhead.free - 1 } else none

/-- Stands in line: the ticket, and the bulkhead after that. -/
def queue (bulkhead : Bulkhead) : Nat × Bulkhead :=
  (bulkhead.nextTicket,
    { bulkhead with
      waiting := bulkhead.waiting ++ [bulkhead.nextTicket]
      nextTicket := bulkhead.nextTicket + 1 })

/-- Takes the slot that is assigned to a ticket. -/
def claim? (bulkhead : Bulkhead) (ticket : Nat) : Option Bulkhead :=
  if ticket ∈ bulkhead.assigned then
    some { bulkhead with assigned := bulkhead.assigned.erase ticket }
  else none

/-- Gives a slot back: it is assigned to the oldest ticket or becomes free. -/
def release (bulkhead : Bulkhead) : Bulkhead :=
  match bulkhead.waiting with
  | [] => { bulkhead with free := bulkhead.free + 1 }
  | oldest :: rest =>
    { bulkhead with waiting := rest, assigned := bulkhead.assigned ++ [oldest] }

/-- Gives a ticket up. -/
def giveUp (bulkhead : Bulkhead) (ticket : Nat) : Bulkhead :=
  match bulkhead.claim? ticket with
  | some claimed => claimed.release
  | none => { bulkhead with waiting := bulkhead.waiting.erase ticket }

/-! ## Asking for a slot -/

/-- What a call hears that asks for a slot. -/
inductive SlotAnswer where
  | taken
  | refused
  /-- It may stand in line until a given time. -/
  | mayWait (latest : Nat)
  | queued (ticket latest : Nat)
  deriving DecidableEq, Repr

/-- A call asks for a slot. -/
def ask (bulkhead : Bulkhead) (now : Nat) : SlotAnswer × Bulkhead :=
  match bulkhead.take? with
  | some taken => (.taken, taken)
  | none =>
    (if bulkhead.maxWaitMillis = 0 then .refused else .mayWait (now + bulkhead.maxWaitMillis),
      bulkhead)

/-- A call that may stand in line takes a slot that has become free, or else stands in line. -/
def lineUp (bulkhead : Bulkhead) (latest : Nat) : SlotAnswer × Bulkhead :=
  match bulkhead.take? with
  | some taken => (.taken, taken)
  | none =>
    let (ticket, queued) := bulkhead.queue
    (.queued ticket latest, queued)

/-- A call that stands in line looks again: it takes the slot that is assigned to its ticket, or
gives up when its time is over, or goes on waiting. -/
def askAgain? (bulkhead : Bulkhead) (now ticket latest : Nat) : Option (SlotAnswer × Bulkhead) :=
  match bulkhead.claim? ticket with
  | some claimed => some (.taken, claimed)
  | none => if latest ≤ now then some (.refused, bulkhead.giveUp ticket) else none

/-- The tickets that a slot was assigned to since the bulkhead was as it was before. -/
def newlyAssigned (before after : Bulkhead) : List Nat :=
  after.assigned.filter fun ticket => ticket ∉ before.assigned

/-! ## Conservation -/

/-- The slots that are neither free nor assigned to a ticket. -/
def held (bulkhead : Bulkhead) : Nat :=
  bulkhead.capacity - bulkhead.free - bulkhead.assigned.length

theorem capacity_release (bulkhead : Bulkhead) : bulkhead.release.capacity = bulkhead.capacity := by
  rw [release]
  split <;> rfl

/-- Giving a slot back makes one more slot free or assigned. -/
theorem free_add_assigned_release (bulkhead : Bulkhead) :
    bulkhead.release.free + bulkhead.release.assigned.length =
      bulkhead.free + bulkhead.assigned.length + 1 := by
  rw [release]
  split <;> simp <;> omega

end Bulkhead

end Clearing
