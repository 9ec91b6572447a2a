import Clearing.Failure
import Clearing.Reference
import Clearing.Transaction

/-!
# Rules

A transaction must satisfy all rules before it is saved.  They are checked in a
fixed order and the first one that is violated is reported: there must be a
transaction, its customer must be known, its product must be known and active,
its cost must not exceed the ceiling, its quantity must be positive, and it must
not lie in the past.
-/

namespace Clearing

/-- Checks what some of a product cost. -/
def checkCost (cost : Decimal) (quantity : Int) : Except Violation Unit :=
  match cost.times? quantity with
  | some total => if costCeiling.lt total then .error (.costExceeded total) else .ok ()
  | none => .error (.costOverflow cost quantity)

/-- The time lies in the past. -/
def isPast (clock : Timestamp) (time : Option Timestamp) : Bool :=
  time.any fun time => time.before clock

/-- Checks the rules about a product that was looked up, if it was found, and those about the
transaction itself. -/
def Transaction.checkAgainst (transaction : Transaction) (product : Option Product)
    (clock : Timestamp) : Except Violation Unit := do
  match product with
  | none => throw (.unknownProduct transaction.product)
  | some product =>
    if !product.isActive then throw (.inactiveProduct transaction.product)
    checkCost product.cost transaction.quantity
    if transaction.quantity ≤ 0 then throw .quantityNotPositive
    if isPast clock transaction.time then throw .timeInPast

end Clearing
