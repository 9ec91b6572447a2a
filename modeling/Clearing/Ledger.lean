import Clearing.Operation
import Clearing.Reference
import Clearing.Summary
import Clearing.Table
import Clearing.Transaction

/-!
# The ledger

The ledger holds the reference data and the transactions that were saved.  A
transaction is saved under its identifier; one without an identifier gets the
next number of a sequence, which wraps around after the largest number of 64
bits.

Totals are taken over the saved transactions in the order of their identifiers,
at the present cost of the products.  A transaction whose product is not known
does not count.  Amounts are added one by one, and an amount that does not fit
aborts the whole query.
-/

namespace Clearing

/-- A sequence of identifiers. -/
structure IdSequence where
  next : Int64
  deriving DecidableEq

namespace IdSequence

/-- The sequence that begins with a number. -/
def startingAt (first : Int) : IdSequence := ⟨Int64.ofInt first⟩

/-- The number a sequence begins with if nothing else is said. -/
def initial : IdSequence := startingAt 1

/-- The next number, and the sequence after it. -/
def take (ids : IdSequence) : Int × IdSequence :=
  (ids.next.toInt, ⟨ids.next + 1⟩)

/-- The next `count` numbers. -/
def takeMany (ids : IdSequence) : Nat → List Int
  | 0 => []
  | count + 1 => ids.take.1 :: ids.take.2.takeMany count

example : (startingAt 9223372036854775807).takeMany 2 = [9223372036854775807, -9223372036854775808] := by
  decide

end IdSequence

/-- The reference data and the saved transactions. -/
structure Ledger where
  customers : Table Int Customer
  products : Table String Product
  transactions : Table Int Transaction
  ids : IdSequence

namespace Ledger

/-- A ledger that holds nothing. -/
def empty (ids : IdSequence) : Ledger :=
  { customers := [], products := [], transactions := [], ids }

/-- The ledger with a customer, in place of the one with the same identifier. -/
def putCustomer (ledger : Ledger) (customer : Customer) : Ledger :=
  { ledger with customers := ledger.customers.insert customer.id customer }

/-- The ledger with a product, in place of the one with the same code. -/
def putProduct (ledger : Ledger) (product : Product) : Ledger :=
  { ledger with products := ledger.products.insert product.code product }

/-- The customer is known. -/
def hasCustomer (ledger : Ledger) (id : Int) : Bool :=
  (ledger.customers.find? id).isSome

/-- The product with a code. -/
def product? (ledger : Ledger) (code : String) : Option Product :=
  ledger.products.find? code

/-- The transaction as it is saved, and the ledger after that. -/
def save (ledger : Ledger) (transaction : Transaction) : Transaction × Ledger :=
  match transaction.id with
  | some id =>
    (transaction, { ledger with transactions := ledger.transactions.insert id transaction })
  | none =>
    let (id, ids) := ledger.ids.take
    let numbered := transaction.withId id
    (numbered, { ledger with ids, transactions := ledger.transactions.insert id numbered })

/-! ## Totals -/

/-- What a transaction costs at present; nothing is said about one whose product is not known. -/
def cost? (ledger : Ledger) (transaction : Transaction) : Except Abort (Option Decimal) :=
  match ledger.product? transaction.product with
  | none => .ok none
  | some product =>
    match product.cost.times? transaction.quantity with
    | some cost => .ok (some cost)
    | none => .error .productOverflow

/-- Adds an amount to the total under a key, which starts from nothing. -/
def addTo {κ : Type} [Ord κ] (totals : Table κ Decimal) (key : κ) (amount : Decimal) :
    Except Abort (Table κ Decimal) :=
  match ((totals.find? key).getD .zero).add? amount with
  | some total => .ok (totals.insert key total)
  | none => .error .sumOverflow

/-- The totals under the keys that `keyOf?` gives to transactions. -/
def totals {κ : Type} [Ord κ] (ledger : Ledger) (keyOf? : Transaction → Option κ) :
    Except Abort (Table κ Decimal) :=
  ledger.transactions.values.foldlM
    (fun totals transaction => do
      match ← ledger.cost? transaction, keyOf? transaction with
      | some cost, some key => addTo totals key cost
      | _, _ => pure totals)
    []

/-- The totals of the customers who bought something, in the order of their identifiers. -/
def customerTotals (ledger : Ledger) : Except Abort (List CustomerTotal) := do
  let totals ← ledger.totals fun transaction =>
    (ledger.customers.find? transaction.customer).map fun _ => transaction.customer
  pure (totals.filterMap fun (id, total) =>
    (ledger.customers.find? id).map fun customer =>
      { customer := id, firstName := customer.firstName, lastName := customer.lastName, total })

/-- The totals of the products that were bought, in the order of their codes. -/
def productTotals (ledger : Ledger) : Except Abort (List ProductTotal) := do
  let totals ← ledger.totals fun transaction => some transaction.product
  pure (totals.filterMap fun (code, total) =>
    (ledger.product? code).map fun product => { product := code, status := product.status, total })

/-- The number of saved transactions of customers at a location. -/
def countAt (ledger : Ledger) (location : String) : Nat :=
  ledger.transactions.values.countP fun transaction =>
    ((ledger.customers.find? transaction.customer).bind (·.location)) = some location

end Ledger

end Clearing
