import Clearing.Ledger
import Clearing.Transaction.Record

/-!
# Fixtures

A fixture is a JSON document with reference data and with documents of
transactions, all that is needed to run a pipeline on its own.  Each of its
lists may be left out.  A fixture cannot be read at all if one of its customers
or products cannot; a bad document of a transaction only spoils that
transaction.
-/

namespace Clearing

/-- Reference data and documents of transactions. -/
structure Fixture where
  customers : List Customer
  products : List Product
  documents : List Payload

namespace Fixture

/-- The lists in order. -/
def fieldNames : List String := ["customers", "products", "transactions"]

/-- Documents may nest this deep: the fixture and its list stand around them. -/
def maxDocumentDepth : Nat := Value.maxDepth - 2

/-- A document. -/
def document? (json : Json) : Option Payload := do
  match ← Value.ofJson? maxDocumentDepth json with
  | .object members => pure members
  | _ => none

/-- A list; one that was left out is empty. -/
def list? {α : Type} (read : Json → Option α) : Option Json → Option (List α)
  | none => some []
  | some (.array items) => items.mapM read
  | some _ => none

/-- The fixture that a JSON tree describes. -/
def ofJson? (json : Json) : Option Fixture := do
  match ← json.fields? fieldNames with
  | [customers, products, documents] =>
    pure
      { customers := ← list? Customer.ofJson? customers
        products := ← list? Product.ofJson? products
        documents := ← list? document? documents }
  | _ => none

/-- The fixture in a JSON text. -/
def ofBytes? (bytes : Bytes) : Option Fixture :=
  (Json.ofBytes? bytes).bind ofJson?

/-- A ledger with the reference data and no transactions. -/
def ledger (fixture : Fixture) : Ledger :=
  fixture.products.foldl Ledger.putProduct
    (fixture.customers.foldl Ledger.putCustomer (.empty .initial))

/-- What the documents say, each as a transaction of a format. -/
def transactions (fixture : Fixture) (format : WireFormat) : List (Except Failure Transaction) :=
  fixture.documents.map fun document => Transaction.ofDocument document format 0

end Fixture

end Clearing
