import Clearing.Proofs.Crowd.Lawful
import Clearing.Proofs.Ledger.Totals

/-!
# The two summaries agree

In a run in memory that begins without transactions, every row was written for a
submission, and whoever wrote it had been told of its customer and its product.
Both were in the ledger then, although the cache may have been asked, and what
is in the ledger stays there.  So no transaction is left out by a query for
totals, and as long as no digit is dropped the totals of the customers and those
of the products both add up to what all transactions cost at present
(`Crowd.Run.summaries_agree`).
-/

namespace Clearing

namespace Crowd.Run

variable {run : Run}

/-- What may be believed at an index if only the ledger counts, however old the news are: which
customers and products there are. -/
def known (run : Run) (index : Nat) : Beliefs where
  customer id := (run.moment index).ledger.hasCustomer id = true
  product code _ := ((run.moment index).ledger.product? code).isSome = true
  clock _ := True

theorem support_known (hbegins : run.Begins) (hmemory : run.InMemory) (index : Nat) :
    (run.moment index).resources.Support (run.moment index).now run.clock (run.known index) where
  prompt kind := (isFair hbegins hmemory index kind).delay
  customer hcustomer := hcustomer
  product hproduct := Option.isSome_of_eq_some hproduct
  recalledCustomer hrecalled := by
    obtain ⟨since, ⟨heard, hle, -, hcustomer⟩, -⟩ :=
      (references_backed hbegins hmemory index).getCustomer hrecalled
    exact (ledger_grows hmemory hle).customer hcustomer
  recalledProduct hrecalled := by
    obtain ⟨found, since, -, ⟨heard, hle, -, hproduct⟩, -⟩ :=
      (references_backed hbegins hmemory index).getProduct hrecalled
    exact (ledger_grows hmemory hle).product (Option.isSome_of_eq_some hproduct)
  clock := trivial

theorem known_le_succ (hmemory : run.InMemory) (index : Nat) :
    (run.known index).Le (run.known (index + 1)) where
  customer hcustomer := (ledger_grows_succ hmemory index).customer hcustomer
  product hproduct := (ledger_grows_succ hmemory index).product hproduct
  clock := id

/-- **No reference is lost.**  The customer and the product of every transaction are known. -/
theorem covers (hbegins : run.Begins) (hmemory : run.InMemory)
    (hempty : (run.moment 0).ledger.transactions = []) (index : Nat) :
    (run.moment index).ledger.Covers := by
  intro transaction htransaction
  obtain ⟨row, hrow, rfl⟩ := List.mem_map.mp htransaction
  rcases mem_or_writes_of_mem hbegins hmemory hrow with
    hold | ⟨save, hsave, party, submission, hwrites⟩
  · rw [hempty] at hold
    cases hold
  · have hknows : submission.Knows (run.known save) :=
      knows hbegins (support_known hbegins hmemory)
        (fun index => .inl (known_le_succ hmemory index)) save party submission hwrites.1
    obtain ⟨hcustomer, product, clock, hproduct, -, -⟩ := accepts_of_writes hwrites hknows
    have hgrows := ledger_grows hmemory (Nat.le_of_lt hsave)
    obtain ⟨-, -, _, -, hturn⟩ := hwrites
    obtain ⟨id, time, ids, hsaved, -, -⟩ := hturn.row
    rw [hsaved]
    exact ⟨hgrows.customer hcustomer, hgrows.product hproduct⟩

end Crowd.Run

/-! ## Summaries -/

namespace Ledger

variable {ledger : Ledger}

/-- The summary of the customers and that of the products, as they are shown, both add up to the
turnover, and every transaction is in a row of each. -/
structure AgreeOn (ledger : Ledger) (customers : List CustomerTotal)
    (products : List ProductTotal) : Prop where
  customerSum : (customers.map fun row => row.total.value).sum = ledger.turnover
  productSum : (products.map fun row => row.total.value).sum = ledger.turnover
  customerRow : ∀ transaction ∈ ledger.transactions.values,
    ∃ row ∈ customers, row.customer = transaction.customer
  productRow : ∀ transaction ∈ ledger.transactions.values,
    ∃ row ∈ products, row.product = transaction.product

/-- If every customer and product is known and no digit is dropped the summaries agree. -/
theorem exists_agreeOn (hcovers : ledger.Covers)
    (hcustomers : ledger.isExact ledger.customerKey? [] ledger.transactions.values = true)
    (hproducts : ledger.isExact productKey? [] ledger.transactions.values = true) :
    ∃ customers products, SummaryKind.customers.Shows ledger customers ∧
      SummaryKind.products.Shows ledger products ∧ ledger.AgreeOn customers products := by
  obtain ⟨byCustomer, hcustomerTotals, hcustomerSum, hcustomer⟩ :=
    exists_customerTotals hcovers hcustomers
  obtain ⟨byProduct, hproductTotals, hproductSum, hproduct⟩ :=
    exists_productTotals hcovers hproducts
  refine ⟨_, _, ⟨byCustomer, hcustomerTotals, rfl⟩, ⟨byProduct, hproductTotals, rfl⟩,
    ?_, ?_, ?_, ?_⟩
  · rw [← hcustomerSum, List.map_map]
    simp only [Function.comp_def, SummaryKind.customers, CustomerTotal.normalized,
      value_normalizeMoney]
  · rw [← hproductSum, List.map_map]
    simp only [Function.comp_def, SummaryKind.products, ProductTotal.normalized,
      value_normalizeMoney]
  · intro transaction htransaction
    obtain ⟨row, hrow, hsame⟩ := hcustomer _ htransaction
    exact ⟨_, List.mem_map_of_mem hrow, hsame⟩
  · intro transaction htransaction
    obtain ⟨row, hrow, hsame⟩ := hproduct _ htransaction
    exact ⟨_, List.mem_map_of_mem hrow, hsame⟩

end Ledger

namespace Crowd

/-- **The two summaries agree.**  At every moment of a run in memory that begins without
transactions, if no digit is dropped both summaries are there, their grand totals are equal and are
what all transactions cost at present, and every transaction is in a row of each. -/
theorem Run.summaries_agree {run : Run} (hbegins : run.Begins) (hmemory : run.InMemory)
    (hempty : (run.moment 0).ledger.transactions = []) {index : Nat}
    (hcustomers : (run.moment index).ledger.isExact (run.moment index).ledger.customerKey? []
      (run.moment index).ledger.transactions.values = true)
    (hproducts : (run.moment index).ledger.isExact Ledger.productKey? []
      (run.moment index).ledger.transactions.values = true) :
    ∃ customers products, SummaryKind.customers.Shows (run.moment index).ledger customers ∧
      SummaryKind.products.Shows (run.moment index).ledger products ∧
        (customers.map fun row => row.total.value).sum =
          (products.map fun row => row.total.value).sum ∧
          (run.moment index).ledger.AgreeOn customers products := by
  obtain ⟨customers, products, hcustomers, hproducts, hagree⟩ :=
    Ledger.exists_agreeOn (covers hbegins hmemory hempty index) hcustomers hproducts
  exact ⟨customers, products, hcustomers, hproducts,
    hagree.customerSum.trans hagree.productSum.symm, hagree⟩

/-- After the price of the product has gone up and both transactions are saved, each summary has
the turnover at the new price. -/
theorem summaries_agree_staleProduct :
    (staleProduct.moment 53).ledger.transactions.length = 2 ∧
      (staleProduct.moment 53).ledger.turnover = 25000 ∧
        ∃ customers products,
          SummaryKind.customers.Shows (staleProduct.moment 53).ledger customers ∧
            SummaryKind.products.Shows (staleProduct.moment 53).ledger products ∧
              (customers.map fun row => row.total.value).sum =
                (products.map fun row => row.total.value).sum ∧
                (staleProduct.moment 53).ledger.AgreeOn customers products := by
  refine ⟨by decide +kernel, by decide +kernel, ?_⟩
  exact Run.summaries_agree begins_staleProduct inMemory_staleProduct rfl (by decide +kernel)
    (by decide +kernel)

end Crowd

end Clearing
