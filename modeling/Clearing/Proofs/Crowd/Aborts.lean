import Clearing.Proofs.Crowd.Lawful
import Clearing.Proofs.Ledger.Overflow
import Clearing.Proofs.Summaries.Answer

/-!
# Queries that are aborted

At every moment of a run in memory a query for a summary is answered: with rows,
unless they are not in the cache and the totals overflow (`Run.summaries_abort_iff`).
Runs in which they do overflow are easily had, although all that is saved was
checked: an amount that is far below zero passes the check, and what a
transaction costs is no more than what its product costs at present.
-/

namespace Clearing

namespace Crowd

/-- The session that goes on from here while nobody else moves. -/
def session (crowd : Crowd) (allowance : Nat) : Session :=
  { now := crowd.now, allowance, pipeline := crowd.place.pipeline }

/-- The summary of the customers is not in the cache, and their totals overflow. -/
def CustomersFail (crowd : Crowd) : Prop :=
  crowd.summaries.customers? crowd.now = none ∧ crowd.ledger.CustomersOverflow

/-- The summary of the products is not in the cache, and their totals overflow. -/
def ProductsFail (crowd : Crowd) : Prop :=
  crowd.summaries.products? crowd.now = none ∧ crowd.ledger.ProductsOverflow

variable {crowd : Crowd}

theorem fails_customers_iff :
    SummaryKind.customers.Fails crowd.resources crowd.now ↔ crowd.CustomersFail :=
  and_congr_right fun _ => crowd.ledger.customerTotals_eq_error_iff

theorem fails_products_iff :
    SummaryKind.products.Fails crowd.resources crowd.now ↔ crowd.ProductsFail :=
  and_congr_right fun _ => crowd.ledger.productTotals_eq_error_iff

namespace Run

variable {run : Run}

theorem isFair_session (hbegins : run.Begins) (hmemory : run.InMemory) (index allowance : Nat) :
    ((run.moment index).session allowance).pipeline.resources.IsFair :=
  isFair hbegins hmemory index

theorem customers_abort_iff (hbegins : run.Begins) (hmemory : run.InMemory)
    (index allowance : Nat) :
    ((∃ cause, (((run.moment index).session allowance).tell .customerSummary).1 =
        some (.customerSummary (.aborted cause))) ↔ (run.moment index).CustomersFail) ∧
      ((∃ rows, (((run.moment index).session allowance).tell .customerSummary).1 =
        some (.customerSummary (.returned (.ok rows)))) ↔ ¬ (run.moment index).CustomersFail) := by
  rw [Session.tell_customerSummary (isFair_session hbegins hmemory index allowance),
    ← fails_customers_iff]
  simp only [Option.some.injEq, Reply.customerSummary.injEq]
  exact SummaryKind.customers.answer_iff _ _

theorem products_abort_iff (hbegins : run.Begins) (hmemory : run.InMemory)
    (index allowance : Nat) :
    ((∃ cause, (((run.moment index).session allowance).tell .productSummary).1 =
        some (.productSummary (.aborted cause))) ↔ (run.moment index).ProductsFail) ∧
      ((∃ rows, (((run.moment index).session allowance).tell .productSummary).1 =
        some (.productSummary (.returned (.ok rows)))) ↔ ¬ (run.moment index).ProductsFail) := by
  rw [Session.tell_productSummary (isFair_session hbegins hmemory index allowance),
    ← fails_products_iff]
  simp only [Option.some.injEq, Reply.productSummary.injEq]
  exact SummaryKind.products.answer_iff _ _

/-- **When a query for a summary is aborted.**  At every moment of a run in memory both queries are
answered: they are aborted if their rows are not in the cache and the totals overflow, and return
rows otherwise. -/
theorem summaries_abort_iff (hbegins : run.Begins) (hmemory : run.InMemory)
    (index allowance : Nat) :
    (((∃ cause, (((run.moment index).session allowance).tell .customerSummary).1 =
          some (.customerSummary (.aborted cause))) ↔ (run.moment index).CustomersFail) ∧
        ((∃ rows, (((run.moment index).session allowance).tell .customerSummary).1 =
          some (.customerSummary (.returned (.ok rows)))) ↔ ¬ (run.moment index).CustomersFail)) ∧
      ((∃ cause, (((run.moment index).session allowance).tell .productSummary).1 =
          some (.productSummary (.aborted cause))) ↔ (run.moment index).ProductsFail) ∧
        ((∃ rows, (((run.moment index).session allowance).tell .productSummary).1 =
          some (.productSummary (.returned (.ok rows)))) ↔ ¬ (run.moment index).ProductsFail) :=
  ⟨customers_abort_iff hbegins hmemory index allowance,
    products_abort_iff hbegins hmemory index allowance⟩

end Run

/-! ## A total that fits and cannot be had -/

/-- The largest amount. -/
private def largestAmount : Decimal :=
  { Decimal.zero with
    mantissa := Decimal.mantissaBound - 1
    mantissa_lt := Nat.sub_one_lt nofun
    zero_unsigned := fun _ => rfl }

/-- Something for which a customer gets the largest amount. -/
private def refund : Product :=
  { code := "R1", cost := { largestAmount with negative := true, zero_unsigned := nofun }
    status := Product.activeStatus }

/-- Something that has become as dear as can be. -/
private def treasure : Product :=
  { code := "P1", cost := largestAmount, status := Product.activeStatus }

/-- A customer gets two refunds and buys something cheap, which becomes dear after that. -/
private def overdrawnScript : List Instruction :=
  [.tell (.putProduct refund), .task 0] ++
    .tell (.process (.new 1 "R1" 1 .text)) :: List.replicate 24 (.task 1) ++
      .tell (.process (.new 1 "R1" 1 .text)) :: List.replicate 24 (.task 2) ++
        .tell (.process (.new 1 "P1" 1 .text)) :: List.replicate 24 (.task 3) ++
          [.tell (.putProduct treasure), .task 4]

/-- The run by this script. -/
def overdrawn : Run :=
  .ofScript { now := 0, place := .new smallPipeline, tasks := [] } overdrawnScript

theorem begins_overdrawn : overdrawn.Begins :=
  ⟨_, _, _, _, 0, new?_smallPipeline, rfl⟩

theorem inMemory_overdrawn : overdrawn.InMemory := by
  refine Run.inMemory_ofScript (List.forall_mem_nil _) ?_
  intro command hcommand
  have htold : command = .putProduct refund ∨ command = .process (.new 1 "R1" 1 .text) ∨
      command = .process (.new 1 "P1" 1 .text) ∨ command = .putProduct treasure := by
    simpa [overdrawnScript] using hcommand
  rcases htold with rfl | rfl | rfl | rfl <;> trivial

/-- What the customer owes at the end fits, but the refunds are added up first. -/
theorem customersFail_overdrawn : (overdrawn.moment 79).CustomersFail := by
  refine ⟨by decide +kernel, ?_⟩
  rw [← Ledger.customerTotals_eq_error_iff]
  have hfails : (overdrawn.moment 79).ledger.customerTotals.isOk = false := by decide +kernel
  cases htotals : (overdrawn.moment 79).ledger.customerTotals with
  | error cause => exact ⟨cause, rfl⟩
  | ok rows =>
      rw [htotals] at hfails
      cases hfails

/-- All three transactions were saved by the pipeline, and together they cost an amount that
fits, but the query for the summary of the customers is aborted. -/
theorem summaries_abort_overdrawn :
    (overdrawn.moment 79).ledger.transactions.length = 3 ∧
      |(overdrawn.moment 79).ledger.turnover| < Decimal.limit ∧
        ∃ cause, (((overdrawn.moment 79).session 128).tell .customerSummary).1 =
          some (.customerSummary (.aborted cause)) := by
  refine ⟨by decide +kernel, ?_, ?_⟩
  · have hturnover : (overdrawn.moment 79).ledger.turnover = -79228162514264337593543950335 := by
      decide +kernel
    rw [hturnover]
    norm_num [Decimal.limit]
  · exact (Run.summaries_abort_iff begins_overdrawn inMemory_overdrawn 79 128).1.1.mpr
      customersFail_overdrawn

/-- **A query for a summary need not return**, although the run is one in memory and began without
transactions. -/
theorem not_summaries_return :
    ¬ ∀ (run : Run) (index allowance : Nat), run.Begins → run.InMemory →
      (run.moment 0).ledger.transactions = [] →
        ∃ rows, (((run.moment index).session allowance).tell .customerSummary).1 =
          some (.customerSummary (.returned (.ok rows))) := by
  intro hreturns
  obtain ⟨rows, hrows⟩ := hreturns overdrawn 79 128 begins_overdrawn inMemory_overdrawn rfl
  exact (Run.customers_abort_iff begins_overdrawn inMemory_overdrawn 79 128).2.mp ⟨rows, hrows⟩
    customersFail_overdrawn

end Crowd

end Clearing
