import Clearing.Proofs.Ledger.Totals

/-!
# Totals that overflow

A query for totals is aborted exactly if somewhere on the way what a transaction
costs at present, or the total that it is added to, lies half a unit below the
bound of mantissas or further out (`Ledger.Overflows`, `totals_eq_error_iff`).
Nothing that is checked when a transaction is saved rules this out: the check
asks for what it costs at that time and bounds it from above only.
-/

namespace Clearing

namespace Ledger

variable {κ : Type} [Ord κ]

/-- When transactions are added to totals an amount does not fit: what one of them costs, or a
total. -/
inductive Overflows (ledger : Ledger) (keyOf? : Transaction → Option κ) :
    Table κ Decimal → List Transaction → Prop
  | cost {totals : Table κ Decimal} {transaction : Transaction} {rest : List Transaction}
      {product : Product} (hproduct : ledger.product? transaction.product = some product)
      (hlarge : Decimal.limit ≤ |product.cost.value * transaction.quantity|) :
      Overflows ledger keyOf? totals (transaction :: rest)
  | total {totals : Table κ Decimal} {transaction : Transaction} {rest : List Transaction}
      {product : Product} {cost : Decimal} {key : κ}
      (hproduct : ledger.product? transaction.product = some product)
      (hcost : product.cost.times? transaction.quantity = some cost)
      (hkey : keyOf? transaction = some key)
      (hlarge : Decimal.limit ≤ |((totals.find? key).getD .zero).value + cost.value|) :
      Overflows ledger keyOf? totals (transaction :: rest)
  | later {totals next : Table κ Decimal} {transaction : Transaction} {rest : List Transaction}
      (hadded : ledger.addCost keyOf? totals transaction = .ok next)
      (hrest : Overflows ledger keyOf? next rest) :
      Overflows ledger keyOf? totals (transaction :: rest)

variable {ledger : Ledger} {keyOf? : Transaction → Option κ} {totals : Table κ Decimal}
  {transaction : Transaction}

/-- One transaction cannot be added exactly if its cost or its total does not fit. -/
theorem addCost_eq_error_iff :
    (∃ cause, ledger.addCost keyOf? totals transaction = .error cause) ↔
      ∃ product, ledger.product? transaction.product = some product ∧
        (Decimal.limit ≤ |product.cost.value * transaction.quantity| ∨
          ∃ cost key, product.cost.times? transaction.quantity = some cost ∧
            keyOf? transaction = some key ∧
              Decimal.limit ≤ |((totals.find? key).getD .zero).value + cost.value|) := by
  cases hproduct : ledger.product? transaction.product with
  | none =>
      rw [addCost_of_unknown hproduct]
      simp
  | some product =>
      simp only [Option.some.injEq, exists_eq_left']
      cases hcost : product.cost.times? transaction.quantity with
      | none =>
          have herror : ledger.addCost keyOf? totals transaction = .error .productOverflow := by
            simp only [addCost, cost?, hproduct, hcost, bind, Except.bind]
          exact iff_of_true ⟨_, herror⟩ (.inl (Decimal.times?_eq_none_iff.mp hcost))
      | some cost =>
          have hfits : ¬ Decimal.limit ≤ |product.cost.value * transaction.quantity| := by
            rw [← Decimal.times?_eq_none_iff, hcost]
            exact Option.some_ne_none _
          rw [addCost_of_known hproduct hcost]
          cases hkey : keyOf? transaction with
          | none =>
              refine iff_of_false ?_ ?_
              · rintro ⟨_, hadded⟩
                cases hadded
              · rintro (hlarge | ⟨_, _, _, hnone, _⟩)
                · exact hfits hlarge
                · cases hnone
          | some key =>
              simp only [hfits, false_or, Option.some.injEq, exists_and_left, exists_eq_left',
                ← Decimal.add?_eq_none_iff, addTo]
              cases ((totals.find? key).getD .zero).add? cost <;> simp

/-- Transactions cannot be added to totals exactly if that overflows. -/
theorem foldlM_addCost_eq_error_iff (transactions : List Transaction) :
    (∃ cause, transactions.foldlM (ledger.addCost keyOf?) totals = .error cause) ↔
      ledger.Overflows keyOf? totals transactions := by
  induction transactions generalizing totals with
  | nil => exact iff_of_false nofun nofun
  | cons transaction rest ih =>
      rw [List.foldlM_cons]
      cases hadded : ledger.addCost keyOf? totals transaction with
      | error cause =>
          refine iff_of_true ⟨cause, rfl⟩ ?_
          obtain ⟨product, hproduct, hlarge | ⟨cost, key, hcost, hkey, hlarge⟩⟩ :=
            addCost_eq_error_iff.mp ⟨cause, hadded⟩
          · exact .cost hproduct hlarge
          · exact .total hproduct hcost hkey hlarge
      | ok next =>
          have hfits : ¬ ∃ cause, ledger.addCost keyOf? totals transaction = .error cause := by
            rw [hadded]
            exact nofun
          rw [addCost_eq_error_iff] at hfits
          refine ih.trans ⟨.later hadded, fun hoverflows => ?_⟩
          cases hoverflows with
          | cost hproduct hlarge => exact absurd ⟨_, hproduct, .inl hlarge⟩ hfits
          | total hproduct hcost hkey hlarge =>
              exact absurd ⟨_, hproduct, .inr ⟨_, _, hcost, hkey, hlarge⟩⟩ hfits
          | later hother hrest =>
              rw [hadded] at hother
              cases hother
              exact hrest

section Moderate

variable [Std.TransOrd κ] [Std.LawfulEqOrd κ] [DecidableEq κ]

/-- What a transaction that is added costs is at most half a unit more than it should be. -/
private theorem abs_value_of_spent {product : Product} {cost : Decimal}
    (hproduct : ledger.product? transaction.product = some product)
    (hcost : product.cost.times? transaction.quantity = some cost) :
    |cost.value| ≤ |ledger.spent transaction| + 1 / 2 := by
  rw [spent, hproduct]
  exact Decimal.abs_value_of_times? hcost

/-- As long as the totals are moderate nothing overflows: each transaction adds what it costs, and
at most a unit by rounding. -/
private theorem not_overflows_from (transactions : List Transaction) {bound : ℚ}
    (hbound : 0 ≤ bound) (htotals : ∀ key, |((totals.find? key).getD .zero).value| ≤ bound)
    (hmoderate : bound + (transactions.map fun transaction => |ledger.spent transaction| + 1).sum <
      Decimal.limit) : ¬ ledger.Overflows keyOf? totals transactions := by
  induction transactions generalizing totals bound with
  | nil => exact nofun
  | cons transaction rest ih =>
      rw [List.map_cons, List.sum_cons] at hmoderate
      have hrest : 0 ≤ (rest.map fun transaction => |ledger.spent transaction| + 1).sum :=
        List.sum_nonneg fun amount hamount => by
          obtain ⟨other, -, rfl⟩ := List.mem_map.mp hamount
          positivity
      have hspent := abs_nonneg (ledger.spent transaction)
      intro hoverflows
      cases hoverflows with
      | @cost _ _ _ product hproduct hlarge =>
          have hsame : ledger.spent transaction = product.cost.value * transaction.quantity := by
            rw [spent, hproduct]
          rw [← hsame] at hlarge
          linarith
      | @total _ _ _ product cost key hproduct hcost hkey hlarge =>
          have hcost := abs_value_of_spent hproduct hcost
          have hsum := abs_add_le ((totals.find? key).getD .zero).value cost.value
          linarith [htotals key]
      | @later _ next _ _ hadded hlater =>
          have hnext : 0 ≤ bound + (|ledger.spent transaction| + 1) := by linarith
          refine ih hnext ?_ (by linarith) hlater
          intro other
          rcases addCost_eq_ok hadded with
            rfl | ⟨product, cost, key, total, hproduct, hcost, -, htotal, rfl⟩
          · linarith [htotals other]
          · rw [Table.find?_insert]
            split
            · have hcost := abs_value_of_spent hproduct hcost
              have htotal := Decimal.abs_value_of_add? htotal
              have hsum := abs_add_le ((totals.find? key).getD .zero).value cost.value
              rw [Option.getD_some]
              linarith [htotals key]
            · linarith [htotals other]

end Moderate

/-- **When a query for totals is aborted.** -/
theorem totals_eq_error_iff (ledger : Ledger) (keyOf? : Transaction → Option κ) :
    (∃ cause, ledger.totals keyOf? = .error cause) ↔
      ledger.Overflows keyOf? [] ledger.transactions.values := by
  rw [totals_eq]
  exact foldlM_addCost_eq_error_iff _

/-- The query for the totals of the customers overflows. -/
def CustomersOverflow (ledger : Ledger) : Prop :=
  ledger.Overflows ledger.customerKey? [] ledger.transactions.values

/-- The query for the totals of the products overflows. -/
def ProductsOverflow (ledger : Ledger) : Prop :=
  ledger.Overflows productKey? [] ledger.transactions.values

theorem customerTotals_eq_error_iff (ledger : Ledger) :
    (∃ cause, ledger.customerTotals = .error cause) ↔ ledger.CustomersOverflow := by
  rw [CustomersOverflow, ← totals_eq_error_iff, customerTotals_eq]
  cases ledger.totals ledger.customerKey? <;> simp [Except.map]

theorem productTotals_eq_error_iff (ledger : Ledger) :
    (∃ cause, ledger.productTotals = .error cause) ↔ ledger.ProductsOverflow := by
  rw [ProductsOverflow, ← totals_eq_error_iff, productTotals_eq]
  cases ledger.totals productKey? <;> simp [Except.map]

/-- **As long as all amounts together are moderate the queries return**: what the transactions cost
at present, with a unit more for each of them, stays below the limit. -/
theorem not_overflow_of_moderate
    (hmoderate : (ledger.transactions.values.map fun transaction =>
      |ledger.spent transaction| + 1).sum < Decimal.limit) :
    ¬ ledger.CustomersOverflow ∧ ¬ ledger.ProductsOverflow := by
  have hnothing {κ : Type} [Ord κ] (key : κ) :
      |((Table.find? ([] : Table κ Decimal) key).getD .zero).value| ≤ 0 := by
    rw [Table.find?, Option.getD_none, Decimal.value_zero, abs_zero]
  rw [← zero_add (List.sum _)] at hmoderate
  exact ⟨not_overflows_from _ le_rfl hnothing hmoderate,
    not_overflows_from _ le_rfl hnothing hmoderate⟩

end Ledger

end Clearing
