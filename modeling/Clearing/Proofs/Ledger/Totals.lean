import Mathlib.Algebra.BigOperators.Group.List.Basic
import Clearing.Ledger
import Clearing.Proofs.Number.Amount
import Clearing.Proofs.Table

/-!
# Totals

A query for totals goes through the saved transactions one by one and adds what
each costs at present to the total under its key.  If all amounts on the way are
exact (`Ledger.isExact`) the totals add up to what the transactions with a key
cost, each to what those under its key cost, and there is one for each key
(`AddsUp`, `exists_totals`).  If every customer and product is known, the rows of
both queries add up to the turnover and leave out no transaction
(`exists_customerTotals`, `exists_productTotals`).
-/

namespace Clearing

namespace Table

variable {κ : Type}

/-- The sum of the amounts in a table. -/
def worth (totals : Table κ Decimal) : ℚ :=
  (totals.map fun row => row.2.value).sum

@[simp] theorem worth_nil : worth ([] : Table κ Decimal) = 0 := rfl

/-- The amount under a key as a number; where there is none it is zero. -/
def under [Ord κ] (totals : Table κ Decimal) (key : κ) : ℚ :=
  ((totals.find? key).getD .zero).value

@[simp] theorem under_nil [Ord κ] (key : κ) : under ([] : Table κ Decimal) key = 0 :=
  Decimal.value_zero

theorem under_insert [Ord κ] [Std.TransOrd κ] [Std.LawfulEqOrd κ] [DecidableEq κ]
    (totals : Table κ Decimal) (key : κ) (amount : Decimal) (other : κ) :
    (totals.insert key amount).under other =
      if other = key then amount.value else totals.under other := by
  rw [under, find?_insert]
  split <;> rfl

/-- A table is worth more by as much as the amount under a key is. -/
theorem worth_insert [Ord κ] (totals : Table κ Decimal) (key : κ) (amount : Decimal) :
    (totals.insert key amount).worth =
      totals.worth - totals.under key + amount.value := by
  unfold under
  induction totals with
  | nil => simp [insert, worth]
  | cons row rest ih =>
      obtain ⟨other, old⟩ := row
      rw [insert, find?]
      cases compare key other with
      | lt => simp [worth, add_comm]
      | eq =>
          simp only [worth, List.map_cons, List.sum_cons, Option.getD_some]
          ring
      | gt =>
          simp only [worth, List.map_cons, List.sum_cons] at ih ⊢
          rw [ih]
          ring

end Table

namespace Ledger

variable {κ : Type} [Ord κ]

/-- What a transaction costs at present, as a number. -/
def spent (ledger : Ledger) (transaction : Transaction) : ℚ :=
  match ledger.product? transaction.product with
  | none => 0
  | some product => product.cost.value * transaction.quantity

/-- A transaction counts under a key if its product is known. -/
def Counts (ledger : Ledger) (keyOf? : Transaction → Option κ) (transaction : Transaction)
    (key : κ) : Prop :=
  (ledger.product? transaction.product).isSome = true ∧ keyOf? transaction = some key

omit [Ord κ] in
/-- A transaction counts under one key at most. -/
theorem Counts.iff_eq {ledger : Ledger} {keyOf? : Transaction → Option κ}
    {transaction : Transaction} {key other : κ} (hcounts : ledger.Counts keyOf? transaction key) :
    ledger.Counts keyOf? transaction other ↔ other = key :=
  ⟨fun hother => Option.some.inj (hother.2.symm.trans hcounts.2), fun hsame => hsame ▸ hcounts⟩

/-- One transaction is added to the totals under its key. -/
def addCost (ledger : Ledger) (keyOf? : Transaction → Option κ) (totals : Table κ Decimal)
    (transaction : Transaction) : Except Abort (Table κ Decimal) := do
  match ← ledger.cost? transaction, keyOf? transaction with
  | some cost, some key => addTo totals key cost
  | _, _ => pure totals

theorem totals_eq (ledger : Ledger) (keyOf? : Transaction → Option κ) :
    ledger.totals keyOf? = ledger.transactions.values.foldlM (ledger.addCost keyOf?) [] := rfl

/-- No digit is dropped when some transactions are added to totals: each amount is the cost times
the quantity, and each new total is the sum. -/
def isExact (ledger : Ledger) (keyOf? : Transaction → Option κ) :
    Table κ Decimal → List Transaction → Bool
  | _, [] => true
  | totals, transaction :: rest =>
    match ledger.product? transaction.product with
    | none => isExact ledger keyOf? totals rest
    | some product =>
      match product.cost.times? transaction.quantity with
      | none => false
      | some cost =>
        decide (cost.value = product.cost.value * transaction.quantity) &&
          match keyOf? transaction with
          | none => isExact ledger keyOf? totals rest
          | some key =>
            match ((totals.find? key).getD .zero).add? cost with
            | none => false
            | some total =>
              decide (total.value = ((totals.find? key).getD .zero).value + cost.value) &&
                isExact ledger keyOf? (totals.insert key total) rest

/-! ## One transaction -/

section Step

variable {ledger : Ledger} {keyOf? : Transaction → Option κ} {totals : Table κ Decimal}
  {transaction : Transaction}

theorem addCost_of_unknown (hproduct : ledger.product? transaction.product = none) :
    ledger.addCost keyOf? totals transaction = .ok totals := by
  simp only [addCost, cost?, hproduct, bind, Except.bind]
  rfl

theorem addCost_of_known {product : Product} {cost : Decimal}
    (hproduct : ledger.product? transaction.product = some product)
    (hcost : product.cost.times? transaction.quantity = some cost) :
    ledger.addCost keyOf? totals transaction =
      match keyOf? transaction with
      | some key => addTo totals key cost
      | none => .ok totals := by
  simp only [addCost, cost?, hproduct, hcost, bind, Except.bind]
  cases keyOf? transaction <;> rfl

/-- What the addition of a transaction makes of totals. -/
theorem addCost_eq_ok {next : Table κ Decimal}
    (hadded : ledger.addCost keyOf? totals transaction = .ok next) :
    next = totals ∨ ∃ product cost key total,
      ledger.product? transaction.product = some product ∧
        product.cost.times? transaction.quantity = some cost ∧
          keyOf? transaction = some key ∧
            ((totals.find? key).getD .zero).add? cost = some total ∧
              next = totals.insert key total := by
  cases hproduct : ledger.product? transaction.product with
  | none =>
      rw [addCost_of_unknown hproduct] at hadded
      cases hadded
      exact .inl rfl
  | some product =>
      cases hcost : product.cost.times? transaction.quantity with
      | none =>
          simp only [addCost, cost?, hproduct, hcost, bind, Except.bind] at hadded
          cases hadded
      | some cost =>
          rw [addCost_of_known hproduct hcost] at hadded
          split at hadded
          · rename_i key hkey
            unfold addTo at hadded
            split at hadded
            · rename_i total htotal
              cases hadded
              exact .inr ⟨product, cost, key, total, rfl, hcost, hkey, htotal, rfl⟩
            · cases hadded
          · cases hadded
            exact .inl rfl

/-- If no digit is dropped the first transaction does not count and the totals stay as they are, or
it is added under its key. -/
private theorem addCost_of_isExact {rest : List Transaction}
    (hexact : ledger.isExact keyOf? totals (transaction :: rest) = true) :
    (∀ key, ¬ ledger.Counts keyOf? transaction key) ∧
        ledger.addCost keyOf? totals transaction = .ok totals ∧
          ledger.isExact keyOf? totals rest = true ∨
      ∃ key total, ledger.Counts keyOf? transaction key ∧
        total.value = totals.under key + ledger.spent transaction ∧
          ledger.addCost keyOf? totals transaction = .ok (totals.insert key total) ∧
            ledger.isExact keyOf? (totals.insert key total) rest = true := by
  unfold isExact at hexact
  split at hexact
  · rename_i hproduct
    exact .inl ⟨fun key hcounts => by simp [Counts, hproduct] at hcounts,
      addCost_of_unknown hproduct, hexact⟩
  · rename_i product hproduct
    split at hexact
    · cases hexact
    · rename_i cost hcost
      obtain ⟨hvalue, hexact⟩ := Bool.and_eq_true_iff.mp hexact
      have hspent : ledger.spent transaction = cost.value := by
        simp only [spent, hproduct]
        exact (of_decide_eq_true hvalue).symm
      rw [addCost_of_known hproduct hcost]
      cases hkey : keyOf? transaction with
      | none =>
          rw [hkey] at hexact
          exact .inl ⟨fun key hcounts => by simp [Counts, hkey] at hcounts, rfl, hexact⟩
      | some key =>
          rw [hkey] at hexact
          dsimp only at hexact
          split at hexact
          · cases hexact
          · rename_i total htotal
            obtain ⟨hsum, hexact⟩ := Bool.and_eq_true_iff.mp hexact
            refine .inr ⟨key, total, ⟨by rw [hproduct, Option.isSome_some], hkey⟩, ?_, ?_, hexact⟩
            · rw [of_decide_eq_true hsum, hspent, Table.under]
            · simp only [addTo, htotal]

end Step

/-! ## All transactions -/

variable [Std.LawfulEqOrd κ]

/-- What some transactions cost that have a key. -/
def spentUnder (ledger : Ledger) (keyOf? : Transaction → Option κ)
    (transactions : List Transaction) : ℚ :=
  ((transactions.filter fun transaction => (keyOf? transaction).isSome).map ledger.spent).sum

variable [Std.TransOrd κ] [DecidableEq κ]

instance (ledger : Ledger) (keyOf? : Transaction → Option κ) (transaction : Transaction)
    (key : κ) : Decidable (ledger.Counts keyOf? transaction key) :=
  inferInstanceAs (Decidable (_ ∧ _))

/-- What some transactions cost that count under one key. -/
def spentFor (ledger : Ledger) (keyOf? : Transaction → Option κ) (key : κ)
    (transactions : List Transaction) : ℚ :=
  ((transactions.filter fun transaction => ledger.Counts keyOf? transaction key).map
    ledger.spent).sum

variable {ledger : Ledger} {keyOf? : Transaction → Option κ}

omit [Ord κ] [Std.LawfulEqOrd κ] [Std.TransOrd κ] [DecidableEq κ] in
theorem spentUnder_cons (transaction : Transaction) (rest : List Transaction) :
    ledger.spentUnder keyOf? (transaction :: rest) =
      ledger.spentUnder keyOf? [transaction] + ledger.spentUnder keyOf? rest := by
  cases hkey : keyOf? transaction <;> simp [spentUnder, hkey]

omit [Ord κ] [Std.LawfulEqOrd κ] [Std.TransOrd κ] in
theorem spentFor_cons (key : κ) (transaction : Transaction) (rest : List Transaction) :
    ledger.spentFor keyOf? key (transaction :: rest) =
      ledger.spentFor keyOf? key [transaction] + ledger.spentFor keyOf? key rest := by
  by_cases hcounts : ledger.Counts keyOf? transaction key <;> simp [spentFor, hcounts]

/-- Transactions are added to totals: these are worth more by what the transactions cost, each by
what those cost that count under its key, and there is one for every such key. -/
structure AddsUp (ledger : Ledger) (keyOf? : Transaction → Option κ)
    (transactions : List Transaction) (before after : Table κ Decimal) : Prop where
  worth : after.worth = before.worth + ledger.spentUnder keyOf? transactions
  under : ∀ key, after.under key = before.under key + ledger.spentFor keyOf? key transactions
  keys : ∀ key, key ∈ after.keys ↔
    key ∈ before.keys ∨ ∃ transaction ∈ transactions, ledger.Counts keyOf? transaction key
  ascending : before.Ascending → after.Ascending

namespace AddsUp

variable {transaction : Transaction} {totals before after later : Table κ Decimal}

omit [Std.LawfulEqOrd κ] [Std.TransOrd κ] in
theorem nil : ledger.AddsUp keyOf? [] totals totals where
  worth := by simp [spentUnder]
  under key := by simp [spentFor]
  keys key := by simp
  ascending := id

omit [Std.LawfulEqOrd κ] [Std.TransOrd κ] in
theorem cons {rest : List Transaction} (hfirst : ledger.AddsUp keyOf? [transaction] before after)
    (hrest : ledger.AddsUp keyOf? rest after later) :
    ledger.AddsUp keyOf? (transaction :: rest) before later where
  worth := by rw [hrest.worth, hfirst.worth, spentUnder_cons transaction rest, add_assoc]
  under key := by rw [hrest.under, hfirst.under, spentFor_cons key transaction rest, add_assoc]
  keys key := by
    rw [hrest.keys, hfirst.keys, or_assoc]
    simp only [List.mem_cons, List.not_mem_nil, or_false, exists_eq_left, exists_eq_or_imp]
  ascending hascending := hrest.ascending (hfirst.ascending hascending)

omit [Std.LawfulEqOrd κ] [Std.TransOrd κ] in
/-- A transaction that does not count costs nothing. -/
theorem of_not_counts (hnot : ∀ key, ¬ ledger.Counts keyOf? transaction key) :
    ledger.AddsUp keyOf? [transaction] totals totals where
  worth := by
    cases hkey : keyOf? transaction with
    | none => simp [spentUnder, hkey]
    | some key =>
        have hproduct : ledger.product? transaction.product = none := by
          simpa [Counts, hkey] using hnot key
        simp [spentUnder, hkey, spent, hproduct]
  under key := by simp [spentFor, hnot key]
  keys key := by simp [hnot]
  ascending := id

/-- A transaction that counts is added to the total under its key alone. -/
theorem of_counts {key : κ} {total : Decimal} (hcounts : ledger.Counts keyOf? transaction key)
    (htotal : total.value = totals.under key + ledger.spent transaction) :
    ledger.AddsUp keyOf? [transaction] totals (totals.insert key total) where
  worth := by
    have hspent : ledger.spentUnder keyOf? [transaction] = ledger.spent transaction := by
      simp [spentUnder, hcounts.2]
    rw [Table.worth_insert, htotal, hspent]
    ring
  under other := by
    rw [Table.under_insert]
    by_cases hsame : other = key
    · subst hsame
      simp [spentFor, hcounts, htotal]
    · simp [spentFor, hcounts.iff_eq, hsame]
  keys other := by
    rw [Table.mem_keys_insert, or_comm]
    simp only [List.mem_singleton, exists_eq_left, hcounts.iff_eq]
  ascending := Table.ascending_insert

end AddsUp

/-- If no digit is dropped the transactions are added to the totals. -/
private theorem exists_totals_from (transactions : List Transaction) (totals : Table κ Decimal)
    (hexact : ledger.isExact keyOf? totals transactions = true) :
    ∃ later, transactions.foldlM (ledger.addCost keyOf?) totals = .ok later ∧
      ledger.AddsUp keyOf? transactions totals later := by
  induction transactions generalizing totals with
  | nil => exact ⟨totals, rfl, .nil⟩
  | cons transaction rest ih =>
      rw [List.foldlM_cons]
      rcases addCost_of_isExact hexact with
        ⟨hnot, hadded, hexact⟩ | ⟨key, total, hcounts, htotal, hadded, hexact⟩
      · obtain ⟨later, hfold, hlater⟩ := ih _ hexact
        rw [hadded]
        exact ⟨later, hfold, .cons (.of_not_counts hnot) hlater⟩
      · obtain ⟨later, hfold, hlater⟩ := ih _ hexact
        rw [hadded]
        exact ⟨later, hfold, .cons (.of_counts hcounts htotal) hlater⟩

/-- **Exact totals.**  If no digit is dropped the query returns totals to which all transactions
were added. -/
theorem exists_totals
    (hexact : ledger.isExact keyOf? [] ledger.transactions.values = true) :
    ∃ totals, ledger.totals keyOf? = .ok totals ∧
      ledger.AddsUp keyOf? ledger.transactions.values [] totals :=
  exists_totals_from _ [] hexact

omit [Std.LawfulEqOrd κ] [Std.TransOrd κ] in
/-- There is a total for each key under which a transaction counts. -/
theorem AddsUp.mem_keys_iff {transactions : List Transaction} {totals : Table κ Decimal}
    (hadds : ledger.AddsUp keyOf? transactions [] totals) {key : κ} :
    key ∈ totals.keys ↔
      ∃ transaction ∈ transactions, ledger.Counts keyOf? transaction key := by
  rw [hadds.keys]
  simp [Table.keys]

/-! ## Both queries -/

/-- A customer's transactions count under the customer, if that is known. -/
def customerKey? (ledger : Ledger) (transaction : Transaction) : Option Int :=
  (ledger.customers.find? transaction.customer).map fun _ => transaction.customer

/-- All transactions count under their products. -/
def productKey? (transaction : Transaction) : Option String :=
  some transaction.product

/-- What all transactions cost at present. -/
def turnover (ledger : Ledger) : ℚ :=
  (ledger.transactions.values.map ledger.spent).sum

/-- The customer and the product of every transaction are known. -/
def Covers (ledger : Ledger) : Prop :=
  ∀ transaction ∈ ledger.transactions.values, ledger.hasCustomer transaction.customer = true ∧
    (ledger.product? transaction.product).isSome = true

/-- The row of a customer. -/
def customerRow? (ledger : Ledger) (entry : Int × Decimal) : Option CustomerTotal :=
  (ledger.customers.find? entry.1).map fun customer =>
    { customer := entry.1, firstName := customer.firstName, lastName := customer.lastName,
      total := entry.2 }

/-- The row of a product. -/
def productRow? (ledger : Ledger) (entry : String × Decimal) : Option ProductTotal :=
  (ledger.product? entry.1).map fun product =>
    { product := entry.1, status := product.status, total := entry.2 }

theorem customerTotals_eq (ledger : Ledger) :
    ledger.customerTotals =
      (ledger.totals ledger.customerKey?).map (·.filterMap ledger.customerRow?) := rfl

theorem productTotals_eq (ledger : Ledger) :
    ledger.productTotals = (ledger.totals productKey?).map (·.filterMap ledger.productRow?) := rfl

omit [Ord κ] [Std.LawfulEqOrd κ] [Std.TransOrd κ] [DecidableEq κ] in
/-- Rows that are all made from totals show what these are worth. -/
theorem sum_filterMap {ρ : Type} {totals : Table κ Decimal} {row? : κ × Decimal → Option ρ}
    {amount : ρ → Decimal}
    (hrows : ∀ entry ∈ totals, ∃ row, row? entry = some row ∧ amount row = entry.2) :
    ((totals.filterMap row?).map fun row => (amount row).value).sum = totals.worth := by
  induction totals with
  | nil => rfl
  | cons entry rest ih =>
      obtain ⟨⟨row, hrow, hamount⟩, hrest⟩ := List.forall_mem_cons.mp hrows
      rw [List.filterMap_cons_some hrow, List.map_cons, List.sum_cons, ih hrest, hamount]
      rfl

/-- If every transaction has a key, every such key has a row and no digit is dropped, the rows add
up to the turnover and every transaction is in one of them. -/
theorem exists_rows {ρ : Type} {key : Transaction → κ} {row? : κ × Decimal → Option ρ}
    {amount : ρ → Decimal} {name : ρ → κ} (hcovers : ledger.Covers)
    (hkey : ∀ transaction ∈ ledger.transactions.values,
      keyOf? transaction = some (key transaction))
    (hrow : ∀ transaction ∈ ledger.transactions.values, ∀ total,
      ∃ row, row? (key transaction, total) = some row ∧ amount row = total ∧
        name row = key transaction)
    (hexact : ledger.isExact keyOf? [] ledger.transactions.values = true) :
    ∃ totals, ledger.totals keyOf? = .ok totals ∧
      ((totals.filterMap row?).map fun row => (amount row).value).sum = ledger.turnover ∧
        ∀ transaction ∈ ledger.transactions.values,
          ∃ row ∈ totals.filterMap row?, name row = key transaction := by
  obtain ⟨totals, htotals, hadds⟩ := exists_totals hexact
  have hall : ledger.transactions.values.filter (fun transaction =>
      (keyOf? transaction).isSome) = ledger.transactions.values := by
    refine List.filter_eq_self.mpr ?_
    intro transaction htransaction
    rw [hkey _ htransaction, Option.isSome_some]
  refine ⟨totals, htotals, ?_, ?_⟩
  · rw [sum_filterMap, hadds.worth, Table.worth_nil, zero_add, spentUnder, hall, turnover]
    rintro ⟨other, total⟩ hentry
    -- Whatever has a total is the key of a transaction.
    obtain ⟨transaction, htransaction, -, hother⟩ :=
      hadds.mem_keys_iff.mp (Table.mem_keys.mpr ⟨_, hentry⟩)
    rw [hkey _ htransaction] at hother
    cases hother
    obtain ⟨row, hmade, hamount, -⟩ := hrow _ htransaction total
    exact ⟨row, hmade, hamount⟩
  · intro transaction htransaction
    obtain ⟨total, hentry⟩ := Table.mem_keys.mp <| hadds.mem_keys_iff.mpr
      ⟨transaction, htransaction, (hcovers _ htransaction).2, hkey _ htransaction⟩
    obtain ⟨row, hmade, -, hname⟩ := hrow _ htransaction total
    exact ⟨row, List.mem_filterMap.mpr ⟨_, hentry, hmade⟩, hname⟩

/-- The totals of the customers add up to the turnover. -/
theorem exists_customerTotals (hcovers : ledger.Covers)
    (hexact : ledger.isExact ledger.customerKey? [] ledger.transactions.values = true) :
    ∃ rows, ledger.customerTotals = .ok rows ∧
      (rows.map fun row => row.total.value).sum = ledger.turnover ∧
        ∀ transaction ∈ ledger.transactions.values,
          ∃ row ∈ rows, row.customer = transaction.customer := by
  have hknown {transaction : Transaction}
      (htransaction : transaction ∈ ledger.transactions.values) :
      ∃ customer, ledger.customers.find? transaction.customer = some customer :=
    Option.isSome_iff_exists.mp (hcovers _ htransaction).1
  have hkey : ∀ transaction ∈ ledger.transactions.values,
      ledger.customerKey? transaction = some transaction.customer := by
    intro transaction htransaction
    obtain ⟨customer, hcustomer⟩ := hknown htransaction
    rw [customerKey?, hcustomer, Option.map_some]
  have hrow : ∀ transaction ∈ ledger.transactions.values, ∀ total,
      ∃ row, ledger.customerRow? (transaction.customer, total) = some row ∧ row.total = total ∧
        row.customer = transaction.customer := by
    intro transaction htransaction total
    obtain ⟨customer, hcustomer⟩ := hknown htransaction
    exact ⟨_, by rw [customerRow?, hcustomer, Option.map_some], rfl, rfl⟩
  obtain ⟨totals, htotals, hrows⟩ := exists_rows hcovers hkey hrow hexact
  exact ⟨_, by rw [customerTotals_eq, htotals]; rfl, hrows⟩

/-- The totals of the products add up to the turnover. -/
theorem exists_productTotals (hcovers : ledger.Covers)
    (hexact : ledger.isExact productKey? [] ledger.transactions.values = true) :
    ∃ rows, ledger.productTotals = .ok rows ∧
      (rows.map fun row => row.total.value).sum = ledger.turnover ∧
        ∀ transaction ∈ ledger.transactions.values,
          ∃ row ∈ rows, row.product = transaction.product := by
  have hkey : ∀ transaction ∈ ledger.transactions.values,
      productKey? transaction = some transaction.product := fun _ _ => rfl
  have hrow : ∀ transaction ∈ ledger.transactions.values, ∀ total,
      ∃ row, ledger.productRow? (transaction.product, total) = some row ∧ row.total = total ∧
        row.product = transaction.product := by
    intro transaction htransaction total
    obtain ⟨product, hproduct⟩ := Option.isSome_iff_exists.mp (hcovers _ htransaction).2
    exact ⟨_, by rw [productRow?, hproduct, Option.map_some], rfl, rfl⟩
  obtain ⟨totals, htotals, hrows⟩ := exists_rows hcovers hkey hrow hexact
  exact ⟨_, by rw [productTotals_eq, htotals]; rfl, hrows⟩

end Ledger

end Clearing
