import Clearing.Proofs.Ledger.Identifiers
import Clearing.Proofs.Ledger.Totals

/-!
# Totals as a join

The queries for totals go through the saved transactions once and keep a table of
what was added up so far.  What they are meant to return can be said without such a
table: one row for each customer, or product, that is known and was part of a saved
transaction whose product is known, in ascending order, with what is recorded about
them now and the sum of what these transactions cost at present (`CustomerJoin`,
`ProductJoin`).

`totals_join` says that both queries return these rows as long as no digit is dropped,
for every ledger that came about by inserting reference data and saving transactions,
in any order and however often a row was replaced.  Sums of products may as well be
taken for each code and status: a code has one status at a time, so that no code gets
two rows (`labelTotals_eq`).

## Strategy

`exists_totals` gives a table that ascends, has a total for each key under which a
transaction counts, and holds what those transactions cost.  `exists_join` turns it into
rows, for both queries.  In a ledger that came about by inserts and saves each row is
stored under its own key (`Keyed`).
-/

namespace Clearing

namespace Ledger

/-! ## Ledgers that came about by inserts and saves -/

/-- A ledger that was empty at first, with any sequence of identifiers, and into which customers and
products were put and transactions were saved. -/
inductive Recorded : Ledger → Prop
  | empty (ids : IdSequence) : Recorded (.empty ids)
  | customer {ledger : Ledger} (hledger : Recorded ledger) (customer : Customer) :
      Recorded (ledger.putCustomer customer)
  | product {ledger : Ledger} (hledger : Recorded ledger) (product : Product) :
      Recorded (ledger.putProduct product)
  | saved {ledger : Ledger} (hledger : Recorded ledger) (transaction : Transaction) :
      Recorded (ledger.save transaction).2

theorem Recorded.saveAll {ledger : Ledger} (hrecorded : ledger.Recorded)
    (transactions : List Transaction) : (ledger.saveAll transactions).Recorded := by
  induction transactions generalizing ledger with
  | nil => exact hrecorded
  | cons transaction rest ih => exact ih (hrecorded.saved transaction)

/-- Each row is stored under its own key. -/
structure Keyed (ledger : Ledger) : Prop where
  customers : ∀ id customer, ledger.customers.find? id = some customer → customer.id = id
  products : ∀ code product, ledger.product? code = some product → product.code = code
  transactions : ∀ row ∈ ledger.transactions, row.2.id = some row.1
  ascending : ledger.transactions.Ascending

theorem Recorded.keyed {ledger : Ledger} (hrecorded : ledger.Recorded) : ledger.Keyed := by
  induction hrecorded with
  | empty ids =>
      refine ⟨fun id customer hfound => ?_, fun code product hfound => ?_, fun row hrow => ?_,
        List.Pairwise.nil⟩
      · exact absurd hfound.symm (Option.some_ne_none customer)
      · exact absurd hfound.symm (Option.some_ne_none product)
      · exact absurd hrow List.not_mem_nil
  | customer hledger customer ih =>
      refine ⟨fun id found hfound => ?_, ih.products, ih.transactions, ih.ascending⟩
      rw [putCustomer, Table.find?_insert] at hfound
      split at hfound
      · rename_i hsame
        cases hfound
        exact hsame.symm
      · exact ih.customers id found hfound
  | product hledger product ih =>
      refine ⟨ih.customers, fun code found hfound => ?_, ih.transactions, ih.ascending⟩
      rw [product?, putProduct, Table.find?_insert] at hfound
      split at hfound
      · rename_i hsame
        cases hfound
        exact hsame.symm
      · exact ih.products code found hfound
  | @saved ledger hledger transaction ih =>
      have hascending : (ledger.save transaction).2.transactions.Ascending :=
        ascending_save ih.ascending
      obtain ⟨id, ids, -, hsave⟩ := save_eq ledger transaction
      rw [hsave] at hascending ⊢
      refine ⟨ih.customers, ih.products, fun row hrow => ?_, hascending⟩
      rcases Table.mem_of_mem_insert hrow with rfl | hold
      · rfl
      · exact ih.transactions row hold

/-- Every saved transaction is stored once. -/
theorem Keyed.nodup_ids {ledger : Ledger} (hkeyed : ledger.Keyed) :
    (ledger.transactions.values.map (·.id)).Nodup := by
  have hids : ledger.transactions.values.map (·.id) =
      ledger.transactions.map fun row => some row.1 := by
    rw [Table.values, List.map_map]
    exact List.map_congr_left hkeyed.transactions
  rw [hids]
  refine List.Pairwise.map _ (fun row next hless heq => ?_) hkeyed.ascending
  rw [Option.some.inj heq, Std.ReflOrd.compare_self] at hless
  cases hless

/-! ## What the queries are meant to return -/

/-- The saved transactions of a customer whose products are known. -/
def purchasesOf (ledger : Ledger) (id : Int) : List Transaction :=
  ledger.transactions.values.filter fun transaction =>
    transaction.customer = id ∧ (ledger.product? transaction.product).isSome

/-- The saved transactions of a product. -/
def salesOf (ledger : Ledger) (code : String) : List Transaction :=
  ledger.transactions.values.filter fun transaction => transaction.product = code

/-- The rows join the customers with their purchases. -/
structure CustomerJoin (ledger : Ledger) (rows : List CustomerTotal) : Prop where
  ascending : rows.Pairwise fun row next => row.customer < next.customer
  present : ∀ id, (∃ row ∈ rows, row.customer = id) ↔
    ledger.hasCustomer id = true ∧ ledger.purchasesOf id ≠ []
  names : ∀ row ∈ rows, ∃ customer, ledger.customers.find? row.customer = some customer ∧
    customer.id = row.customer ∧ row.firstName = customer.firstName ∧
      row.lastName = customer.lastName
  total : ∀ row ∈ rows,
    row.total.value = ((ledger.purchasesOf row.customer).map ledger.spent).sum

/-- The rows join the products with their sales. -/
structure ProductJoin (ledger : Ledger) (rows : List ProductTotal) : Prop where
  ascending : rows.Pairwise fun row next => row.product < next.product
  present : ∀ code, (∃ row ∈ rows, row.product = code) ↔
    (ledger.product? code).isSome = true ∧ ledger.salesOf code ≠ []
  status : ∀ row ∈ rows, ∃ product, ledger.product? row.product = some product ∧
    product.code = row.product ∧ row.status = product.status
  total : ∀ row ∈ rows, row.total.value = ((ledger.salesOf row.product).map ledger.spent).sum

/-! ## What they return -/

section Rows

variable {κ : Type} [Ord κ] [Std.TransOrd κ] [Std.LawfulEqOrd κ] [DecidableEq κ]
  {ledger : Ledger} {keyOf? : Transaction → Option κ}

/-- If rows are made from the totals under known keys, they ascend, there is one for each key under
which a transaction counts, and it shows what those transactions cost. -/
theorem exists_join {ρ : Type} {row? : κ × Decimal → Option ρ} (name : ρ → κ)
    (amount : ρ → Decimal)
    (hrow : ∀ entry row, row? entry = some row → name row = entry.1 ∧ amount row = entry.2)
    (hmade : ∀ transaction ∈ ledger.transactions.values, ∀ key total,
      ledger.Counts keyOf? transaction key → (row? (key, total)).isSome = true)
    (hexact : ledger.isExact keyOf? [] ledger.transactions.values = true) :
    ∃ totals, ledger.totals keyOf? = .ok totals ∧
      (totals.filterMap row?).Pairwise (fun row next => compare (name row) (name next) = .lt) ∧
        (∀ key, (∃ row ∈ totals.filterMap row?, name row = key) ↔
          ∃ transaction ∈ ledger.transactions.values, ledger.Counts keyOf? transaction key) ∧
          ∀ row ∈ totals.filterMap row?,
            (amount row).value = ledger.spentFor keyOf? (name row) ledger.transactions.values := by
  obtain ⟨totals, htotals, hadds⟩ := exists_totals hexact
  have hascending : totals.Ascending := hadds.ascending List.Pairwise.nil
  refine ⟨totals, htotals, ?_, fun key => ⟨?_, ?_⟩, ?_⟩
  · refine List.Pairwise.filterMap row? (fun entry next hless row hmadeRow later hmadeLater => ?_)
      hascending
    rw [(hrow _ _ hmadeRow).1, (hrow _ _ hmadeLater).1]
    exact hless
  · rintro ⟨row, hmem, rfl⟩
    obtain ⟨entry, hentry, hmadeRow⟩ := List.mem_filterMap.mp hmem
    rw [(hrow _ _ hmadeRow).1]
    exact hadds.mem_keys_iff.mp (Table.mem_keys.mpr ⟨_, hentry⟩)
  · rintro ⟨transaction, htransaction, hcounts⟩
    obtain ⟨total, hentry⟩ :=
      Table.mem_keys.mp (hadds.mem_keys_iff.mpr ⟨transaction, htransaction, hcounts⟩)
    obtain ⟨row, hmadeRow⟩ :=
      Option.isSome_iff_exists.mp (hmade _ htransaction _ total hcounts)
    exact ⟨row, List.mem_filterMap.mpr ⟨_, hentry, hmadeRow⟩, (hrow _ _ hmadeRow).1⟩
  · intro row hmem
    obtain ⟨entry, hentry, hmadeRow⟩ := List.mem_filterMap.mp hmem
    have hunder := hadds.under entry.1
    rw [Table.under_nil, zero_add, Table.under, Table.find?_of_mem hascending hentry,
      Option.getD_some] at hunder
    rw [(hrow _ _ hmadeRow).1, (hrow _ _ hmadeRow).2, hunder]

end Rows

variable {ledger : Ledger}

theorem counts_customerKey?_iff {transaction : Transaction} {id : Int} :
    ledger.Counts ledger.customerKey? transaction id ↔
      ledger.hasCustomer id = true ∧ transaction.customer = id ∧
        (ledger.product? transaction.product).isSome = true := by
  unfold Counts customerKey? hasCustomer
  constructor
  · rintro ⟨hproduct, hkey⟩
    obtain ⟨customer, hcustomer, rfl⟩ := Option.map_eq_some_iff.mp hkey
    exact ⟨by rw [hcustomer, Option.isSome_some], rfl, hproduct⟩
  · rintro ⟨hcustomer, rfl, hproduct⟩
    obtain ⟨customer, hcustomer⟩ := Option.isSome_iff_exists.mp hcustomer
    exact ⟨hproduct, by rw [hcustomer, Option.map_some]⟩

theorem counts_productKey?_iff {transaction : Transaction} {code : String} :
    ledger.Counts productKey? transaction code ↔
      (ledger.product? code).isSome = true ∧ transaction.product = code := by
  unfold Counts productKey?
  rw [Option.some.injEq]
  constructor
  · rintro ⟨hproduct, rfl⟩
    exact ⟨hproduct, rfl⟩
  · rintro ⟨hproduct, rfl⟩
    exact ⟨hproduct, rfl⟩

/-- The totals of the customers are the join with their purchases. -/
theorem exists_customerJoin (hkeyed : ledger.Keyed)
    (hexact : ledger.isExact ledger.customerKey? [] ledger.transactions.values = true) :
    ∃ rows, ledger.customerTotals = .ok rows ∧ ledger.CustomerJoin rows := by
  have hrow (entry : Int × Decimal) (row : CustomerTotal)
      (hmade : ledger.customerRow? entry = some row) :
      row.customer = entry.1 ∧ row.total = entry.2 := by
    obtain ⟨customer, -, rfl⟩ := Option.map_eq_some_iff.mp hmade
    exact ⟨rfl, rfl⟩
  obtain ⟨totals, htotals, hascending, hpresent, htotal⟩ :=
    exists_join CustomerTotal.customer CustomerTotal.total hrow
      (fun transaction _ id total hcounts => by
        simpa [customerRow?, hasCustomer] using (counts_customerKey?_iff.mp hcounts).1) hexact
  have hnames : ∀ row ∈ totals.filterMap ledger.customerRow?,
      ∃ customer, ledger.customers.find? row.customer = some customer ∧
        customer.id = row.customer ∧ row.firstName = customer.firstName ∧
          row.lastName = customer.lastName := by
    intro row hmem
    obtain ⟨entry, -, hmade⟩ := List.mem_filterMap.mp hmem
    obtain ⟨customer, hcustomer, rfl⟩ := Option.map_eq_some_iff.mp hmade
    exact ⟨customer, hcustomer, hkeyed.customers _ _ hcustomer, rfl, rfl⟩
  refine ⟨_, by rw [customerTotals_eq, htotals]; rfl, ?_, fun id => ?_, hnames, fun row hmem => ?_⟩
  · exact hascending.imp fun hless => Int.compare_eq_lt.mp hless
  · rw [hpresent id]
    simp only [counts_customerKey?_iff, purchasesOf, ne_eq, List.filter_eq_nil_iff, not_forall,
      decide_eq_true_eq]
    grind
  · obtain ⟨customer, hcustomer, -⟩ := hnames row hmem
    have hknown : ledger.hasCustomer row.customer = true := by
      rw [hasCustomer, hcustomer, Option.isSome_some]
    rw [htotal row hmem, spentFor, purchasesOf]
    simp only [counts_customerKey?_iff, hknown, true_and]

/-- The totals of the products are the join with their sales. -/
theorem exists_productJoin (hkeyed : ledger.Keyed)
    (hexact : ledger.isExact productKey? [] ledger.transactions.values = true) :
    ∃ rows, ledger.productTotals = .ok rows ∧ ledger.ProductJoin rows := by
  have hrow (entry : String × Decimal) (row : ProductTotal)
      (hmade : ledger.productRow? entry = some row) :
      row.product = entry.1 ∧ row.total = entry.2 := by
    obtain ⟨product, -, rfl⟩ := Option.map_eq_some_iff.mp hmade
    exact ⟨rfl, rfl⟩
  obtain ⟨totals, htotals, hascending, hpresent, htotal⟩ :=
    exists_join ProductTotal.product ProductTotal.total hrow
      (fun transaction _ code total hcounts => by
        simpa [productRow?] using (counts_productKey?_iff.mp hcounts).1) hexact
  have hstatus : ∀ row ∈ totals.filterMap ledger.productRow?,
      ∃ product, ledger.product? row.product = some product ∧ product.code = row.product ∧
        row.status = product.status := by
    intro row hmem
    obtain ⟨entry, -, hmade⟩ := List.mem_filterMap.mp hmem
    obtain ⟨product, hproduct, rfl⟩ := Option.map_eq_some_iff.mp hmade
    exact ⟨product, hproduct, hkeyed.products _ _ hproduct, rfl⟩
  refine ⟨_, by rw [productTotals_eq, htotals]; rfl, ?_, fun code => ?_, hstatus,
    fun row hmem => ?_⟩
  · exact hascending.imp fun hless => compareOfLessAndEq_eq_lt.mp hless
  · rw [hpresent code]
    simp only [counts_productKey?_iff, salesOf, ne_eq, List.filter_eq_nil_iff, not_forall,
      decide_eq_true_eq]
    grind
  · obtain ⟨product, hproduct, -⟩ := hstatus row hmem
    have hknown : (ledger.product? row.product).isSome = true := by
      rw [hproduct, Option.isSome_some]
    rw [htotal row hmem, spentFor, salesOf]
    simp only [counts_productKey?_iff, hknown, true_and]

/-! ## Codes and statuses -/

/-- A table with other keys. -/
def relabel {κ ν : Type} (label : κ → ν) (totals : Table κ Decimal) : Table ν Decimal :=
  totals.map fun row => (label row.1, row.2)

section Relabel

variable {κ ν : Type} [Ord κ] [Ord ν] {label : κ → ν}
  (hlabel : ∀ key other, compare (label key) (label other) = compare key other)

include hlabel

theorem find?_relabel (totals : Table κ Decimal) (key : κ) :
    (relabel label totals).find? (label key) = totals.find? key := by
  induction totals with
  | nil => rfl
  | cons row rest ih =>
      rw [relabel, List.map_cons, Table.find?, hlabel, ← relabel, ih]
      rfl

theorem insert_relabel (totals : Table κ Decimal) (key : κ) (amount : Decimal) :
    (relabel label totals).insert (label key) amount =
      relabel label (totals.insert key amount) := by
  induction totals with
  | nil => rfl
  | cons row rest ih =>
      rw [relabel, List.map_cons, Table.insert, Table.insert, hlabel, ← relabel, ih]
      cases compare key row.1 <;> rfl

end Relabel

/-- A code with a status. -/
structure Label where
  code : String
  status : String

/-- Labels are in the order of their codes, and of their statuses if these are the same. -/
instance : Ord Label where
  compare label other := (compare label.code other.code).then (compare label.status other.status)

/-- A transaction counts under the code and the status of its product as it is now. -/
def labelKey? (ledger : Ledger) (transaction : Transaction) : Option Label :=
  (ledger.product? transaction.product).map fun product => ⟨product.code, product.status⟩

/-- The totals of the products for each code and status. -/
def labelTotals (ledger : Ledger) : Except Abort (List ProductTotal) :=
  (ledger.totals ledger.labelKey?).map (·.map fun (label, total) =>
    { product := label.code, status := label.status, total })

/-- A code with the status that it has now. -/
def label (ledger : Ledger) (code : String) : Label :=
  ⟨code, ((ledger.product? code).map (·.status)).getD ""⟩

theorem compare_label (ledger : Ledger) (code other : String) :
    compare (ledger.label code) (ledger.label other) = compare code other := by
  have hthen : compare (ledger.label code) (ledger.label other) =
      (compare code other).then
        (compare (ledger.label code).status (ledger.label other).status) := rfl
  rw [hthen]
  cases hcompare : compare code other with
  | eq =>
      rw [Std.LawfulEqOrd.eq_of_compare hcompare, Std.ReflOrd.compare_self]
      rfl
  | lt => rfl
  | gt => rfl

/-- What a transaction makes of labelled totals is what it makes of the totals, labelled. -/
theorem addCost_relabel (hkeyed : ledger.Keyed) (totals : Table String Decimal)
    (transaction : Transaction) :
    ledger.addCost ledger.labelKey? (relabel ledger.label totals) transaction =
      (ledger.addCost productKey? totals transaction).map (relabel ledger.label) := by
  cases hproduct : ledger.product? transaction.product with
  | none =>
      rw [addCost_of_unknown hproduct, addCost_of_unknown hproduct]
      rfl
  | some product =>
      cases hcost : product.cost.times? transaction.quantity with
      | none => simp only [addCost, cost?, hproduct, hcost, bind, Except.bind, Except.map]
      | some cost =>
          have hkey : ledger.labelKey? transaction = some (ledger.label transaction.product) := by
            rw [labelKey?, hproduct, label, hproduct, Option.map_some, hkeyed.products _ _ hproduct]
            rfl
          rw [addCost_of_known hproduct hcost, addCost_of_known hproduct hcost, hkey]
          simp only [productKey?, addTo, find?_relabel ledger.compare_label,
            insert_relabel ledger.compare_label]
          cases ((totals.find? transaction.product).getD .zero).add? cost <;> rfl

theorem totals_relabel (hkeyed : ledger.Keyed) :
    ledger.totals ledger.labelKey? =
      (ledger.totals productKey?).map (relabel ledger.label) := by
  have hfold (transactions : List Transaction) (totals : Table String Decimal) :
      transactions.foldlM (ledger.addCost ledger.labelKey?) (relabel ledger.label totals) =
        (transactions.foldlM (ledger.addCost productKey?) totals).map
          (relabel ledger.label) := by
    induction transactions generalizing totals with
    | nil => rfl
    | cons transaction rest ih =>
        rw [List.foldlM_cons, List.foldlM_cons, addCost_relabel hkeyed]
        cases ledger.addCost productKey? totals transaction with
        | error cause => rfl
        | ok next => exact ih next
  exact hfold ledger.transactions.values []

/-- Only known products have totals. -/
theorem isSome_product?_of_totals {totals : Table String Decimal}
    (htotals : ledger.totals productKey? = .ok totals) :
    ∀ code ∈ totals.keys, (ledger.product? code).isSome = true := by
  have hfold (transactions : List Transaction) (totals later : Table String Decimal)
      (hknown : ∀ code ∈ totals.keys, (ledger.product? code).isSome = true)
      (hlater : transactions.foldlM (ledger.addCost productKey?) totals = .ok later) :
      ∀ code ∈ later.keys, (ledger.product? code).isSome = true := by
    induction transactions generalizing totals with
    | nil =>
        cases hlater
        exact hknown
    | cons transaction rest ih =>
        rw [List.foldlM_cons] at hlater
        cases hadded : ledger.addCost productKey? totals transaction with
        | error cause =>
            rw [hadded] at hlater
            cases hlater
        | ok next =>
            rw [hadded] at hlater
            refine ih next (fun code hcode => ?_) hlater
            rcases addCost_eq_ok hadded with
              rfl | ⟨product, cost, key, total, hproduct, -, hkey, -, rfl⟩
            · exact hknown code hcode
            · rcases Table.mem_keys_insert.mp hcode with rfl | hold
              · obtain rfl := Option.some.inj hkey
                rw [hproduct, Option.isSome_some]
              · exact hknown code hold
  exact hfold _ [] totals nofun htotals

/-- **No code gets two rows**: sums for each code and status are sums for each code. -/
theorem labelTotals_eq (hkeyed : ledger.Keyed) : ledger.labelTotals = ledger.productTotals := by
  rw [productTotals_eq, labelTotals, totals_relabel hkeyed]
  cases htotals : ledger.totals productKey? with
  | error cause => rfl
  | ok totals =>
      have hknown := isSome_product?_of_totals htotals
      refine congrArg Except.ok ?_
      dsimp only
      rw [relabel, List.map_map, ← List.filterMap_eq_map]
      refine List.filterMap_congr fun entry hentry => ?_
      obtain ⟨product, hproduct⟩ :=
        Option.isSome_iff_exists.mp (hknown entry.1 (List.mem_map_of_mem hentry))
      simp [productRow?, label, hproduct]

/-! ## Totals are joins -/

/-- **Totals are joins.**  In a ledger that came about by inserts and saves the totals of the
customers and of the products are joins with the transactions, if no digit is dropped; it makes no
difference whether the products are told apart by code or by code and status, and no transaction is
there twice. -/
theorem totals_join (hrecorded : ledger.Recorded) :
    (ledger.isExact ledger.customerKey? [] ledger.transactions.values = true →
      ∃ rows, ledger.customerTotals = .ok rows ∧ ledger.CustomerJoin rows) ∧
    (ledger.isExact productKey? [] ledger.transactions.values = true →
      ∃ rows, ledger.productTotals = .ok rows ∧ ledger.ProductJoin rows) ∧
    ledger.labelTotals = ledger.productTotals ∧
    (ledger.transactions.values.map (·.id)).Nodup :=
  have hkeyed := hrecorded.keyed
  ⟨exists_customerJoin hkeyed, exists_productJoin hkeyed, labelTotals_eq hkeyed, hkeyed.nodup_ids⟩

/-- A pen is sold for one and a half. -/
def stockedLedger : Ledger :=
  ((Ledger.empty .initial).putCustomer
    { id := 1, firstName := "Ada", lastName := "King", age := none, email := none,
      location := none }).putProduct
    { code := "pen", cost := ⟨false, 15, 1, by decide, by decide, by decide⟩, status := "ACTIVE" }

/-- A sale is replaced, a customer and a product are not known, and after all sales Ada changes her
name and the pen gets dearer. -/
def changedLedger : Ledger :=
  ((stockedLedger.saveAll
    [.new 1 "pen" 3 .text, .new 1 "pen" 2 .text, (Transaction.new 1 "pen" 4 .text).withId 1,
      .new 7 "pen" 1 .text, .new 1 "ink" 5 .text]).putCustomer
    { id := 1, firstName := "Ada", lastName := "Lovelace", age := none, email := none,
      location := none }).putProduct
    { code := "pen", cost := ⟨false, 25, 1, by decide, by decide, by decide⟩, status := "RETIRED" }

theorem totals_join_changed :
    changedLedger.Recorded ∧
      (∃ rows, changedLedger.customerTotals = .ok rows ∧ changedLedger.CustomerJoin rows) ∧
        ∃ rows, changedLedger.productTotals = .ok rows ∧ changedLedger.ProductJoin rows := by
  have hstocked : stockedLedger.Recorded := ((Recorded.empty _).customer _).product _
  have hrecorded : changedLedger.Recorded := ((hstocked.saveAll _).customer _).product _
  obtain ⟨hcustomers, hproducts, -, -⟩ := totals_join hrecorded
  exact ⟨hrecorded, hcustomers (by decide +kernel), hproducts (by decide +kernel)⟩

end Ledger

end Clearing
