import Mathlib.Data.List.Induction
import Mathlib.Tactic.ByContra
import Clearing.Ledger
import Clearing.Proofs.Table

/-!
# Identifiers of saved transactions

A transaction without an identifier is saved under the next number of the
ledger's sequence.  Nothing compares that number with the identifiers that other
transactions brought along, so it may be taken, and then the row that had it is
gone.

`addsRow_saveAll_iff` says exactly when that happens after an arbitrary course of
savings: the number of the sequence is new unless some transaction brought it
along or the sequence has come around.

## Strategy

The rows of a ledger after some savings are described by their keys alone
(`mem_keys_saveAll`): those that were brought along and the first numbers of the
sequence.  Two numbers of a sequence are equal exactly if their positions differ
by a multiple of `2 ^ 64` (`IdSequence.number_eq_iff`).
-/

namespace Clearing

/-! ## The numbers of a sequence -/

namespace IdSequence

/-- The number of a sequence that comes after `count` others. -/
def number (ids : IdSequence) (count : Nat) : Int :=
  (ids.next + Int64.ofNat count).toInt

/-- A sequence comes around after `2 ^ 64` numbers. -/
theorem number_eq_iff (ids : IdSequence) (first second : Nat) :
    ids.number first = ids.number second ↔
      first % 18446744073709551616 = second % 18446744073709551616 := by
  rw [number, number, Int64.toInt_inj, Int64.add_right_inj, ← Int64.toInt_inj,
    Int64.toInt_ofNat', Int64.toInt_ofNat', Int.bmod_eq_bmod_iff_bmod_sub_eq_zero,
    ← Int.dvd_iff_bmod_eq_zero]
  simp only [Int64.size]
  omega

/-- A number is new as long as the sequence has not come around. -/
theorem number_ne_earlier_iff (ids : IdSequence) (count : Nat) :
    (∀ earlier < count, ids.number count ≠ ids.number earlier) ↔
      count < 18446744073709551616 := by
  constructor
  · intro hnew
    by_contra hle
    exact hnew (count - 18446744073709551616) (by omega)
      ((ids.number_eq_iff _ _).mpr (by omega))
  · intro hcount earlier hearlier heq
    have := (ids.number_eq_iff _ _).mp heq
    omega

end IdSequence

/-! ## Courses of savings -/

namespace Ledger

/-- The ledger after some transactions were saved, one after the other. -/
def saveAll (ledger : Ledger) (transactions : List Transaction) : Ledger :=
  transactions.foldl (fun ledger transaction => (ledger.save transaction).2) ledger

/-- The number of transactions that bring no identifier along. -/
def unnumbered (transactions : List Transaction) : Nat :=
  transactions.countP fun transaction => transaction.id.isNone

/-- To save the transaction adds a row: its key is one that no row had, and all other rows stay as
they are. -/
structure AddsRow (ledger : Ledger) (transaction : Transaction) : Prop where
  stored : ∃ id, (ledger.save transaction).1.id = some id ∧ id ∉ ledger.transactions.keys ∧
    (id, (ledger.save transaction).1) ∈ (ledger.save transaction).2.transactions
  count : (ledger.save transaction).2.transactions.length = ledger.transactions.length + 1
  kept : ∀ row ∈ ledger.transactions, row ∈ (ledger.save transaction).2.transactions

@[simp] theorem saveAll_append (ledger : Ledger) (transactions : List Transaction)
    (last : Transaction) :
    ledger.saveAll (transactions ++ [last]) = ((ledger.saveAll transactions).save last).2 := by
  simp [saveAll]

@[simp] theorem unnumbered_append (transactions : List Transaction) (last : Transaction) :
    unnumbered (transactions ++ [last]) =
      unnumbered transactions + if last.id = none then 1 else 0 := by
  cases h : last.id <;> simp [unnumbered, h]

section Save

variable {ledger : Ledger} {transaction : Transaction}

/-- What is saved, and the rows after that, of a transaction that brings its identifier along. -/
theorem save_of_id {id : Int} (hid : transaction.id = some id) :
    ledger.save transaction =
      (transaction,
        { ledger with transactions := ledger.transactions.insert id transaction }) := by
  simp [save, hid]

/-- What is saved, and the rows after that, of a transaction without an identifier. -/
theorem save_of_no_id (hid : transaction.id = none) :
    ledger.save transaction =
      (transaction.withId (ledger.ids.number 0),
        { ledger with
          ids := ⟨ledger.ids.next + 1⟩
          transactions := ledger.transactions.insert (ledger.ids.number 0)
            (transaction.withId (ledger.ids.number 0)) }) := by
  simp [save, hid, IdSequence.take, IdSequence.number]

/-- A transaction is saved under its own identifier if it has one, and nothing else changes but the
sequence. -/
theorem save_eq (ledger : Ledger) (transaction : Transaction) :
    ∃ id ids, (∀ own, transaction.id = some own → id = own) ∧
      ledger.save transaction =
        (transaction.withId id,
          { ledger with
            ids
            transactions := ledger.transactions.insert id (transaction.withId id) }) := by
  cases hid : transaction.id with
  | none => exact ⟨_, _, by simp, save_of_no_id hid⟩
  | some id =>
      have hsame : transaction.withId id = transaction := by rw [Transaction.withId, ← hid]
      refine ⟨id, ledger.ids, by simp, ?_⟩
      rw [save_of_id hid, hsame]

theorem ascending_save (hascending : ledger.transactions.Ascending) :
    (ledger.save transaction).2.transactions.Ascending := by
  cases hid : transaction.id with
  | none => rw [save_of_no_id hid]; exact Table.ascending_insert hascending
  | some id => rw [save_of_id hid]; exact Table.ascending_insert hascending

/-- A row is added exactly if no row has the next number yet. -/
theorem addsRow_iff (hascending : ledger.transactions.Ascending) (hid : transaction.id = none) :
    ledger.AddsRow transaction ↔ ledger.ids.number 0 ∉ ledger.transactions.keys := by
  constructor
  · intro hadds hmem
    have hcount := hadds.count
    rw [save_of_no_id hid, Table.length_insert_of_mem hascending hmem] at hcount
    omega
  · intro hnew
    have hsave : ledger.save transaction = _ := save_of_no_id hid
    refine ⟨⟨ledger.ids.number 0, ?_, hnew, ?_⟩, ?_, ?_⟩
    · rw [hsave]; rfl
    · rw [hsave]; exact Table.self_mem_insert ..
    · rw [hsave]; exact Table.length_insert_of_not_mem hnew
    · intro row hrow
      rw [hsave]
      refine Table.mem_insert_of_mem hrow fun hkey => hnew ?_
      exact Table.mem_keys.mpr ⟨row.2, hkey ▸ hrow⟩

end Save

variable {start : Ledger} (hempty : start.transactions = [])

theorem next_saveAll (start : Ledger) (saved : List Transaction) :
    (start.saveAll saved).ids.next = start.ids.next + Int64.ofNat (unnumbered saved) := by
  induction saved using List.reverseRecOn with
  | nil => simp [saveAll, unnumbered]
  | append_singleton saved last ih =>
      rw [saveAll_append, unnumbered_append]
      cases hid : last.id with
      | none =>
          rw [save_of_no_id hid, if_pos rfl, Int64.ofNat_add, ← Int64.add_assoc, ← ih]
          rfl
      | some id =>
          rw [save_of_id hid]
          simpa using ih

theorem number_saveAll (start : Ledger) (saved : List Transaction) :
    (start.saveAll saved).ids.number 0 = start.ids.number (unnumbered saved) := by
  simp [IdSequence.number, next_saveAll]

include hempty

theorem ascending_saveAll (saved : List Transaction) :
    (start.saveAll saved).transactions.Ascending := by
  induction saved using List.reverseRecOn with
  | nil => simp [saveAll, hempty, Table.Ascending]
  | append_singleton saved last ih => rw [saveAll_append]; exact ascending_save ih

/-- The keys after some savings are the identifiers that were brought along and the first numbers
of the sequence. -/
theorem mem_keys_saveAll (saved : List Transaction) (key : Int) :
    key ∈ (start.saveAll saved).transactions.keys ↔
      (∃ other ∈ saved, other.id = some key) ∨
        ∃ count < unnumbered saved, key = start.ids.number count := by
  induction saved using List.reverseRecOn with
  | nil => simp [saveAll, hempty, Table.keys, unnumbered]
  | append_singleton saved last ih =>
      rw [saveAll_append, unnumbered_append]
      cases hid : last.id with
      | none =>
          rw [save_of_no_id hid, Table.mem_keys_insert, ih, number_saveAll, if_pos rfl]
          simp only [List.mem_append, List.mem_singleton, or_and_right, exists_or,
            exists_eq_left, hid, Nat.lt_succ_iff_lt_or_eq, reduceCtorEq, or_false]
          grind
      | some id =>
          rw [save_of_id hid, Table.mem_keys_insert, ih]
          simp only [List.mem_append, List.mem_singleton, or_and_right, exists_or,
            exists_eq_left, hid, Option.some.injEq, reduceCtorEq, if_false, Nat.add_zero]
          grind

/-- **A transaction without an identifier gets a row of its own** exactly if the sequence has not
come around and no transaction brought the next number along.  Otherwise the row that has the number
is lost. -/
theorem addsRow_saveAll_iff (saved : List Transaction) {transaction : Transaction}
    (hid : transaction.id = none) :
    (start.saveAll saved).AddsRow transaction ↔
      unnumbered saved < 18446744073709551616 ∧
        ∀ other ∈ saved, other.id ≠ some (start.ids.number (unnumbered saved)) := by
  rw [addsRow_iff (ascending_saveAll hempty saved) hid, number_saveAll,
    mem_keys_saveAll hempty saved, not_or, and_comm, ← IdSequence.number_ne_earlier_iff start.ids]
  simp only [not_exists, not_and, ne_eq]

omit hempty

/-- At the end of the sequence: the number after the largest one is new. -/
theorem addsRow_after_largest_number :
    ((empty (.startingAt 9223372036854775807)).saveAll
      [(Transaction.new 1 "P1" 2 .text).withId 1, .new 1 "P1" 3 .text]).AddsRow
        (.new 1 "P1" 4 .text) :=
  (addsRow_saveAll_iff rfl _ rfl).mpr ⟨by decide, by decide⟩

/-- The sequence begins with a number that a transaction brought along: its row is lost. -/
theorem not_addsRow_of_taken_number :
    ¬ ((empty .initial).saveAll [(Transaction.new 1 "P1" 2 .text).withId 1]).AddsRow
      (.new 1 "P1" 3 .text) := by
  intro hadds
  have hcount := hadds.count
  revert hcount
  decide

end Ledger

end Clearing
