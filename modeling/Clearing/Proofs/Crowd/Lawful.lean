import Clearing.Proofs.Crowd.Rows
import Clearing.Proofs.Crowd.Script
import Clearing.Proofs.Crowd.Submitted
import Clearing.Proofs.Transaction.Rules

/-!
# Only valid transactions are saved

In a run in memory and in virtual time, every row that is written is a
transaction that was handed in and that satisfies the rules
(`Crowd.Run.lawful`).  The rules go by what the check was told, and the cache may
tell what was true some time ago: a product may have changed since.  So its
record is one that the ledger holds at that instant or held less than a lifetime
of the cache ago.

Time is virtual if it passes only while everyone pauses: waits, has not begun an
attempt or has ended one.  In memory nothing waits between the check of a
transaction and its saving, which are at the same instant then.
-/

namespace Clearing

namespace Crowd

/-- A move takes time only if the clock moves. -/
theorem Move.now_eq {crowd next : Crowd} {mover : Party} (hmove : Move mover crowd next)
    (hclock : mover ≠ .clock) : next.now = crowd.now := by
  cases hmove with
  | pass => exact absurd rfl hclock
  | _ => rfl

namespace Run

/-- Time passes only while no submission is in the midst of an attempt, unless it waits there. -/
def Virtual (run : Run) : Prop :=
  ∀ index, (run.moment (index + 1)).now ≠ (run.moment index).now → ∀ party submission,
    (run.moment index).submission? party = some submission →
      submission.isPaused (run.moment index).place.pipeline = true

/-- At the first index it is the same instant as at the second one, or less than a lifetime of the
cache before it. -/
structure Recent (run : Run) (held index : Nat) : Prop where
  le : held ≤ index
  near : (run.moment held).now = (run.moment index).now ∨
    (run.moment index).now < (run.moment held).now + run.settings.cacheMillis

/-- What was written for a submission is valid: it is the submitted transaction, marked as
processed under an identifier, and satisfies the rules. -/
structure Lawful (run : Run) (save : Nat) (submission : Submission) (saved : Transaction) :
    Prop where
  submitted : (run.moment save).Submitted submission.transaction
  row : ∃ id time,
    saved = { submission.transaction with
      id := some id, processedTime := some time, status := .processed } ∧
      ∀ own, submission.transaction.id = some own → id = own
  quantity : 0 < saved.quantity
  customer : (run.moment save).ledger.hasCustomer saved.customer = true
  product : ∃ held product, run.Recent held save ∧
    (run.moment held).ledger.product? saved.product = some product ∧
      product.isActive = true ∧ checkCost product.cost saved.quantity = .ok ()
  time : isPast (run.clock (run.moment save).now) saved.time = false

/-- What may be believed at an index: that there are the customers of the ledger, and that products
are as they are or were a short time ago. -/
def recent (run : Run) (index : Nat) : Beliefs where
  customer id := (run.moment index).ledger.hasCustomer id = true
  product code product :=
    ∃ held, run.Recent held index ∧ (run.moment held).ledger.product? code = some product
  clock time := time = run.clock (run.moment index).now

variable {run : Run}

theorem support_recent (hbegins : run.Begins) (hmemory : run.InMemory) (index : Nat) :
    (run.moment index).resources.Support (run.moment index).now run.clock (run.recent index) where
  prompt kind := (isFair hbegins hmemory index kind).delay
  customer hknown := hknown
  product hproduct := ⟨index, ⟨le_rfl, .inl rfl⟩, hproduct⟩
  recalledCustomer hrecalled := by
    obtain ⟨since, ⟨heard, hle, -, hknown⟩, -⟩ :=
      (references_backed hbegins hmemory index).getCustomer hrecalled
    exact (ledger_grows hmemory hle).customer hknown
  recalledProduct hrecalled := by
    obtain ⟨found, since, hfound, ⟨heard, hle, rfl, hproduct⟩, hfresh⟩ :=
      (references_backed hbegins hmemory index).getProduct hrecalled
    cases hfound
    exact ⟨heard, ⟨hle, .inr hfresh⟩, hproduct⟩
  clock := rfl

/-- At the same instant nothing becomes old. -/
theorem recent_le_succ (hmemory : run.InMemory) {index : Nat}
    (hnow : (run.moment (index + 1)).now = (run.moment index).now) :
    (run.recent index).Le (run.recent (index + 1)) where
  customer hknown := (ledger_grows_succ hmemory index).customer hknown
  product := by
    rintro code product ⟨held, ⟨hle, hnear⟩, hproduct⟩
    exact ⟨held, ⟨Nat.le_succ_of_le hle, by rwa [hnow]⟩, hproduct⟩
  clock := by
    rintro time rfl
    exact congrArg run.clock hnow.symm

theorem knows_recent (hbegins : run.Begins) (hmemory : run.InMemory) (hvirtual : run.Virtual)
    {index : Nat} {party : Party} {submission : Submission}
    (hsubmission : (run.moment index).submission? party = some submission) :
    submission.Knows (run.recent index) := by
  refine knows hbegins (support_recent hbegins hmemory) ?_ index party submission hsubmission
  intro index
  by_cases hnow : (run.moment (index + 1)).now = (run.moment index).now
  · exact .inl (recent_le_succ hmemory hnow)
  · refine .inr ⟨?_, hvirtual index hnow⟩
    by_contra hclock
    exact hnow ((run.move index).now_eq hclock)

/-! ## Rows -/

/-- What is written is lawful. -/
theorem lawful_of_writes (hbegins : run.Begins) (hmemory : run.InMemory)
    (hvirtual : run.Virtual) {save : Nat} {party : Party} {submission : Submission}
    {saved : Transaction} (hwrites : run.Writes save party submission saved) :
    run.Lawful save submission saved := by
  obtain ⟨hcustomer, product, clock, ⟨held, hrecent, hproduct⟩, hclock, hcheck⟩ :=
    accepts_of_writes hwrites (knows_recent hbegins hmemory hvirtual hwrites.1)
  obtain ⟨hactive, hcost, hquantity, hpast⟩ := Transaction.checkAgainst_some_eq_ok_iff.mp hcheck
  have hsubmitted := submitted hbegins hwrites.1
  obtain ⟨-, -, _, -, hturn⟩ := hwrites
  obtain ⟨id, time, ids, rfl, hown, -⟩ := hturn.row
  exact
    { submitted := hsubmitted
      row := ⟨id, time, rfl, hown⟩
      quantity := hquantity
      customer := hcustomer
      product := ⟨held, product, hrecent, hproduct, hactive, hcost⟩
      time := hclock ▸ hpast }

/-- A row is there already or is written in the move. -/
theorem mem_or_writes_of_mem_succ (hbegins : run.Begins) (hmemory : run.InMemory) {index : Nat}
    {row : Int × Transaction} (hrow : row ∈ (run.moment (index + 1)).ledger.transactions) :
    row ∈ (run.moment index).ledger.transactions ∨
      ∃ party submission, run.Writes index party submission row.2 := by
  cases origin_of_mem hbegins hrow with
  | kept hold => exact .inl hold
  | written hwrites => exact .inr ⟨_, _, hwrites⟩
  | direct htask hcommand =>
      have hregular := hmemory.regular index _ htask
      rw [hcommand] at hregular
      exact hregular.elim
  | behind hstore => exact absurd hstore (hmemory.store index)

/-- Every row was there at the beginning or was written for a submission. -/
theorem mem_or_writes_of_mem (hbegins : run.Begins) (hmemory : run.InMemory) {index : Nat}
    {row : Int × Transaction} (hrow : row ∈ (run.moment index).ledger.transactions) :
    row ∈ (run.moment 0).ledger.transactions ∨
      ∃ save < index, ∃ party submission, run.Writes save party submission row.2 := by
  induction index with
  | zero => exact .inl hrow
  | succ index ih =>
      rcases mem_or_writes_of_mem_succ hbegins hmemory hrow with hold | ⟨party, submission, hwrites⟩
      · exact (ih hold).imp_right fun ⟨save, hsave, hwritten⟩ => ⟨save, by omega, hwritten⟩
      · exact .inr ⟨index, Nat.lt_succ_self _, party, submission, hwrites⟩

/-- **Only valid transactions are saved.**  All that is ever written is lawful, and every row of the
ledger was there at the beginning or was written. -/
theorem lawful (hbegins : run.Begins) (hmemory : run.InMemory) (hvirtual : run.Virtual) :
    (∀ save party submission saved, run.Writes save party submission saved →
      run.Lawful save submission saved) ∧
      ∀ index, ∀ row ∈ (run.moment index).ledger.transactions,
        row ∈ (run.moment 0).ledger.transactions ∨
          ∃ save < index, ∃ party submission, run.Writes save party submission row.2 :=
  ⟨fun _ _ _ _ hwrites => lawful_of_writes hbegins hmemory hvirtual hwrites,
    fun _ _ hrow => mem_or_writes_of_mem hbegins hmemory hrow⟩

end Run

/-! ## A product that has changed since -/

/-- Everyone pauses. -/
def isIdle (crowd : Crowd) : Bool :=
  let jobs := crowd.place.staff.flatMap fun worker => worker.jobs.map (·.watched.state)
  (crowd.tasks.filterMap Task.submission? ++ jobs).all (·.isPaused crowd.place.pipeline)

theorem isPaused_of_isIdle {crowd : Crowd} (hidle : crowd.isIdle = true) {party : Party}
    {submission : Submission} (hsubmission : crowd.submission? party = some submission) :
    submission.isPaused crowd.place.pipeline = true := by
  refine List.all_eq_true.mp hidle submission ?_
  cases party with
  | task position =>
      obtain ⟨task, htask, hsubmission⟩ := Option.bind_eq_some_iff.mp hsubmission
      exact List.mem_append_left _
        (List.mem_filterMap.mpr ⟨task, List.mem_of_getElem? htask, hsubmission⟩)
  | job position number =>
      obtain ⟨worker, hworker, hjob⟩ := Option.bind_eq_some_iff.mp hsubmission
      obtain ⟨job, hfound, rfl⟩ := Option.map_eq_some_iff.mp hjob
      exact List.mem_append_right _ (List.mem_flatMap.mpr ⟨worker, List.mem_of_getElem? hworker,
        List.mem_map.mpr ⟨job, List.mem_of_find?_eq_some hfound, rfl⟩⟩)
  | _ => cases hsubmission

/-- A script of regular commands makes a run in memory. -/
theorem Run.inMemory_ofScript {start : Crowd} {script : List Instruction}
    (hstart : ∀ task ∈ start.tasks, task.command.IsRegular)
    (hscript : ∀ command, .tell command ∈ script → command.IsRegular) :
    (Run.ofScript start script).InMemory where
  store := Run.party_ofScript_ne_store start script
  regular := Run.command_ofScript hstart hscript

/-- A script that lets time pass only while everyone pauses makes a run in virtual time. -/
theorem Run.virtual_ofScript {start : Crowd} {script : List Instruction}
    (hidle : ∀ index < script.length, (script[index]?.any Instruction.isPass) = true →
      (start.after script index).isIdle = true) :
    (Run.ofScript start script).Virtual := by
  intro index hnow party submission hsubmission
  refine isPaused_of_isIdle ?_ hsubmission
  change (start.after script (index + 1)).now ≠ (start.after script index).now at hnow
  cases hinstruction : script[index]? with
  | none =>
      simp only [after, hinstruction] at hnow
      exact absurd rfl hnow
  | some instruction =>
      refine hidle index (List.getElem?_eq_some_iff.mp hinstruction).1 ?_
      simp only [after, hinstruction] at hnow
      rw [hinstruction, Option.any_some]
      by_contra hpass
      exact hnow (now_perform (by simpa using hpass))

/-- A product with a price at which three of it cost too much. -/
private def dearProduct : Product :=
  { code := "P1", cost := costCeiling, status := Product.activeStatus }

/-- A transaction is processed, then the price of its product goes up, and a while later another
one is processed. -/
private def staleScript : List Instruction :=
  [.tell (.process (.new 1 "P1" 2 .text))] ++ List.replicate 24 (.task 0) ++
    [.tell (.putProduct dearProduct), .task 1, .pass 1000,
      .tell (.process (.new 1 "P1" 3 .text))] ++ List.replicate 24 (.task 2)

/-- The run by this script. -/
def staleProduct : Run :=
  .ofScript { now := 0, place := .new smallPipeline, tasks := [] } staleScript

theorem begins_staleProduct : staleProduct.Begins :=
  ⟨_, _, _, _, 0, new?_smallPipeline, rfl⟩

theorem inMemory_staleProduct : staleProduct.InMemory := by
  refine Run.inMemory_ofScript (List.forall_mem_nil _) ?_
  intro command hcommand
  have htold : command = .process (.new 1 "P1" 2 .text) ∨ command = .putProduct dearProduct ∨
      command = .process (.new 1 "P1" 3 .text) := by
    simpa [staleScript] using hcommand
  rcases htold with rfl | rfl | rfl <;> trivial

/-- The second transaction is saved lawfully, by the old price, although the new one does not
allow it. -/
theorem lawful_staleProduct :
    (∃ product, (staleProduct.moment 53).ledger.product? "P1" = some product ∧
      (checkCost product.cost 3).isOk = false) ∧
      ∃ save < 53, ∃ party submission saved, saved.quantity = 3 ∧
        staleProduct.Writes save party submission saved ∧
          staleProduct.Lawful save submission saved := by
  have hvirtual : staleProduct.Virtual := Run.virtual_ofScript (by decide +kernel)
  obtain ⟨hlawful, horigin⟩ := Run.lawful begins_staleProduct inMemory_staleProduct hvirtual
  have hempty : (staleProduct.moment 0).ledger.transactions = [] := rfl
  have hrow : (staleProduct.moment 53).ledger.transactions.any
      (fun row => row.2.quantity = 3) = true := by decide +kernel
  have hproduct : ((staleProduct.moment 53).ledger.product? "P1").any
      (fun product => (checkCost product.cost 3).isOk = false) = true := by decide +kernel
  obtain ⟨product, hfound, hcost⟩ := (Option.any_eq_true _ _).mp hproduct
  refine ⟨⟨product, hfound, of_decide_eq_true hcost⟩, ?_⟩
  obtain ⟨row, hrow, hquantity⟩ := List.any_eq_true.mp hrow
  rcases horigin 53 row hrow with hold | ⟨save, hsave, party, submission, hwrites⟩
  · rw [hempty] at hold
    cases hold
  · exact ⟨save, hsave, party, submission, row.2, of_decide_eq_true hquantity, hwrites,
      hlawful _ _ _ _ hwrites⟩

end Crowd

end Clearing
