import Clearing.Proofs.Crowd.Rows
import Clearing.Proofs.Crowd.Script
import Clearing.Proofs.Crowd.Submitted
import Clearing.Proofs.Summaries.Freshness
import Clearing.Proofs.Transaction.Encoding

/-!
# What transactions keep in a run

A pipeline does two things to a transaction: it marks it as processed, and the store gives it an
identifier.  What this takes from no transaction, and what every readable record has, is kept in
a run: if all that is handed in has it, so have all rows and all that is given back
(`Crowd.Run.Supplied.property_of_row`, `Crowd.Run.Supplied.property_of_returned`).

That payloads are in the encodings of their transactions is kept in this way, and so it holds on
both sides of the pipeline and in the store (`one_encoding`).
-/

namespace Clearing

/-- The pipeline and the store do not take the property away. -/
structure Transaction.Lasting (property : Transaction → Prop) : Prop where
  ofRecord {bytes : Bytes} {format : WireFormat} {transaction : Transaction}
    (hresult : ofRecord bytes format = .ok transaction) : property transaction
  withId {transaction : Transaction} (hproperty : property transaction) (id : Int) :
    property (transaction.withId id)
  markProcessed {transaction : Transaction} (hproperty : property transaction)
    (time : Timestamp) : property (transaction.markProcessed time)

theorem Transaction.lasting_made : Lasting Made where
  ofRecord := .ofRecord
  withId := .withId
  markProcessed := .markProcessed

/-- The transactions that come with a command as they are. -/
def Command.given : Command → List Transaction
  | .process transaction => [transaction]
  | .batch transactions _ => transactions
  | .saveDirectly transaction => [transaction]
  | _ => []

/-- What is handed in was given or comes from a record. -/
theorem Command.property_of_mem_transactions {property : Transaction → Prop}
    (hlasting : Transaction.Lasting property) {command : Command}
    (hgiven : ∀ transaction ∈ command.given, property transaction) :
    ∀ transaction ∈ command.transactions, property transaction := by
  cases command with
  | process | batch => exact hgiven
  | consume records format =>
      intro transaction hmem
      obtain ⟨record, -, hread⟩ := List.mem_filterMap.mp hmem
      cases record with
      | none => cases hread
      | some bytes =>
          rw [Task.readRecord] at hread
          cases hrecord : Transaction.ofRecord bytes format with
          | error failure =>
              rw [hrecord] at hread
              cases hread
          | ok transaction =>
              rw [hrecord] at hread
              cases hread
              exact hlasting.ofRecord hrecord
  | _ => exact List.forall_mem_nil _

namespace Crowd.Run

/-- All that comes to the pipeline or to the store from outside has the property. -/
structure Supplied (run : Run) (property : Transaction → Prop) : Prop where
  start : ∀ row ∈ (run.moment 0).ledger.transactions, property row.2
  commands (index : Nat) : ∀ task ∈ (run.moment index).tasks,
    ∀ transaction ∈ task.command.given, property transaction
  store (index : Nat) : run.party index = .store →
    ∀ row ∈ (run.moment (index + 1)).ledger.transactions,
      row ∈ (run.moment index).ledger.transactions ∨ property row.2

variable {run : Run} {property : Transaction → Prop} {index : Nat}

/-- What is saved for a transaction has what the transaction has. -/
theorem property_of_saves (hlasting : Transaction.Lasting property) {party : Party}
    {submitted saved : Transaction} (hsaves : run.Saves index party submitted saved)
    (hproperty : property submitted) : property saved := by
  obtain ⟨-, submission, -, hturn⟩ := hsaves
  obtain ⟨id, time, ids, rfl, -, -⟩ := hturn.row
  exact hlasting.withId (hlasting.markProcessed hproperty time) id

namespace Supplied

theorem property_of_submission (hbegins : run.Begins)
    (hlasting : Transaction.Lasting property) (hsupplied : run.Supplied property) {party : Party}
    {submission : Submission} (hsubmission : (run.moment index).submission? party = some submission) :
    property submission.transaction := by
  obtain ⟨task, htask, hmem⟩ := submitted hbegins hsubmission
  exact Command.property_of_mem_transactions hlasting (hsupplied.commands index task htask) _ hmem

/-- **Every row keeps it.** -/
theorem property_of_row (hbegins : run.Begins) (hlasting : Transaction.Lasting property)
    (hsupplied : run.Supplied property) (index : Nat) :
    ∀ row ∈ (run.moment index).ledger.transactions, property row.2 := by
  induction index with
  | zero => exact hsupplied.start
  | succ index ih =>
      intro row hrow
      cases origin_of_mem hbegins hrow with
      | kept hold => exact ih row hold
      | written hwrites =>
          have hproperty := property_of_submission hbegins hlasting hsupplied hwrites.1
          exact property_of_saves hlasting hwrites.2 hproperty
      | @direct task transaction htask hcommand hsaved =>
          have hgiven := hsupplied.commands index task htask
          rw [hcommand] at hgiven
          have hproperty : property transaction := hgiven transaction (List.mem_singleton_self _)
          obtain ⟨id, ids, -, hsave⟩ := (run.moment index).ledger.save_eq transaction
          rw [hsaved, hsave]
          exact hlasting.withId hproperty id
      | behind hstore => exact (hsupplied.store index hstore row hrow).elim (ih row) id

/-- **So does every transaction that is given back.** -/
theorem property_of_returned (hbegins : run.Begins) (hlasting : Transaction.Lasting property)
    (hsupplied : run.Supplied property) {saved : Transaction} {party? : Option Party}
    (hreturned : run.Returned index saved party?) : property saved := by
  obtain ⟨party, -, earlier, -, submission, hsubmission, hending⟩ :=
    succeeded_of_returned hbegins hreturned
  obtain ⟨footprint, hleft, hbacks⟩ :=
    backs_of_submission hbegins earlier party submission hsubmission
  obtain rfl := Submission.left_of_ending? hleft hending
  cases hbacks with
  | published hsave hsaves hgeneration =>
      have hproperty := property_of_submission hbegins hlasting hsupplied hsubmission
      exact property_of_saves hlasting hsaves hproperty

end Supplied

/-- A script that tells commands with the property makes a run that is supplied with it. -/
theorem supplied_ofScript {start : Crowd} {script : List Instruction}
    (hrows : ∀ row ∈ start.ledger.transactions, property row.2)
    (htasks : ∀ task ∈ start.tasks, ∀ transaction ∈ task.command.given, property transaction)
    (hscript : ∀ command, .tell command ∈ script →
      ∀ transaction ∈ command.given, property transaction) :
    (Run.ofScript start script).Supplied property where
  start := hrows
  commands := Run.command_ofScript htasks hscript
  store index hstore := absurd hstore (party_ofScript_ne_store start script index)

end Crowd.Run

open Crowd

/-- **One encoding.**  Whatever was done to a transaction, its payload is in the encoding that it
has now, and in a run all rows and all transactions that are given back are among those that were
made like this.  A payload that cannot be put in changes nothing, and a change of the encoding
changes nothing else. -/
theorem one_encoding :
    (∀ transaction : Transaction, transaction.Made →
        transaction.InOwnEncoding ∧ transaction.Consistent) ∧
      (∀ (transaction later : Transaction) (payload : Payload) (failure : Failure),
        (Transaction.setPayload payload).run.run transaction = (.error failure, later) →
        later = transaction) ∧
      (∀ (transaction result : Transaction) (format : WireFormat),
        transaction.withFormat format = .ok result → transaction.Recoded format result) ∧
      ∀ run : Run, run.Begins → run.Supplied Transaction.Made → ∀ index,
        (∀ row ∈ (run.moment index).ledger.transactions, row.2.Made) ∧
          ∀ saved party?, run.Returned index saved party? → saved.Made := by
  refine ⟨?_, ?_, ?_, ?_⟩
  · intro transaction hmade
    exact ⟨hmade.inOwnEncoding, hmade.inOwnEncoding.consistent⟩
  · intro transaction later payload failure hset
    rcases Transaction.setPayload_cases hset with ⟨hok, -⟩ | ⟨_, -, -, hsame⟩
    · cases hok
    · exact hsame
  · intro transaction result format hresult
    exact Transaction.recoded_of_withFormat hresult
  · intro run hbegins hsupplied index
    refine ⟨hsupplied.property_of_row hbegins Transaction.lasting_made index, ?_⟩
    intro saved party? hreturned
    exact hsupplied.property_of_returned hbegins Transaction.lasting_made hreturned

/-- A purchase with a payload. -/
private def textTicket : Transaction :=
  { Transaction.new 1 "P1" 2 .text with payload := some (.text "\x7b\"a\":true\x7d") }

/-- The same in binary. -/
private def binaryTicket : Transaction :=
  { Transaction.new 1 "P1" 2 .binary with
    payload := some (.binary [9, 0, 0, 0, 8, 97, 0, 1, 0]) }

private theorem made_binaryTicket : binaryTicket.Made := by
  have htext : (Transaction.new 1 "P1" 2 .text).withPayload [("a", .bool true)] =
      .ok textTicket := by decide +kernel
  have hbinary : textTicket.withFormat .binary = .ok binaryTicket := by decide +kernel
  exact ((Transaction.Made.new 1 "P1" 2 .text).withPayload htext).withFormat hbinary

/-- It is processed. -/
private def ticketRun : Run :=
  .ofScript { now := 0, place := .new smallPipeline, tasks := [] }
    (.tell (.process binaryTicket) :: List.replicate 24 (.task 0))

/-- What was returned without a failure. -/
private def given? : Ending Transaction → Option Transaction
  | .returned (.ok transaction) => some transaction
  | _ => none

/-- The row has the payload in binary, as has what is given back; a payload with a name that binary
cannot hold is not put in, and the ticket can be put into text again. -/
theorem one_encoding_binaryTicket :
    (∃ row ∈ (ticketRun.moment 25).ledger.transactions, row.2.payload.isSome = true ∧
        row.2.format = .binary ∧ row.2.InOwnEncoding ∧ row.2.Consistent) ∧
      (∃ saved, ticketRun.Returned 24 saved (some (.task 0)) ∧ saved.InOwnEncoding) ∧
      (∃ failure later, (Transaction.setPayload [("\x00", .null)]).run.run binaryTicket =
        (.error failure, later) ∧ later = binaryTicket) ∧
      binaryTicket.withFormat .text = .ok textTicket ∧ binaryTicket.Recoded .text textTicket := by
  obtain ⟨hmade, hset, hformat, hrun⟩ := one_encoding
  have hsupplied : ticketRun.Supplied Transaction.Made := by
    refine Run.supplied_ofScript (List.forall_mem_nil _) (List.forall_mem_nil _) ?_
    intro command hcommand
    obtain rfl : command = .process binaryTicket := by simpa using hcommand
    exact List.forall_mem_singleton.mpr made_binaryTicket
  have hkept := hrun ticketRun ⟨_, _, _, _, 0, new?_smallPipeline, rfl⟩ hsupplied
  refine ⟨?_, ?_, ?_, ?_⟩
  · have hrow : (ticketRun.moment 25).ledger.transactions.any
        (fun row => row.2.payload.isSome && row.2.format = .binary) = true := by decide +kernel
    obtain ⟨row, hrow, hparts⟩ := List.any_eq_true.mp hrow
    obtain ⟨hpayload, hbinary⟩ := Bool.and_eq_true_iff.mp hparts
    obtain ⟨hown, hconsistent⟩ := hmade row.2 ((hkept 25).1 row hrow)
    exact ⟨row, hrow, hpayload, of_decide_eq_true hbinary, hown, hconsistent⟩
  · have hending : (((ticketRun.moment 24).submission? (.task 0)).bind fun submission =>
        submission.ending?.bind given?).isSome = true := by decide +kernel
    obtain ⟨saved, hsaved⟩ := Option.isSome_iff_exists.mp hending
    obtain ⟨submission, hsubmission, hsaved⟩ := Option.bind_eq_some_iff.mp hsaved
    obtain ⟨ending, hending, hsaved⟩ := Option.bind_eq_some_iff.mp hsaved
    obtain rfl : ending = .returned (.ok saved) := by
      unfold given? at hsaved
      split at hsaved <;> cases hsaved
      rfl
    have hreturned : ticketRun.Returned 24 saved (some (.task 0)) :=
      .ended ⟨24, le_rfl, submission, hsubmission, hending⟩
    exact ⟨saved, hreturned, (hmade saved ((hkept 24).2 saved _ hreturned)).1⟩
  · have hrefused : (Transaction.setPayload [("\x00", .null)]).run.run binaryTicket =
        (.error (.codec .binary 0 .malformed), binaryTicket) := by rfl
    exact ⟨_, _, hrefused, hset _ _ _ _ hrefused⟩
  · have htext : binaryTicket.withFormat .text = .ok textTicket := by decide +kernel
    exact ⟨htext, hformat binaryTicket textTicket .text htext⟩

end Clearing
