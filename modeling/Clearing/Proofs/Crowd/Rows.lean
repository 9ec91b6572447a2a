import Clearing.Proofs.Crowd.References

/-!
# Where rows come from

A row that is in the ledger after a move was there before, or a submission has written it in the
move, or it was saved past the pipeline by a command, or the store has changed behind everyone's
back (`Crowd.Run.origin_of_mem`).  There is no other way into the ledger.
-/

namespace Clearing

namespace Crowd

variable {crowd next : Crowd} {mover : Party}

/-- What irregular commands do to the ledger: nothing, or they save a transaction. -/
theorem ledger_of_begin {place after : Workplace} {command : Command} {later : TaskState}
    (hirregular : ¬command.IsRegular) (hplace : crowd.place = place) (hnext : next.place = after)
    (hbegin : Task.begin crowd.now place command = (after, later)) :
    next.ledger = crowd.ledger ∨ ∃ transaction, command = .saveDirectly transaction ∧
      next.ledger = (crowd.ledger.save transaction).2 := by
  subst hplace hnext
  cases command with
  | replan =>
      obtain ⟨hafter, -⟩ := Prod.mk.inj hbegin
      refine .inl ?_
      rw [ledger, resources, ← hafter]
      rfl
  | saveDirectly transaction =>
      obtain ⟨hafter, -⟩ := Prod.mk.inj hbegin
      refine .inr ⟨transaction, rfl, ?_⟩
      rw [ledger, resources, ← hafter]
      rfl
  | _ => exact absurd trivial hirregular

/-- A move that is not one of the store touches the resources as listed, or begins an irregular
command. -/
theorem Move.ledger_cases (hmove : Move mover crowd next) (hstore : mover ≠ .store) :
    Touches crowd next mover ∨ next.ledger = crowd.ledger ∨
      ∃ task ∈ crowd.tasks, ∃ transaction, task.command = .saveDirectly transaction ∧
        next.ledger = (crowd.ledger.save transaction).2 := by
  by_cases hregular : ∀ position task, mover = .task position →
    crowd.tasks[position]? = some task → task.state = .starting → task.command.IsRegular
  · exact .inl (hmove.touches hstore hregular)
  · push Not at hregular
    obtain ⟨position, task, rfl, htask, hstarting, hirregular⟩ := hregular
    refine .inr ?_
    cases hmove with
    | stepTask hmoved hstep =>
        obtain rfl := Option.some.inj (htask.symm.trans hmoved)
        obtain ⟨-, hact⟩ := Task.act_of_step? hstep
        rw [hstarting] at hact
        cases hact with
        | begin hbegin =>
            refine (ledger_of_begin hirregular rfl rfl hbegin).imp_right ?_
            rintro ⟨transaction, hcommand, hledger⟩
            exact ⟨task, List.mem_of_getElem? htask, transaction, hcommand, hledger⟩
    | cutTask => exact .inl rfl

namespace Run

variable {run : Run}

/-- Where a row comes from that is in the ledger after the move at an index. -/
inductive Origin (run : Run) (index : Nat) (row : Int × Transaction) : Prop
  | kept (hrow : row ∈ (run.moment index).ledger.transactions)
  | written {party : Party} {submission : Submission}
      (hwrites : run.Writes index party submission row.2)
  | direct {task : Task} {transaction : Transaction} (htask : task ∈ (run.moment index).tasks)
      (hcommand : task.command = .saveDirectly transaction)
      (hrow : row.2 = ((run.moment index).ledger.save transaction).1)
  | behind (hstore : run.party index = .store)

private theorem Origin.of_same {index : Nat} {row : Int × Transaction}
    (hrow : row ∈ (run.moment (index + 1)).ledger.transactions)
    (hledger : (run.moment (index + 1)).ledger.transactions =
      (run.moment index).ledger.transactions) : run.Origin index row :=
  .kept (hledger ▸ hrow)

/-- The rows after a submission has made a step. -/
private theorem origin_of_step (hbegins : run.Begins) {index : Nat} {row : Int × Transaction}
    {submission later : Submission}
    (hsubmission : (run.moment index).submission? (run.party index) = some submission)
    (hstep : submission.step? (run.moment index).now (run.moment index).place.pipeline =
      some ((run.moment (index + 1)).place.pipeline, later))
    (hrow : row ∈ (run.moment (index + 1)).ledger.transactions) : run.Origin index row := by
  obtain ⟨footprint, hleft⟩ := hasFootprints hbegins index _ _ hsubmission
  obtain ⟨-, footprint', -, hturn⟩ := Submission.left_of_step? hleft hstep
  cases hturn with
  | quiet hquiet => exact .of_same hrow (congrArg (·.1.transactions) hquiet.2)
  | @save saved hsaves =>
      obtain ⟨id, time, ids, -, -, hledger⟩ := hsaves.row
      have hrows := congrArg Ledger.transactions hledger
      change (run.moment (index + 1)).ledger.transactions = _ at hrows
      rw [hrows] at hrow
      rcases Table.mem_of_mem_insert hrow with rfl | hold
      · exact .written ⟨hsubmission, rfl, submission, hsubmission, hsaves⟩
      · exact .kept hold
  | publish hpublishes => exact .of_same hrow (congrArg Ledger.transactions hpublishes.ledger)

/-- **There is no other way into the ledger.** -/
theorem origin_of_mem (hbegins : run.Begins) {index : Nat} {row : Int × Transaction}
    (hrow : row ∈ (run.moment (index + 1)).ledger.transactions) : run.Origin index row := by
  by_cases hstore : run.party index = .store
  · exact .behind hstore
  · rcases (run.move index).ledger_cases hstore with
      htouches | hledger | ⟨task, htask, transaction, hcommand, hledger⟩
    · cases htouches with
      | submission hsubmission hstep => exact origin_of_step hbegins hsubmission hstep hrow
      | aside hchange hledger => exact .of_same hrow (congrArg Ledger.transactions hledger)
      | customer customer hnext =>
          exact .of_same hrow (congrArg (·.store.ledger.transactions) hnext)
      | product product hnext =>
          exact .of_same hrow (congrArg (·.store.ledger.transactions) hnext)
    · exact .of_same hrow (congrArg Ledger.transactions hledger)
    · obtain ⟨id, ids, -, hsave⟩ := (run.moment index).ledger.save_eq transaction
      rw [hledger, hsave] at hrow
      rcases Table.mem_of_mem_insert hrow with rfl | hold
      · exact .direct htask hcommand (congrArg Prod.fst hsave).symm
      · exact .kept hold

end Run

end Crowd

end Clearing
