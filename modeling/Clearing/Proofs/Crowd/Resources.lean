import Clearing.Proofs.Crowd.Books
import Clearing.Proofs.Operation.Changes

/-!
# The ledger and the caches in a run

What a move does to the resources is listed once, in `Crowd.Touches`: a
submission makes a step, a query or a check leaves the ledger alone, or a
customer or a product is put into the ledger.

A run is in memory if nothing gets in the way of requests and every row of the
ledger is written by a submission (`Run.InMemory`).  In such a run requests are
answered at once and never fail (`isFair`), and customers and products that are
in the ledger stay there (`ledger_grows`).
-/

namespace Clearing

/-- The command neither gets in the way of requests nor saves behind the back of the store. -/
def Command.IsRegular : Command → Prop
  | .replan .. => False
  | .saveDirectly _ => False
  | _ => True

namespace Crowd

/-! ## Moves -/

/-- What a move can do to the resources. -/
inductive Touches (crowd next : Crowd) (mover : Party) : Prop
  | submission {submission later : Submission}
      (hsubmission : crowd.submission? mover = some submission)
      (hstep : submission.step? crowd.now crowd.place.pipeline =
        some (next.place.pipeline, later))
  | aside (hchange : crowd.resources.Change crowd.now next.resources)
      (hledger : next.ledger = crowd.ledger)
  | customer (customer : Customer)
      (hnext : next.resources = crowd.resources.mapLedger (·.putCustomer customer))
  | product (product : Product)
      (hnext : next.resources = crowd.resources.mapLedger (·.putProduct product))

variable {crowd next : Crowd} {mover : Party}

private theorem Touches.of_same (hsame : next.resources = crowd.resources) :
    Touches crowd next mover :=
  .aside (hsame ▸ .rest) (congrArg (·.store.ledger) hsame)

/-- The ledger is left alone. -/
private theorem Touches.of_change {resources : Resources} (hnext : next.resources = resources)
    (hchange : crowd.resources.Change crowd.now resources)
    (hledger : resources.store.ledger = crowd.ledger) : Touches crowd next mover := by
  subst hnext
  exact .aside hchange hledger

/-- The first step of a regular command. -/
theorem touches_of_begin {place after : Workplace} {command : Command} {later : TaskState}
    (hregular : command.IsRegular) (hplace : crowd.place = place)
    (hnext : next.place = after)
    (hbegin : Task.begin crowd.now place command = (after, later)) :
    Touches crowd next mover := by
  subst hplace hnext
  have hsame (hsame : next.place.pipeline.resources = crowd.place.pipeline.resources) :
      Touches crowd next mover := .of_same hsame
  cases command with
  | batch transactions format => exact hsame (by rw [Task.pipeline_hire hbegin])
  | consume records format =>
      rw [Task.begin_consume] at hbegin
      exact hsame (by rw [Task.pipeline_hire hbegin])
  | replan | saveDirectly => exact hregular.elim
  | putCustomer customer =>
      obtain ⟨hafter, -⟩ := Prod.mk.inj hbegin
      exact .customer customer (by rw [resources, ← hafter]; rfl)
  | putProduct product =>
      obtain ⟨hafter, -⟩ := Prod.mk.inj hbegin
      exact .product product (by rw [resources, ← hafter]; rfl)
  | invalidateSummaries =>
      obtain ⟨hafter, -⟩ := Prod.mk.inj hbegin
      have hresources : next.resources = crowd.resources.invalidateSummaries := by
        rw [resources, ← hafter]
        rfl
      refine .aside ?_ ?_
      · rw [hresources]
        exact .summarize _
      · rw [ledger, hresources]
        rfl
  | _ =>
      obtain ⟨hafter, -⟩ := Prod.mk.inj hbegin
      exact hsame (by rw [← hafter])

/-- A step of a task, unless it is the first one of an irregular command. -/
theorem touches_of_taskStep? {position : Nat} {task later : Task}
    (htask : crowd.tasks[position]? = some task)
    (hregular : task.state = .starting → task.command.IsRegular)
    (hstep : task.step? crowd.now crowd.place = some (next.place, later)) :
    Touches crowd next (.task position) := by
  obtain ⟨-, hact⟩ := Task.act_of_step? hstep
  obtain ⟨command, state⟩ := task
  dsimp only at hact hregular
  generalize later.state = after at hact
  generalize hnext : next.place = place at hact
  cases hact with
  | begin hbegin => exact touches_of_begin (hregular rfl) rfl hnext hbegin
  | @submission submission later pipeline hinner =>
      have hsubmission : crowd.submission? (.task position) = some submission :=
        Option.bind_eq_some_iff.mpr ⟨_, htask, rfl⟩
      have hstep : submission.step? crowd.now crowd.place.pipeline =
          some (next.place.pipeline, later) := by
        rw [hnext, (crowd.place.alike_afterStep submission pipeline).pipeline]
        exact hinner
      exact .submission hsubmission hstep
  | check hinner =>
      have hbooks := Operation.Keeps.timed (validation_keeps_books _ _) _ _ hinner
      exact .of_change (congrArg (·.pipeline.resources) hnext)
        (Operation.Changes.timed (validation_changes _ _) _ _ hinner) (congrArg Prod.fst hbooks)
  | askCustomers hinner =>
      exact .of_change (congrArg (·.pipeline.resources) hnext)
        (SummaryKind.laws_customers.query_changes hinner)
        (SummaryKind.laws_customers.query_keeps_ledger hinner)
  | askProducts hinner =>
      exact .of_change (congrArg (·.pipeline.resources) hnext)
        (SummaryKind.laws_products.query_changes hinner)
        (SummaryKind.laws_products.query_keeps_ledger hinner)
  | count hinner =>
      obtain ⟨⟨store, asked⟩, hasked, hafter⟩ := Option.map_eq_some_iff.mp hinner
      cases hafter
      exact .of_change (congrArg (·.pipeline.resources) hnext)
        (Request.change_of_step? (fun _ _ => rfl) hasked)
        (Request.keeps_ledger (fun _ _ => rfl) hasked)
  | conclude hconclude =>
      unfold Task.conclude at hconclude
      obtain ⟨hafter, -⟩ := Prod.mk.inj hconclude
      split at hafter
      · exact .of_same (by rw [Crowd.resources, hnext, ← hafter]; rfl)
      · have hresources : next.resources = crowd.resources.invalidateSummaries :=
          congrArg (·.pipeline.resources) (hnext.trans hafter.symm)
        exact .of_change hresources (.summarize _) rfl
  | _ => exact .of_same (by rw [Crowd.resources, hnext]; rfl)

theorem Move.touches (hmove : Move mover crowd next) (hstore : mover ≠ .store)
    (hregular : ∀ position task, mover = .task position → crowd.tasks[position]? = some task →
      task.state = .starting → task.command.IsRegular) : Touches crowd next mover := by
  cases hmove with
  | change store => exact absurd rfl hstore
  | keepBooks halike =>
      refine .of_same ?_
      unfold resources
      rw [halike.pipeline]
  | stepTask htask hstep =>
      exact touches_of_taskStep? htask (hregular _ _ rfl htask) hstep
  | @stepJob _ position number worker job place later hworker hjob hstep =>
      obtain ⟨⟨pipeline, stepped⟩, hinner, hafter⟩ := Option.map_eq_some_iff.mp hstep
      cases hafter
      have hpipeline : (crowd.place.afterStep job.watched.state pipeline).pipeline = pipeline :=
        (crowd.place.alike_afterStep job.watched.state pipeline).pipeline
      rw [← hpipeline] at hinner
      exact .submission (crowd.submission?_of_job hworker hjob) hinner
  | loseJob hworker hjob hending =>
      refine .of_same ?_
      unfold resources
      rw [(Workplace.loseWorker_spec hworker ..).2]
  | _ => exact .of_same rfl

/-- A move changes the resources as operations do, or puts reference data into the ledger. -/
theorem Touches.change (htouches : Touches crowd next mover) :
    crowd.resources.Change crowd.now next.resources ∨
      (∃ customer, next.resources = crowd.resources.mapLedger (·.putCustomer customer)) ∨
        ∃ product, next.resources = crowd.resources.mapLedger (·.putProduct product) := by
  cases htouches with
  | submission _ hstep => exact .inl (Submission.change_of_step? hstep)
  | aside hchange => exact .inl hchange
  | customer customer hnext => exact .inr (.inl ⟨customer, hnext⟩)
  | product product hnext => exact .inr (.inr ⟨product, hnext⟩)

end Crowd

/-! ## Conditions and growth -/

/-- Requests are answered at once and never fail. -/
structure Condition.IsFair (condition : Condition) : Prop where
  delay : condition.delayMillis = 0
  failures : condition.failures = 0
  aborts : condition.aborts = 0

theorem Condition.Eases.isFair {condition later : Condition} (heases : condition.Eases later)
    (hfair : condition.IsFair) : later.IsFair :=
  ⟨heases.delay.trans hfair.delay, Nat.le_zero.mp (hfair.failures ▸ heases.failures),
    Nat.le_zero.mp (hfair.aborts ▸ heases.aborts)⟩

/-- Nothing gets in the way of requests. -/
def Resources.IsFair (resources : Resources) : Prop :=
  ∀ kind, (resources.store.conditions.of kind).IsFair

theorem Resources.isFair_new (ledger : Ledger) (lifetimeMillis : Nat) :
    (Resources.new ledger lifetimeMillis).IsFair := by
  intro kind
  cases kind <;> exact ⟨rfl, rfl, rfl⟩

theorem Resources.Change.isFair {now : Nat} {before after : Resources}
    (hchange : before.Change now after) (hfair : before.IsFair) : after.IsFair := by
  cases hchange with
  | count kind heases =>
      intro other
      simp only [Store.withCondition, Conditions.of_set]
      split
      · rename_i hkind
        rw [← hkind] at heases
        exact heases.isFair (hfair other)
      · exact hfair other
  | _ => exact hfair

/-- Customers and products that are in the ledger stay there. -/
structure Ledger.Grows (ledger later : Ledger) : Prop where
  customer {id : Int} (hknown : ledger.hasCustomer id = true) : later.hasCustomer id = true
  product {code : String} (hknown : (ledger.product? code).isSome = true) :
    (later.product? code).isSome = true

namespace Ledger

theorem Grows.refl (ledger : Ledger) : ledger.Grows ledger := ⟨id, id⟩

theorem Grows.trans {ledger second third : Ledger} (hfirst : ledger.Grows second)
    (hsecond : second.Grows third) : ledger.Grows third :=
  ⟨fun hknown => hsecond.customer (hfirst.customer hknown),
    fun hknown => hsecond.product (hfirst.product hknown)⟩

theorem product?_putProduct (ledger : Ledger) (product : Product) (code : String) :
    (ledger.putProduct product).product? code =
      if code = product.code then some product else ledger.product? code :=
  Table.find?_insert ..

theorem hasCustomer_putCustomer (ledger : Ledger) (customer : Customer) (id : Int) :
    (ledger.putCustomer customer).hasCustomer id =
      (decide (id = customer.id) || ledger.hasCustomer id) := by
  simp only [hasCustomer, putCustomer, Table.find?_insert]
  split <;> simp [*]

theorem grows_putCustomer (ledger : Ledger) (customer : Customer) :
    ledger.Grows (ledger.putCustomer customer) where
  customer hknown := by rw [hasCustomer_putCustomer, hknown, Bool.or_true]
  product := id

theorem grows_putProduct (ledger : Ledger) (product : Product) :
    ledger.Grows (ledger.putProduct product) where
  customer := id
  product hknown := by
    rw [product?_putProduct]
    split
    · rfl
    · exact hknown

theorem grows_save (ledger : Ledger) (transaction : Transaction) :
    ledger.Grows (ledger.save transaction).2 := by
  obtain ⟨id, ids, -, hsave⟩ := ledger.save_eq transaction
  rw [hsave]
  exact ⟨fun hknown => hknown, fun hknown => hknown⟩

end Ledger

theorem Resources.Change.grows {now : Nat} {before after : Resources}
    (hchange : before.Change now after) :
    before.store.ledger.Grows after.store.ledger := by
  cases hchange with
  | save transaction => exact before.store.ledger.grows_save transaction
  | _ => exact .refl _

/-! ## Runs in memory -/

namespace Crowd.Run

/-- Nothing gets in the way of requests, and every row is written by a submission. -/
structure InMemory (run : Run) : Prop where
  store (index : Nat) : run.party index ≠ .store
  regular (index : Nat) : ∀ task ∈ (run.moment index).tasks, task.command.IsRegular

variable {run : Run}

theorem InMemory.touches (hmemory : run.InMemory) (index : Nat) :
    Touches (run.moment index) (run.moment (index + 1)) (run.party index) :=
  (run.move index).touches (hmemory.store index) fun _ _ _ htask _ =>
    hmemory.regular index _ (List.mem_of_getElem? htask)

theorem isFair (hbegins : run.Begins) (hmemory : run.InMemory) (index : Nat) :
    (run.moment index).resources.IsFair := by
  induction index with
  | zero =>
      obtain ⟨settings, ledger, clock, pipeline, now, hnew, hstart⟩ := hbegins
      obtain ⟨guards, rfl⟩ := Pipeline.eq_of_new? hnew
      rw [hstart]
      exact Resources.isFair_new ledger settings.cacheMillis
  | succ index ih =>
      rcases (hmemory.touches index).change with hchange | ⟨customer, hnext⟩ | ⟨product, hnext⟩
      · exact hchange.isFair ih
      · rw [hnext]
        exact ih
      · rw [hnext]
        exact ih

theorem ledger_grows_succ (hmemory : run.InMemory) (index : Nat) :
    (run.moment index).ledger.Grows (run.moment (index + 1)).ledger := by
  rcases (hmemory.touches index).change with hchange | ⟨customer, hnext⟩ | ⟨product, hnext⟩
  · exact hchange.grows
  · unfold ledger
    rw [hnext]
    exact Ledger.grows_putCustomer _ customer
  · unfold ledger
    rw [hnext]
    exact Ledger.grows_putProduct _ product

/-- What is in the ledger stays there. -/
theorem ledger_grows (hmemory : run.InMemory) {earlier later : Nat} (hle : earlier ≤ later) :
    (run.moment earlier).ledger.Grows (run.moment later).ledger := by
  induction hle with
  | refl => exact .refl _
  | step _ ih => exact ih.trans (ledger_grows_succ hmemory _)

end Crowd.Run

end Clearing
