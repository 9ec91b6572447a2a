import Clearing.Proofs.Summaries.Writers

/-!
# Those who ask for summaries, in a run

At any moment of a run the rows in the cache of summaries were shown from a
ledger that was there in the present generation, and whatever a query has in its
hands goes by a ledger from the generation that it noted, or a later one
(`Crowd.Run.backed`).

## Strategy

The ledgers that were there up to some moment, each with its generation, are
what is seen (`Crowd.Run.Seen`).  One move keeps the cache and the tasks backed
by what was seen before it; the induction over the run only adds what is seen
after it.
-/

namespace Clearing

/-- What the cache keeps goes by ledgers that were seen in the present generation. -/
structure SummaryCache.Backed (seen : Nat → Ledger → Prop) (cache : SummaryCache) : Prop where
  customers : cache.SlotBacked .customers SummaryCache.customers seen
  products : cache.SlotBacked .products SummaryCache.products seen

/-- What a task has in its hands goes by ledgers that were seen in a generation, or in later
ones. -/
def TaskState.Backed (seen : Nat → Ledger → Prop) (floor : Nat) : TaskState → Prop
  | .customerSummary state => state.Backed .customers seen floor
  | .productSummary state => state.Backed .products seen floor
  | .done (.customerSummary (.returned (.ok rows))) =>
    SummaryKind.customers.ShowsSince seen floor rows
  | .done (.productSummary (.returned (.ok rows))) =>
    SummaryKind.products.ShowsSince seen floor rows
  | _ => True

/-- The summaries that a reply brings are those of a ledger. -/
def Reply.Shows (ledger : Ledger) : Reply → Prop
  | .customerSummary (.returned (.ok rows)) => SummaryKind.customers.Shows ledger rows
  | .productSummary (.returned (.ok rows)) => SummaryKind.products.Shows ledger rows
  | _ => False

/-- The reply brings summaries. -/
def Reply.isSummary : Reply → Bool
  | .customerSummary (.returned (.ok _)) => true
  | .productSummary (.returned (.ok _)) => true
  | _ => false

variable {seen seen' : Nat → Ledger → Prop} {floor : Nat}

/-! ## One move -/

theorem TaskState.Backed.mono {state : TaskState} (hstate : state.Backed seen floor)
    (hmore : ∀ generation ledger, seen generation ledger → seen' generation ledger) :
    state.Backed seen' floor := by
  unfold TaskState.Backed at hstate ⊢
  split at hstate
  · exact SummaryState.Backed.mono hstate hmore
  · exact SummaryState.Backed.mono hstate hmore
  · exact SummaryKind.ShowsSince.mono hstate hmore
  · exact SummaryKind.ShowsSince.mono hstate hmore
  · trivial

theorem SummaryCache.Backed.mono {cache : SummaryCache} (hcache : cache.Backed seen)
    (hmore : ∀ generation ledger, seen generation ledger → seen' generation ledger) :
    cache.Backed seen' where
  customers entry hentry := (hcache.customers entry hentry).mono hmore
  products entry hentry := (hcache.products entry hentry).mono hmore

/-- An empty cache keeps nothing. -/
theorem SummaryCache.backed_of_none {cache : SummaryCache} (hcustomers : cache.customers = none)
    (hproducts : cache.products = none) : cache.Backed seen where
  customers entry hentry := by rw [hcustomers] at hentry; cases hentry
  products entry hentry := by rw [hproducts] at hentry; cases hentry

namespace Task

variable {now : Nat} {place after : Workplace} {task later : Task}

theorem backed_begin {command : Command} {state : TaskState}
    (hbegin : Task.begin now place command = (after, state)) : state.Backed seen floor := by
  have hhire {place : Workplace} {format : WireFormat} {transactions : List Transaction}
      (hhire : hire place format transactions = (after, state)) : state.Backed seen floor := by
    obtain ⟨-, rfl, -⟩ | ⟨-, rfl, -⟩ := hire_cases hhire <;> trivial
  cases command with
  | customerSummary => cases hbegin; exact .looking
  | productSummary => cases hbegin; exact .looking
  | batch transactions format => exact hhire hbegin
  | consume records format => exact hhire hbegin
  | _ => cases hbegin; trivial

/-- One step of a task, while the ledger and its generation are seen and no later generation
is. -/
theorem backed_of_step?
    (hseen : seen place.pipeline.resources.summaries.generation
      place.pipeline.resources.store.ledger)
    (hrecent : ∀ generation ledger, seen generation ledger →
      generation ≤ place.pipeline.resources.summaries.generation)
    (hfloor : floor ≤ place.pipeline.resources.summaries.generation)
    (hcache : place.pipeline.resources.summaries.Backed seen)
    (hstate : task.state.Backed seen floor)
    (hstep : task.step? now place = some (after, later)) : later.state.Backed seen floor := by
  obtain ⟨-, hact⟩ := act_of_step? hstep
  obtain ⟨command, state⟩ := task
  obtain ⟨command', state'⟩ := later
  cases hact with
  | begin hbegin => exact backed_begin hbegin
  | askCustomers hinner =>
      exact (SummaryKind.backed_of_step? SummaryKind.laws_customers hseen hrecent hfloor
        hcache.customers hstate hinner).1
  | askProducts hinner =>
      exact (SummaryKind.backed_of_step? SummaryKind.laws_products hseen hrecent hfloor
        hcache.products hstate hinner).1
  | toldCustomers hending =>
      obtain rfl := SummaryKind.ending?_query hending
      cases hstate with
      | done hrows => exact hrows
      | failed => trivial
      | aborted => trivial
  | toldProducts hending =>
      obtain rfl := SummaryKind.ending?_query hending
      cases hstate with
      | done hrows => exact hrows
      | failed => trivial
      | aborted => trivial
  | conclude hconclude =>
      cases hconclude
      dsimp only
      split <;> trivial
  | _ => trivial

theorem backed_of_cut? {pipeline : Pipeline} {chosen : Deadline → Bool}
    (hcut : (Task.operation pipeline).cut? chosen task = some later) :
    later.state.Backed seen floor := by
  obtain ⟨state, hinner, rfl⟩ := Option.map_eq_some_iff.mp hcut
  split at hinner
  · obtain ⟨next, -, rfl⟩ := Option.map_eq_some_iff.mp hinner
    trivial
  · obtain ⟨next, -, rfl⟩ := Option.map_eq_some_iff.mp hinner
    trivial
  · cases hinner

end Task

namespace Crowd

variable {crowd next : Crowd} {mover : Party}

/-- Every task has in its hands what was seen. -/
def TasksBacked (seen : Nat → Ledger → Prop) (crowd : Crowd) : Prop :=
  ∀ (position : Nat) (task : Task), crowd.tasks[position]? = some task →
    task.state.Backed seen 0

/-- One move keeps the cache backed. -/
theorem Move.backed (hmove : Move mover crowd next) (hfootprints : crowd.HasFootprints)
    (hseen : seen crowd.summaries.generation crowd.ledger)
    (hrecent : ∀ generation ledger, seen generation ledger →
      generation ≤ crowd.summaries.generation)
    (hcache : crowd.summaries.Backed seen) (htasks : crowd.TasksBacked seen) :
    next.summaries.Backed seen := by
  cases hmove.summarizes hfootprints with
  | same hsame => rwa [hsame]
  | invalidate hinvalid =>
      -- Nothing is kept any more.
      rw [hinvalid]
      exact SummaryCache.backed_of_none rfl rfl
  | @customers position task state later hmover htask hstate hstep hlater =>
      have hbacked := htasks position task htask
      rw [hstate] at hbacked
      obtain ⟨-, -, hgeneration, hslot⟩ := SummaryKind.backed_of_step?
        SummaryKind.laws_customers hseen hrecent (Nat.zero_le _) hcache.customers hbacked hstep
      -- The products are not touched, and the generation is the same.
      have hproducts := SummaryKind.other_of_step?
        SummaryKind.customers_keep_products hstep
      refine ⟨hslot, ?_⟩
      unfold SummaryCache.SlotBacked summaries
      rw [hproducts, hgeneration]
      exact hcache.products
  | @products position task state later hmover htask hstate hstep hlater =>
      have hbacked := htasks position task htask
      rw [hstate] at hbacked
      obtain ⟨-, -, hgeneration, hslot⟩ := SummaryKind.backed_of_step?
        SummaryKind.laws_products hseen hrecent (Nat.zero_le _) hcache.products hbacked hstep
      have hcustomers := SummaryKind.other_of_step?
        SummaryKind.products_keep_customers hstep
      refine ⟨?_, hslot⟩
      unfold SummaryCache.SlotBacked summaries
      rw [hcustomers, hgeneration]
      exact hcache.customers

/-- One move keeps a task backed. -/
theorem Move.backed_task {position : Nat} (hmove : Move mover crowd next)
    (hseen : seen crowd.summaries.generation crowd.ledger)
    (hrecent : ∀ generation ledger, seen generation ledger →
      generation ≤ crowd.summaries.generation)
    (hfloor : floor ≤ crowd.summaries.generation) (hcache : crowd.summaries.Backed seen)
    (htasks : ∀ task, crowd.tasks[position]? = some task → task.state.Backed seen floor)
    {later : Task} (hlater : next.tasks[position]? = some later) :
    later.state.Backed seen floor := by
  cases hmove.taskBecame hlater with
  | new hnew => rw [hnew]; trivial
  | same hsame => exact htasks later hsame
  | step hmover htask hstep =>
      exact Task.backed_of_step? hseen hrecent hfloor hcache (htasks _ htask) hstep
  | cut hmover htask hwait hcut => exact Task.backed_of_cut? hcut

/-! ## A run -/

namespace Run

variable (run : Run)

/-- The ledgers that were there up to an index, each with the generation of the summaries. -/
def Seen (index generation : Nat) (ledger : Ledger) : Prop :=
  ∃ earlier ≤ index, run.generation earlier = generation ∧
    (run.moment earlier).ledger = ledger

variable {run}

theorem seen_self (index : Nat) :
    run.Seen index (run.generation index) (run.moment index).ledger :=
  ⟨index, le_rfl, rfl, rfl⟩

theorem Seen.succ {index generation : Nat} {ledger : Ledger}
    (hseen : run.Seen index generation ledger) : run.Seen (index + 1) generation ledger := by
  obtain ⟨earlier, hearlier, hbooks⟩ := hseen
  exact ⟨earlier, by omega, hbooks⟩

theorem generation_le_of_seen (hbegins : run.Begins) {index generation : Nat} {ledger : Ledger}
    (hseen : run.Seen index generation ledger) : generation ≤ run.generation index := by
  obtain ⟨earlier, hearlier, rfl, -⟩ := hseen
  exact generation_mono hbegins hearlier

/-- The cache and all tasks go by what was seen. -/
theorem backed (hbegins : run.Begins) (index : Nat) :
    (run.moment index).summaries.Backed (run.Seen index) ∧
      (run.moment index).TasksBacked (run.Seen index) := by
  -- The cache and the tasks go by each other, so they are taken together.
  induction index with
  | zero =>
      obtain ⟨settings, ledger, clock, pipeline, now, hnew, hstart⟩ := hbegins
      obtain ⟨guards, rfl⟩ := Pipeline.eq_of_new? hnew
      constructor
      · refine SummaryCache.backed_of_none ?_ ?_
        · rw [hstart]
          rfl
        · rw [hstart]
          rfl
      · intro position task htask
        rw [hstart] at htask
        cases htask
  | succ index ih =>
      obtain ⟨hcache, htasks⟩ := ih
      have hrecent : ∀ generation ledger, run.Seen index generation ledger →
          generation ≤ (run.moment index).summaries.generation :=
        fun _ _ => generation_le_of_seen hbegins
      constructor
      · exact ((run.move index).backed (hasFootprints hbegins index) (seen_self index) hrecent
          hcache htasks).mono fun _ _ => .succ
      · intro position task htask
        exact ((run.move index).backed_task (seen_self index) hrecent (Nat.zero_le _) hcache
          (htasks position) htask).mono fun _ _ => .succ

/-- A task that has not begun at some index goes by what is seen from then on. -/
theorem backed_since (hbegins : run.Begins) {start position : Nat}
    (hunbegun : ∀ task, (run.moment start).tasks[position]? = some task → task.state = .starting)
    {index : Nat} (hindex : start ≤ index) :
    ∀ task, (run.moment index).tasks[position]? = some task →
      task.state.Backed (run.Seen index) (run.generation start) := by
  -- From its beginning on the floor of the task is the generation at that index.
  induction hindex with
  | refl =>
      intro task htask
      rw [hunbegun task htask]
      trivial
  | @step index hindex ih =>
      intro task htask
      have hrecent : ∀ generation ledger, run.Seen index generation ledger →
          generation ≤ (run.moment index).summaries.generation :=
        fun _ _ => generation_le_of_seen hbegins
      exact ((run.move index).backed_task (seen_self index) hrecent
        (generation_mono hbegins hindex) (backed hbegins index).1 ih htask).mono fun _ _ => .succ

end Run

end Crowd

end Clearing
