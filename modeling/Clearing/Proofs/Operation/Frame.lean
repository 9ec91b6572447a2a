import Clearing.Validation

/-!
# What operations leave alone

An operation keeps a view of what it works on if none of its steps changes what
the view shows.  To check a transaction changes neither the ledger nor the
summaries: lookups count requests and remember answers, and that is all.

The way an operation under a deadline moves is stated here once, as
`timed_step?_cases` and `timed_cut?_cases`, and what a step of a check can be as
`CheckState.Act`.
-/

namespace Clearing

/-- The ledger and the summaries taken from it. -/
def Resources.books (resources : Resources) : Ledger × SummaryCache :=
  (resources.store.ledger, resources.summaries)

namespace Operation

variable {σ τ ω α β : Type}

/-- No step of the operation changes what a view shows. -/
def Keeps (operation : Operation σ ω α) (view : σ → β) : Prop :=
  ∀ {now : Nat} {shared next : σ} {state later : ω},
    operation.step? now shared state = some (next, later) → view next = view shared

/-! ## Deadlines -/

/-- Under a deadline an operation makes a step of its own or, if it has none and has not ended, is
cut short when its time is over. -/
theorem timed_step?_cases {operation : Operation σ ω α} {stage : String} {limitMillis now : Nat}
    {shared next : σ} {running later : Timed ω}
    (hstep : (operation.timed stage limitMillis).step? now shared running = some (next, later)) :
    running.elapsed = false ∧
      ((∃ state, operation.step? now shared running.state = some (next, state) ∧
          later = { running with state }) ∨
        (operation.step? now shared running.state = none ∧
          operation.ending? running.state = none ∧ running.latest ≤ now ∧ next = shared ∧
          later = { running with elapsed := true })) := by
  simp only [timed] at hstep
  split at hstep
  · cases hstep
  · rename_i helapsed
    refine ⟨by simpa using helapsed, ?_⟩
    split at hstep
    · rename_i hinner
      simp only [Option.some.injEq, Prod.mk.injEq] at hstep
      obtain ⟨rfl, rfl⟩ := hstep
      exact .inl ⟨_, hinner, rfl⟩
    · rename_i hinner
      split at hstep
      · rename_i hover
        simp only [Option.some.injEq, Prod.mk.injEq] at hstep
        obtain ⟨rfl, rfl⟩ := hstep
        exact .inr ⟨hinner, by simpa using hover.1, hover.2, rfl, rfl⟩
      · cases hstep

theorem step?_eq_none_of_timed {operation : Operation σ ω α} {stage : String}
    {limitMillis now : Nat} {shared : σ} {running : Timed ω} (hrunning : running.elapsed = false)
    (hnone : (operation.timed stage limitMillis).step? now shared running = none) :
    operation.step? now shared running.state = none := by
  rcases hinner : operation.step? now shared running.state with _ | ⟨next, state⟩
  · rfl
  · rw [timed_step?_of_step? operation stage limitMillis hrunning hinner] at hnone
    cases hnone

/-- A deadline inside the operation is heeded before its own. -/
theorem timed_cut?_cases {operation : Operation σ ω α} {stage : String} {limitMillis : Nat}
    {chosen : Deadline → Bool} {running later : Timed ω}
    (hcut : (operation.timed stage limitMillis).cut? chosen running = some later) :
    running.elapsed = false ∧
      ((∃ state, operation.cut? chosen running.state = some state ∧ later = { running with state }) ∨
        later = { running with elapsed := true }) := by
  simp only [timed] at hcut
  split at hcut
  · cases hcut
  · rename_i helapsed
    refine ⟨by simpa using helapsed, ?_⟩
    split at hcut
    · rename_i hinner
      cases hcut
      exact .inl ⟨_, hinner, rfl⟩
    · split at hcut
      · cases hcut
        exact .inr rfl
      · cases hcut

/-- An operation under a deadline returns what it returns without one, or runs out of time. -/
theorem timed_ending?_cases {operation : Operation σ ω α} {stage : String} {limitMillis : Nat}
    {running : Timed ω} {ending : Ending α}
    (hending : (operation.timed stage limitMillis).ending? running = some ending) :
    (running.elapsed = true ∧
        ending = .returned (.error (.timeout stage (.ofMillis limitMillis)))) ∨
      (running.elapsed = false ∧ operation.ending? running.state = some ending) := by
  simp only [timed] at hending
  split at hending
  · rename_i helapsed
    cases hending
    exact .inl ⟨helapsed, rfl⟩
  · rename_i helapsed
    exact .inr ⟨by simpa using helapsed, hending⟩

theorem Keeps.timed {operation : Operation σ ω α} {view : σ → β} (hkeeps : operation.Keeps view)
    (stage : String) (limitMillis : Nat) : (operation.timed stage limitMillis).Keeps view := by
  intro now shared next state later hstep
  obtain ⟨-, ⟨inner, hinner, -⟩ | ⟨-, -, -, rfl, -⟩⟩ := timed_step?_cases hstep
  · exact hkeeps hinner
  · rfl

end Operation

/-! ## Requests and lookups -/

namespace Request

variable {α β : Type}

@[simp] theorem ledger_arrive (request : Request β α) (now : Nat) (store : Store) :
    (request.arrive now store).1.ledger = store.ledger := by
  rw [arrive]
  split
  · rfl
  · split <;> rfl

/-- A request that only looks leaves the ledger as it is. -/
theorem keeps_look (kind : RequestKind) (answer : Ledger → α) :
    (look kind answer).operation.Keeps Store.ledger := by
  intro now store next state later hstep
  have hconclude : ∀ (read : Unit) fails,
      ((look kind answer).conclude store read fails).1.ledger = store.ledger := by
    intro read fails
    cases fails <;> rfl
  cases state with
  | arriving =>
      simp only [operation, Option.some.injEq] at hstep
      rw [← ledger_arrive (look kind answer) now store, hstep]
  | waiting read wakes fails =>
      simp only [operation, Option.ite_none_right_eq_some, Option.some.injEq] at hstep
      rw [← hconclude read fails, hstep.2]
  | concluding read fails =>
      simp only [operation, Option.some.injEq] at hstep
      rw [← hconclude read fails, hstep]
  | answered ending => simp [operation] at hstep

end Request

namespace Lookup

variable {α : Type}

@[simp] theorem books_heard (lookup : Lookup α) (now : Nat) (resources : Resources) (store : Store)
    (state : RequestState Unit α) :
    (lookup.heard now resources store state).1.books = (store.ledger, resources.summaries) := by
  unfold heard
  split <;> rfl

theorem keeps_books {lookup : Lookup α}
    (hrequest : lookup.request.operation.Keeps Store.ledger) :
    lookup.operation.Keeps Resources.books := by
  intro now resources next state later hstep
  cases state with
  | looking =>
      simp only [operation] at hstep
      split at hstep <;> cases hstep <;> rfl
  | asking request =>
      simp only [operation, Option.map_eq_some_iff] at hstep
      obtain ⟨⟨store, answered⟩, hasked, hheard⟩ := hstep
      have hbooks := books_heard lookup now resources store answered
      rw [hheard, hrequest hasked] at hbooks
      exact hbooks
  | done ending => simp [operation] at hstep

end Lookup

/-! ## Checks -/

/-- What one step of the check of a transaction can be. -/
inductive CheckState.Act (clock : Nat → Timestamp) (transaction : Transaction) (now : Nat)
    (shared next : Resources) : CheckState → CheckState → Prop
  | start (hnext : next = shared) :
      Act clock transaction now shared next .starting (.customer .looking)
  | askCustomer {state later : LookupState Bool}
      (hstep : (Lookup.customerExists transaction.customer).operation.step? now shared state =
        some (next, later)) :
      Act clock transaction now shared next (.customer state) (.customer later)
  | hearCustomer {state : LookupState Bool} {ending : Ending Bool}
      (hending : (Lookup.customerExists transaction.customer).operation.ending? state =
        some ending) (hnext : next = shared) :
      Act clock transaction now shared next (.customer state) (.afterCustomer transaction ending)
  | askProduct {state later : LookupState (Option Product)}
      (hstep : (Lookup.product transaction.product).operation.step? now shared state =
        some (next, later)) :
      Act clock transaction now shared next (.product state) (.product later)
  | hearProduct {state : LookupState (Option Product)} {ending : Ending (Option Product)}
      (hending : (Lookup.product transaction.product).operation.ending? state = some ending)
      (hnext : next = shared) :
      Act clock transaction now shared next (.product state)
        (.afterProduct transaction (clock now) ending)

theorem CheckState.act_of_step? {clock : Nat → Timestamp} {transaction : Transaction} {now : Nat}
    {shared next : Resources} {state later : CheckState}
    (hstep : (validation clock (some transaction)).step? now shared state = some (next, later)) :
    Act clock transaction now shared next state later := by
  cases state with
  | starting =>
      cases hstep
      exact .start rfl
  | customer lookup =>
      simp only [validation] at hstep
      split at hstep
      · rename_i hinner
        cases hstep
        exact .askCustomer hinner
      · obtain ⟨ending, hending, hend⟩ := Option.map_eq_some_iff.mp hstep
        cases hend
        exact .hearCustomer hending rfl
  | product lookup =>
      simp only [validation] at hstep
      split at hstep
      · rename_i hinner
        cases hstep
        exact .askProduct hinner
      · obtain ⟨ending, hending, hend⟩ := Option.map_eq_some_iff.mp hstep
        cases hend
        exact .hearProduct hending rfl
  | done ending => cases hstep

/-- To check a transaction changes neither the ledger nor the summaries. -/
theorem validation_keeps_books (clock : Nat → Timestamp) (transaction : Option Transaction) :
    (validation clock transaction).Keeps Resources.books := by
  intro now resources next state later hstep
  cases transaction with
  | none =>
      cases state with
      | starting =>
          cases hstep
          rfl
      | _ => cases hstep
  | some transaction =>
      cases CheckState.act_of_step? hstep with
      | start hnext | hearCustomer _ hnext | hearProduct _ hnext => rw [hnext]
      | askCustomer hinner => exact Lookup.keeps_books (Request.keeps_look _ _) hinner
      | askProduct hinner => exact Lookup.keeps_books (Request.keeps_look _ _) hinner

end Clearing
