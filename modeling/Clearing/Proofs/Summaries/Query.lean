import Clearing.Proofs.Operation.Frame
import Clearing.SummaryQuery

/-!
# What a query for a summary goes by

The rows that a query hands out were shown from the totals of some ledger, and
the ledger was there when the summaries were of some generation.  A query that
asks the store notes the generation before, so the ledger is at least as recent
as that; and the cache keeps rows only for the generation in which they were
read.

`seen generation ledger` says that this was the ledger at some time when the
summaries were of that generation; nothing else is assumed about it.
-/

namespace Clearing

variable {ρ τ : Type}

/-! ## The two kinds -/

/-- How a kind of summary works with the cache, where its rows have a slot of their own. -/
structure SummaryKind.Laws (kind : SummaryKind ρ) (slot : SummaryCache → Option (Aged (List ρ))) :
    Prop where
  cached {cache : SummaryCache} {now : Nat} {rows : List ρ}
    (hcached : kind.cached cache now = some rows) : ∃ since, slot cache = some ⟨rows, since⟩
  generation (cache : SummaryCache) (now generation : Nat) (rows : List ρ) :
    (kind.keep cache now generation rows).2.generation = cache.generation
  kept (cache : SummaryCache) (now generation : Nat) (rows : List ρ) :
    slot (kind.keep cache now generation rows).2 = slot cache ∨
      cache.generation = generation ∧
        slot (kind.keep cache now generation rows).2 = some ⟨rows, now⟩
  perform (rows : List ρ) (ledger : Ledger) : kind.request.perform rows ledger = (rows, ledger)

theorem SummaryCache.eq_some_of_fresh? {ν : Type} {cache : SummaryCache} {now : Nat}
    {slot : Option (Aged ν)} {value : ν} (hfresh : cache.fresh? now slot = some value) :
    ∃ since, slot = some ⟨value, since⟩ := by
  unfold SummaryCache.fresh? at hfresh
  split at hfresh
  · rename_i entry
    obtain ⟨-, hvalue⟩ := Option.ite_none_right_eq_some.mp hfresh
    cases hvalue
    exact ⟨entry.since, rfl⟩
  · cases hfresh

theorem SummaryKind.laws_customers : SummaryKind.customers.Laws SummaryCache.customers where
  cached hcached := SummaryCache.eq_some_of_fresh? hcached
  generation cache now generation rows := by
    simp only [customers, SummaryCache.storeCustomers]
    split <;> rfl
  kept cache now generation rows := by
    simp only [customers, SummaryCache.storeCustomers]
    split
    · exact .inr ⟨‹_›, rfl⟩
    · exact .inl rfl
  perform _ _ := rfl

theorem SummaryKind.laws_products : SummaryKind.products.Laws SummaryCache.products where
  cached hcached := SummaryCache.eq_some_of_fresh? hcached
  generation cache now generation rows := by
    simp only [products, SummaryCache.storeProducts]
    split <;> rfl
  kept cache now generation rows := by
    simp only [products, SummaryCache.storeProducts]
    split
    · exact .inr ⟨‹_›, rfl⟩
    · exact .inl rfl
  perform _ _ := rfl

theorem SummaryKind.products_keep_customers (cache : SummaryCache) (now generation : Nat)
    (rows : List ProductTotal) :
    (products.keep cache now generation rows).2.customers = cache.customers := by
  simp only [products, SummaryCache.storeProducts]
  split <;> rfl

theorem SummaryKind.customers_keep_products (cache : SummaryCache) (now generation : Nat)
    (rows : List CustomerTotal) :
    (customers.keep cache now generation rows).2.products = cache.products := by
  simp only [customers, SummaryCache.storeCustomers]
  split <;> rfl

/-- The rows are the totals of a ledger as they are shown. -/
def SummaryKind.Shows (kind : SummaryKind ρ) (ledger : Ledger) (rows : List ρ) : Prop :=
  ∃ totals, kind.request.read ledger = .ok totals ∧ rows = totals.map kind.shown

/-! ## Requests for totals -/

/-- What a request has read satisfies a property. -/
inductive RequestState.Holds (property : ρ → Prop) : RequestState ρ ρ → Prop
  | arriving : Holds property .arriving
  | waiting {read : ρ} {wakes : Nat} {fails : Bool} (hread : property read) :
      Holds property (.waiting read wakes fails)
  | concluding {read : ρ} {fails : Bool} (hread : property read) :
      Holds property (.concluding read fails)
  | answered {read : ρ} (hread : property read) :
      Holds property (.answered (.returned (.ok read)))
  | failed {failure : Failure} : Holds property (.answered (.returned (.error failure)))
  | aborted {cause : Abort} : Holds property (.answered (.aborted cause))

namespace Request

variable {request : Request ρ ρ} {property : ρ → Prop} {store : Store}

theorem holds_arrive (hread : ∀ read, request.read store.ledger = .ok read → property read)
    (now : Nat) : (request.arrive now store).2.Holds property := by
  unfold arrive
  split
  · exact .aborted
  · rename_i read hok
    dsimp only
    split
    · exact .aborted
    · dsimp only
      split
      · exact .concluding (hread read hok)
      · exact .waiting (hread read hok)

theorem conclude_eq (hperform : ∀ read ledger, request.perform read ledger = (read, ledger))
    (store : Store) (read : ρ) (fails : Bool) :
    (request.conclude store read fails).1 = store ∧
      (property read → (request.conclude store read fails).2.Holds property) := by
  unfold conclude
  cases fails with
  | true => exact ⟨rfl, fun _ => .failed⟩
  | false =>
      simp only [hperform]
      exact ⟨rfl, .answered⟩

/-- A request that hands out what it has read leaves the ledger alone. -/
theorem holds_of_step? (hperform : ∀ read ledger, request.perform read ledger = (read, ledger))
    (hread : ∀ read, request.read store.ledger = .ok read → property read) {now : Nat}
    {next : Store} {state later : RequestState ρ ρ} (hstate : state.Holds property)
    (hstep : request.operation.step? now store state = some (next, later)) :
    next.ledger = store.ledger ∧ later.Holds property := by
  cases hstate with
  | arriving =>
      have harrive := Option.some.inj hstep
      have hledger := ledger_arrive request now store
      have hholds := holds_arrive hread now
      rw [harrive] at hledger hholds
      exact ⟨hledger, hholds⟩
  | waiting hproperty =>
      obtain ⟨-, hconclude⟩ := Option.ite_none_right_eq_some.mp hstep
      obtain ⟨hstore, hholds⟩ := conclude_eq hperform store _ _
      rw [Option.some.inj hconclude] at hstore hholds
      exact ⟨congrArg Store.ledger hstore, hholds hproperty⟩
  | concluding hproperty =>
      obtain ⟨hstore, hholds⟩ := conclude_eq hperform store _ _
      rw [Option.some.inj hstep] at hstore hholds
      exact ⟨congrArg Store.ledger hstore, hholds hproperty⟩
  | _ => cases hstep

end Request

/-! ## Queries -/

/-- The rows were shown from a ledger that was seen in a generation, or in a later one. -/
def SummaryKind.ShowsSince (kind : SummaryKind ρ) (seen : Nat → Ledger → Prop) (floor : Nat)
    (rows : List ρ) : Prop :=
  ∃ generation ledger, seen generation ledger ∧ floor ≤ generation ∧ kind.Shows ledger rows

/-- What a query for a summary has in its hands goes by ledgers that were seen in a generation, or
in later ones. -/
inductive SummaryState.Backed (kind : SummaryKind ρ) (seen : Nat → Ledger → Prop) (floor : Nat) :
    SummaryState ρ → Prop
  | looking : Backed kind seen floor .looking
  | noting : Backed kind seen floor .noting
  | asking {generation : Nat} {request : RequestState (List ρ) (List ρ)}
      (hfloor : floor ≤ generation) (hpast : ∃ ledger, seen generation ledger)
      (hrequest : request.Holds fun totals => ∃ recent ledger, seen recent ledger ∧
        generation ≤ recent ∧ kind.request.read ledger = .ok totals) :
      Backed kind seen floor (.asking generation request)
  | keeping {generation : Nat} {rows : List ρ} (hfloor : floor ≤ generation)
      (hrows : kind.ShowsSince seen generation rows) :
      Backed kind seen floor (.keeping generation rows)
  | done {rows : List ρ} (hrows : kind.ShowsSince seen floor rows) :
      Backed kind seen floor (.done (.returned (.ok rows)))
  | failed {failure : Failure} : Backed kind seen floor (.done (.returned (.error failure)))
  | aborted {cause : Abort} : Backed kind seen floor (.done (.aborted cause))

/-- The rows that are kept in a slot go by a ledger that was seen in the present generation. -/
def SummaryCache.SlotBacked (kind : SummaryKind ρ) (slot : SummaryCache → Option (Aged (List ρ)))
    (seen : Nat → Ledger → Prop) (cache : SummaryCache) : Prop :=
  ∀ entry, slot cache = some entry → kind.ShowsSince seen cache.generation entry.value

namespace SummaryKind

variable {kind : SummaryKind ρ} {slot : SummaryCache → Option (Aged (List ρ))}
  {seen : Nat → Ledger → Prop} {floor now : Nat} {resources next : Resources}
  {state later : SummaryState ρ}

/-- One step of a query, while the ledger and its generation are seen and no later generation
is. -/
theorem backed_of_step? (hlaws : kind.Laws slot)
    (hseen : seen resources.summaries.generation resources.store.ledger)
    (hrecent : ∀ generation ledger, seen generation ledger →
      generation ≤ resources.summaries.generation)
    (hfloor : floor ≤ resources.summaries.generation)
    (hslot : resources.summaries.SlotBacked kind slot seen)
    (hstate : state.Backed kind seen floor)
    (hstep : kind.query.step? now resources state = some (next, later)) :
    later.Backed kind seen floor ∧ next.store.ledger = resources.store.ledger ∧
      next.summaries.generation = resources.summaries.generation ∧
        next.summaries.SlotBacked kind slot seen := by
  cases hstate with
  | looking =>
      simp only [query] at hstep
      split at hstep
      · rename_i rows hcached
        cases hstep
        obtain ⟨since, hentry⟩ := hlaws.cached hcached
        obtain ⟨generation, ledger, hledger, hgeneration, hshows⟩ := hslot _ hentry
        exact ⟨.done ⟨generation, ledger, hledger, Nat.le_trans hfloor hgeneration, hshows⟩, rfl, rfl,
          hslot⟩
      · cases hstep
        exact ⟨.noting, rfl, rfl, hslot⟩
  | noting =>
      cases hstep
      exact ⟨.asking hfloor ⟨_, hseen⟩ .arriving, rfl, rfl, hslot⟩
  | @asking generation request hnoted hpast hrequest =>
      -- If the ledger is read now, it is read no earlier than the generation was noted.
      have hread (totals : List ρ) (hok : kind.request.read resources.store.ledger = .ok totals) :
          ∃ recent ledger, seen recent ledger ∧ generation ≤ recent ∧
            kind.request.read ledger = .ok totals := by
        obtain ⟨past, hpast⟩ := hpast
        exact ⟨_, _, hseen, hrecent _ _ hpast, hok⟩
      simp only [query] at hstep
      split at hstep
      · rename_i store answered hinner
        cases hstep
        obtain ⟨hledger, hheld⟩ := Request.holds_of_step? hlaws.perform hread hrequest hinner
        exact ⟨.asking hnoted hpast hheld, hledger, rfl, hslot⟩
      · split at hstep
        · rename_i rows hending
          cases hstep
          cases hrequest with
          | answered hrows =>
              cases hending
              obtain ⟨recent, ledger, hledger, hgeneration, hok⟩ := hrows
              exact ⟨.keeping hnoted ⟨recent, ledger, hledger, hgeneration, _, hok, rfl⟩, rfl, rfl,
                hslot⟩
          | _ => cases hending
        · rename_i ending hreturned hending
          cases hstep
          refine ⟨?_, rfl, rfl, hslot⟩
          rcases ending with (failure | rows) | cause
          · exact .failed
          · exact (hreturned rows rfl).elim
          · exact .aborted
        · cases hstep
  | @keeping generation rows hnoted hrows =>
      cases hstep
      have hgeneration := hlaws.generation resources.summaries now generation rows
      obtain ⟨recent, ledger, hledger, hrecently, hshows⟩ := hrows
      refine ⟨.done ⟨recent, ledger, hledger, Nat.le_trans hnoted hrecently, hshows⟩, rfl,
        hgeneration, ?_⟩
      intro entry hentry
      dsimp only at hentry ⊢
      rw [hgeneration]
      rcases hlaws.kept resources.summaries now generation rows with hsame | ⟨hnow, hkept⟩
      · rw [hsame] at hentry
        exact hslot entry hentry
      · -- Rows are kept only in the generation that was noted before they were read.
        rw [hkept] at hentry
        cases hentry
        exact ⟨recent, ledger, hledger, by omega, hshows⟩
  | _ => cases hstep

/-- A query changes nothing about the summaries but what it keeps. -/
theorem other_of_step? {other : SummaryCache → τ}
    (hother : ∀ cache now generation rows,
      other (kind.keep cache now generation rows).2 = other cache)
    (hstep : kind.query.step? now resources state = some (next, later)) :
    other next.summaries = other resources.summaries := by
  cases state with
  | looking =>
      simp only [query] at hstep
      split at hstep <;> cases hstep <;> rfl
  | noting => cases hstep; rfl
  | asking generation request =>
      simp only [query] at hstep
      split at hstep
      · cases hstep; rfl
      · split at hstep <;> cases hstep <;> rfl
  | keeping generation rows =>
      cases hstep
      exact hother ..
  | done ending => cases hstep

theorem ending?_query {ending : Ending (List ρ)} (hending : kind.query.ending? state = some ending) :
    state = .done ending := by
  cases state <;> cases hending
  rfl

end SummaryKind

/-! ## More is seen -/

variable {kind : SummaryKind ρ} {seen seen' : Nat → Ledger → Prop} {floor : Nat}

theorem SummaryKind.ShowsSince.mono {rows : List ρ} (hrows : kind.ShowsSince seen floor rows)
    (hmore : ∀ generation ledger, seen generation ledger → seen' generation ledger) :
    kind.ShowsSince seen' floor rows := by
  obtain ⟨generation, ledger, hledger, hshows⟩ := hrows
  exact ⟨generation, ledger, hmore _ _ hledger, hshows⟩

theorem RequestState.Holds.mono {property property' : ρ → Prop} {state : RequestState ρ ρ}
    (hstate : state.Holds property) (hmore : ∀ read, property read → property' read) :
    state.Holds property' := by
  cases hstate with
  | arriving => exact .arriving
  | waiting hread => exact .waiting (hmore _ hread)
  | concluding hread => exact .concluding (hmore _ hread)
  | answered hread => exact .answered (hmore _ hread)
  | failed => exact .failed
  | aborted => exact .aborted

theorem SummaryState.Backed.mono {state : SummaryState ρ} (hstate : state.Backed kind seen floor)
    (hmore : ∀ generation ledger, seen generation ledger → seen' generation ledger) :
    state.Backed kind seen' floor := by
  cases hstate with
  | looking => exact .looking
  | noting => exact .noting
  | asking hfloor hpast hrequest =>
      obtain ⟨past, hpast⟩ := hpast
      refine .asking hfloor ⟨past, hmore _ _ hpast⟩ (hrequest.mono ?_)
      rintro totals ⟨recent, ledger, hledger, hread⟩
      exact ⟨recent, ledger, hmore _ _ hledger, hread⟩
  | keeping hfloor hrows => exact .keeping hfloor (hrows.mono hmore)
  | done hrows => exact .done (hrows.mono hmore)
  | failed => exact .failed
  | aborted => exact .aborted

end Clearing
