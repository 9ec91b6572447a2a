import Clearing.Proofs.Crowd.Resources
import Clearing.Proofs.Processing.Settled
import Clearing.Proofs.Session.Alone
import Clearing.Proofs.Summaries.Query

/-!
# The answer to a query for a summary

If nothing gets in the way of requests a query for a summary is answered without
waiting (`SummaryKind.takes_query`): with the rows in the cache, or else with the
totals of the ledger as they are shown, or else it is aborted as the query for
totals is (`SummaryKind.answer`).  So the reply to a command that asks for a
summary is known (`Session.tell_customerSummary`, `Session.tell_productSummary`).
-/

namespace Clearing

namespace SummaryKind

variable {ρ : Type} {kind : SummaryKind ρ} {slot : SummaryCache → Option (Aged (List ρ))}
  {resources : Resources} {now : Nat}

/-- The answer to a query for a summary. -/
def answer (kind : SummaryKind ρ) (resources : Resources) (now : Nat) : Ending (List ρ) :=
  match kind.cached resources.summaries now with
  | some rows => .returned (.ok rows)
  | none =>
    match kind.request.read resources.store.ledger with
    | .ok totals => .returned (.ok (totals.map kind.shown))
    | .error cause => .aborted cause

/-- Nothing is in the cache, and the query for totals is aborted. -/
def Fails (kind : SummaryKind ρ) (resources : Resources) (now : Nat) : Prop :=
  kind.cached resources.summaries now = none ∧
    ∃ cause, kind.request.read resources.store.ledger = .error cause

/-- A query is aborted or returns rows, and when which. -/
theorem answer_iff (kind : SummaryKind ρ) (resources : Resources) (now : Nat) :
    ((∃ cause, kind.answer resources now = .aborted cause) ↔ kind.Fails resources now) ∧
      ((∃ rows, kind.answer resources now = .returned (.ok rows)) ↔
        ¬ kind.Fails resources now) := by
  unfold answer Fails
  cases kind.cached resources.summaries now with
  | some rows => simp
  | none => cases kind.request.read resources.store.ledger <;> simp

/-- A request that cannot read is aborted at once. -/
private theorem arrive_of_error {request : Request (List ρ) (List ρ)} {store : Store}
    {cause : Abort} (hread : request.read store.ledger = .error cause) (now : Nat) :
    ∃ counted, request.arrive now store = (counted, .answered (.aborted cause)) := by
  simp only [Request.arrive, hread]
  exact ⟨_, rfl⟩

/-- **A query is answered without waiting** if nothing gets in the way of requests. -/
theorem takes_query (hlaws : kind.Laws slot) (hfair : resources.IsFair) (now : Nat) :
    ∃ count later, count ≤ 6 ∧
      kind.query.Takes now count (resources, .looking)
        (later, .done (kind.answer resources now)) := by
  unfold answer
  cases hcached : kind.cached resources.summaries now with
  | some rows =>
      refine ⟨1, resources, by decide, .go rfl ?_ .stay⟩
      simp only [query, hcached]
  | none =>
      have hlook : kind.query.step? now resources .looking = some (resources, .noting) := by
        simp only [query, hcached]
      have hnote : kind.query.step? now resources .noting =
          some (resources, .asking resources.summaries.generation .arriving) := rfl
      have hask : kind.query.step? now resources
          (.asking resources.summaries.generation .arriving) =
            some ({ resources with store := (kind.request.arrive now resources.store).1 },
              .asking resources.summaries.generation
                (kind.request.arrive now resources.store).2) := rfl
      cases hread : kind.request.read resources.store.ledger with
      | error cause =>
          obtain ⟨counted, harrive⟩ := arrive_of_error hread now
          rw [harrive] at hask
          have hend : kind.query.step? now { resources with store := counted }
              (.asking resources.summaries.generation (.answered (.aborted cause))) =
                some ({ resources with store := counted }, .done (.aborted cause)) := rfl
          exact ⟨4, _, by decide, .go rfl hlook (.go rfl hnote (.go rfl hask (.go rfl hend .stay)))⟩
      | ok totals =>
          obtain ⟨counted, -, harrive⟩ :=
            Request.arrive_of_isFair (hfair kind.request.kind) hread now
          rw [harrive] at hask
          have hconclude : kind.query.step? now { resources with store := counted }
              (.asking resources.summaries.generation (.concluding totals false)) =
                some ({ resources with store := counted },
                  .asking resources.summaries.generation (.answered (.returned (.ok totals)))) := by
            simp only [query, Request.operation, Request.conclude_false, hlaws.perform]
          have hshow : kind.query.step? now { resources with store := counted }
              (.asking resources.summaries.generation (.answered (.returned (.ok totals)))) =
                some ({ resources with store := counted },
                  .keeping resources.summaries.generation (totals.map kind.shown)) := rfl
          exact ⟨6, _, le_rfl, .go rfl hlook (.go rfl hnote (.go rfl hask (.go rfl hconclude
            (.go rfl hshow (.go rfl rfl .stay)))))⟩

end SummaryKind

namespace Task

variable {ρ : Type} {kind : SummaryKind ρ} {slot : SummaryCache → Option (Aged (List ρ))}

/-- A command that asks for a summary does what the query does. -/
private theorem takes_of_query (command : Command) (keep : SummaryState ρ → TaskState)
    (reply : Ending (List ρ) → Reply) (hlaws : kind.Laws slot) {pipeline : Pipeline}
    (hfair : pipeline.resources.IsFair) (now : Nat)
    (hbegin : ∀ place, begin now place command = (place, keep .looking))
    (hwait : ∀ state, (operation pipeline).wait? ⟨command, keep state⟩ = kind.query.wait? state)
    (hstep : ∀ place state, step? now place ⟨command, keep state⟩ =
      (stepOn kind.query keep reply now place state).map fun (place, state) =>
        (place, ⟨command, state⟩)) :
    ∃ count last, count ≤ 8 ∧
      (operation pipeline).Takes now count (.new pipeline, .new command)
        (last, ⟨command, .done (reply (kind.answer pipeline.resources now))⟩) := by
  obtain ⟨count, later, hcount, htakes⟩ := SummaryKind.takes_query hlaws hfair now
  let embed (point : Resources × SummaryState ρ) : Workplace × Task :=
    ((Workplace.new pipeline).mapResources fun _ => point.1, ⟨command, keep point.2⟩)
  have hstart : (operation pipeline).step? now (.new pipeline) (.new command) =
      some (embed (pipeline.resources, .looking)) := by
    simp only [operation, step?, new, hbegin, Option.map_some]
    rfl
  have hasked : (operation pipeline).Takes now count (embed (pipeline.resources, .looking))
      (embed (later, .done (kind.answer pipeline.resources now))) := by
    refine htakes.lift embed (fun hnone => (hwait _).trans hnone) ?_
    intro point next hmade
    show step? now _ ⟨command, keep point.2⟩ = _
    have hinner : kind.query.step? now
        ((Workplace.new pipeline).mapResources fun _ => point.1).pipeline.resources point.2 =
          some next := hmade
    rw [hstep, stepOn, hinner]
    rfl
  have hlast : (operation pipeline).step? now
      (embed (later, .done (kind.answer pipeline.resources now))).1
      (embed (later, .done (kind.answer pipeline.resources now))).2 =
        some ((embed (later, .done (kind.answer pipeline.resources now))).1,
          ⟨command, .done (reply (kind.answer pipeline.resources now))⟩) := by
    show step? now _ ⟨command, keep _⟩ = _
    rw [hstep]
    rfl
  exact ⟨count + 1 + 1, _, by omega,
    .go rfl hstart (hasked.trans (.go ((hwait _).trans rfl) hlast .stay))⟩

end Task

namespace Session

variable {session : Session}

/-- **The reply to a command that asks for the summary of the customers.** -/
theorem tell_customerSummary (hfair : session.pipeline.resources.IsFair) :
    (session.tell .customerSummary).1 = some (.customerSummary
      (SummaryKind.customers.answer session.pipeline.resources session.now)) := by
  obtain ⟨count, last, hcount, htakes⟩ := Task.takes_of_query .customerSummary
    .customerSummary .customerSummary SummaryKind.laws_customers hfair session.now
    (fun _ => rfl) (fun _ => rfl) fun _ _ => rfl
  rw [tell_of_takes htakes (hcount.trans (show 8 ≤ 16 by decide)) rfl]

/-- **The reply to a command that asks for the summary of the products.** -/
theorem tell_productSummary (hfair : session.pipeline.resources.IsFair) :
    (session.tell .productSummary).1 = some (.productSummary
      (SummaryKind.products.answer session.pipeline.resources session.now)) := by
  obtain ⟨count, last, hcount, htakes⟩ := Task.takes_of_query .productSummary
    .productSummary .productSummary SummaryKind.laws_products hfair session.now
    (fun _ => rfl) (fun _ => rfl) fun _ _ => rfl
  rw [tell_of_takes htakes (hcount.trans (show 8 ≤ 16 by decide)) rfl]

end Session

end Clearing
