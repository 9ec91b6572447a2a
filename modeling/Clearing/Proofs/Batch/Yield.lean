import Clearing.Proofs.Batch.Rounds
import Clearing.Proofs.Crowd.Script

/-!
# What a batch yields

A batch that is given alone to a smooth pipeline yields those of its transactions
that satisfy the rules, each saved once, in some order (`Session.tell_batch`).
A new session is smooth, whatever its settings (`Session.batch_yields`).  So
neither the settings nor the transactions that violate a rule matter for the
others (`Ledger.Yields.perm`).
-/

namespace Clearing

/-- A transaction apart from what is only known when it was saved: its identifier and when it was
processed. -/
def Transaction.content (transaction : Transaction) : Transaction :=
  { transaction with id := none, processedTime := none }

/-- What is saved of a batch at a time: a row for each of its transactions that satisfies the rules,
in some order. -/
def Ledger.Yields (reference : Ledger) (time : Timestamp) (transactions rows : List Transaction) :
    Prop :=
  ∃ order, order.Perm (transactions.filter (reference.accepts time)) ∧
    List.Forall₂ (fun transaction row => transaction.SavedAs time row) order rows

namespace Ledger

variable {reference : Ledger} {time : Timestamp} {transactions others rows rows' : List Transaction}

/-- The rows are the transactions, now processed. -/
theorem Yields.content (hyields : reference.Yields time transactions rows) :
    (rows.map Transaction.content).Perm
      ((transactions.filter (reference.accepts time)).map fun transaction =>
        { transaction.content with status := .processed }) := by
  obtain ⟨order, horder, hrows⟩ := hyields
  refine List.Perm.trans (.of_eq ?_) (horder.map _)
  clear horder
  induction hrows with
  | nil => rfl
  | cons hsaved _ ih =>
      obtain ⟨⟨id, rfl, -⟩⟩ := hsaved
      rw [List.map_cons, List.map_cons, ih]
      rfl

/-- **Only the transactions that satisfy the rules matter**: batches that have the same ones yield
the same, up to the order, the identifiers and the times. -/
theorem Yields.perm (hyields : reference.Yields time transactions rows)
    (hothers : reference.Yields time others rows')
    (hsame : (others.filter (reference.accepts time)).Perm
      (transactions.filter (reference.accepts time))) :
    (rows'.map Transaction.content).Perm (rows.map Transaction.content) :=
  hothers.content.trans ((hsame.map _).trans hyields.content.symm)

end Ledger

/-- What the workers of a batch have saved when all have finished. -/
theorem Workplace.Staffed.yields {reference : Ledger} {base : Pipeline} {now : Nat}
    {shares : List (List (List Transaction))} {place : Workplace}
    (hstaffed : place.Staffed reference base now shares shares.length) :
    List.Forall₂ (fun transaction row => transaction.SavedAs (base.clock now) row)
      ((shares.flatMap List.flatten).filter (reference.accepts (base.clock now)))
      (place.collected 0 shares.length) := by
  have hlength := hstaffed.holds.length_eq
  have hcollected : place.collected 0 shares.length =
      place.workers.toList.flatMap fun worker => worker.processed := by
    rw [collected, Nat.zero_add, hlength, Array.length_toList, Array.extract_size]
  rw [hcollected, List.filter_flatMap]
  refine List.rel_flatMap (List.forall₂_iff_get.mpr ⟨hlength, fun position hshare hworker => ?_⟩)
    fun _ _ => id
  refine (hstaffed.holds.get hshare hworker).finished ?_
  have hover := hstaffed.found position hshare
  rw [isOver, ← Array.getElem?_toList, List.getElem?_eq_getElem hworker] at hover
  simpa using hover

/-- What is done at the end of a batch leaves a pipeline smooth. -/
theorem Task.smooth_conclude {reference : Ledger} {place : Workplace}
    (hsmooth : place.pipeline.Smooth reference) (command : Command) (rows : List Transaction) :
    (conclude place command rows).1.pipeline.Smooth reference ∧
      place.pipeline.Kindred (conclude place command rows).1.pipeline := by
  unfold conclude
  split
  · exact ⟨hsmooth, .refl _⟩
  · exact ⟨⟨hsmooth.guards, { hsmooth.resources with }⟩, rfl, rfl⟩

/-- **What a batch yields** that is given alone to a smooth pipeline, which stays smooth. -/
theorem Session.tell_batch {session : Session} {reference : Ledger}
    (hsmooth : session.pipeline.Smooth reference)
    (hworkers : session.pipeline.settings.batch.workers ≤ maxWorkers)
    (transactions : List Transaction) (format : WireFormat) :
    ∃ rows, (session.tell (.batch transactions format)).1 = some (.batch rows) ∧
      reference.Yields (session.pipeline.clock session.now) transactions rows ∧
        (session.tell (.batch transactions format)).2.pipeline.Smooth reference ∧
          session.pipeline.Kindred (session.tell (.batch transactions format)).2.pipeline ∧
            (session.tell (.batch transactions format)).2.now = session.now := by
  obtain ⟨place, hconcluded⟩ := Task.run_batch hsmooth hworkers session.now session.allowance format
    transactions rfl rfl
  generalize hscene : (Task.schedule session.pipeline).run (Task.commandEffort session.pipeline
    (.batch transactions format)) session.now session.allowance (.new session.pipeline)
      [.new (.batch transactions format)] = scene at hconcluded
  have htell : session.tell (.batch transactions format) =
      (((scene.times.map fun reply => (reply.1.reply?, reply.2)).head?.map (·.1)).join,
        { now := scene.now, allowance := scene.allowance, pipeline := scene.world.pipeline }) := by
    rw [← hscene]
    rfl
  obtain ⟨hsmooth', hkindred⟩ := Task.smooth_conclude hconcluded.staffed.smooth
    (.batch transactions format)
    (place.collected 0 (session.pipeline.settings.batch.shares transactions).length)
  rw [htell]
  refine ⟨place.collected 0 (session.pipeline.settings.batch.shares transactions).length, ?_,
    ⟨_, ?_, hconcluded.staffed.yields⟩, ?_, ?_, hconcluded.time⟩
  · rw [Scene.times, hconcluded.lanes]
    rfl
  · exact (BatchSettings.perm_shares _ transactions).filter _
  · rw [← hconcluded.pipeline] at hsmooth'
    exact hsmooth'
  · rw [← hconcluded.pipeline] at hkindred
    exact hconcluded.staffed.kindred.trans hkindred

namespace Session

variable {settings : Settings} {ledger : Ledger} {clock : Nat → Timestamp} {session : Session}

/-- A batch that is given to a new session with settings that were checked. -/
theorem tell_batch_new (hcheck : settings.check = .ok ())
    (hworkers : settings.batch.workers ≤ maxWorkers)
    (hnew : new? settings ledger clock = some session) (transactions : List Transaction)
    (format : WireFormat) :
    ∃ rows, (session.tell (.batch transactions format)).1 = some (.batch rows) ∧
      ledger.Yields (clock 0) transactions rows := by
  obtain ⟨pipeline, hpipeline, rfl⟩ := Option.map_eq_some_iff.mp hnew
  have hsmooth := Pipeline.smooth_of_new? hcheck hpipeline
  obtain ⟨guards, rfl, -⟩ := Pipeline.eq_of_new? hpipeline
  obtain ⟨rows, hreply, hyields, -⟩ :=
    @tell_batch ⟨0, Schedule.allowance, _⟩ ledger hsmooth hworkers transactions format
  exact ⟨rows, hreply, hyields⟩

/-- **A batch yields exactly its valid transactions, whatever the settings.**  In a new session with
settings that were checked, it yields those that satisfy the rules at the time, up to the order, the
identifiers and the time of processing.  Any other settings yield the same, and so does any other
batch in any format, as long as it has the same ones that satisfy the rules. -/
theorem batch_yields (hcheck : settings.check = .ok ())
    (hworkers : settings.batch.workers ≤ maxWorkers)
    (hnew : new? settings ledger clock = some session) (transactions : List Transaction)
    (format : WireFormat) :
    ∃ rows, (session.tell (.batch transactions format)).1 = some (.batch rows) ∧
      ledger.Yields (clock 0) transactions rows ∧
        ∀ (settings' : Settings) (session' : Session) (others : List Transaction)
          (format' : WireFormat), settings'.check = .ok () →
            settings'.batch.workers ≤ maxWorkers → new? settings' ledger clock = some session' →
              (others.filter (ledger.accepts (clock 0))).Perm
                  (transactions.filter (ledger.accepts (clock 0))) →
                ∃ rows', (session'.tell (.batch others format')).1 = some (.batch rows') ∧
                  (rows'.map Transaction.content).Perm (rows.map Transaction.content) := by
  obtain ⟨rows, hreply, hyields⟩ := tell_batch_new hcheck hworkers hnew transactions format
  refine ⟨rows, hreply, hyields, ?_⟩
  intro settings' session' others format' hcheck' hworkers' hnew' hsame
  obtain ⟨rows', hreply', hyields'⟩ := tell_batch_new hcheck' hworkers' hnew' others format'
  exact ⟨rows', hreply', hyields.perm hyields' hsame⟩

/-- Of three transactions one is for a customer that nobody knows and one is for nothing; the third
is processed. -/
theorem batch_yields_third :
    ∃ rows, (tell ⟨0, Schedule.allowance, Crowd.smallPipeline⟩ (.batch
        [.new 7 "P1" 2 .text, .new 1 "P1" 0 .text, .new 1 "P1" 2 .text] .text)).1 =
          some (.batch rows) ∧
      rows.map Transaction.content =
        [{ Transaction.new 1 "P1" 2 .text with status := .processed }] := by
  obtain ⟨rows, hreply, hyields, -⟩ := batch_yields (show Settings.initial.check = .ok () by decide)
    (by decide) (show new? .initial .oneOfEach (fun now => ⟨now, 0⟩) = some _ from rfl)
      [.new 7 "P1" 2 .text, .new 1 "P1" 0 .text, .new 1 "P1" 2 .text] .text
  refine ⟨rows, hreply, List.perm_singleton.mp (hyields.content.trans (.of_eq ?_))⟩
  decide +kernel

end Session

end Clearing
