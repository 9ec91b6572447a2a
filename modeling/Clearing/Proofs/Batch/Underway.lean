import Clearing.Proofs.Batch.Accounts

/-!
# A batch underway

A command that hands in a batch counts what was dropped and hires workers, waits
until all of them have finished, and replies.  What the books are like at each of
these points is `Crowd.BatchBooks`.  Whoever moves, they stay like that: the
others (`BatchBooks.moved`), or the command itself (`BatchBooks.stepped`).

The settings decide whether there will be workers at all: if they would be too
many the command is aborted before anything is attempted.
-/

namespace Clearing

/-- The number of workers that settings ask for; there is always one. -/
def Settings.workers (settings : Settings) : Nat :=
  max settings.batch.workers 1

/-- What is collected from some workers is what they have processed. -/
theorem Workplace.collected_eq (place : Workplace) (first count : Nat) :
    place.collected first count =
      ((place.staff.drop first).take count).flatMap (·.processed) := by
  unfold collected staff
  rw [Array.toList_extract, List.extract_eq_take_drop, Nat.add_sub_cancel_left, ← List.map_drop,
    ← List.map_take, List.flatMap_map]
  rfl

/-- At the end nothing changes about the staff and the statistics. -/
theorem Task.conclude_spec {place after : Workplace} {command : Command}
    {transactions : List Transaction} {later : TaskState}
    (hconclude : conclude place command transactions = (after, later)) :
    after.staff = place.staff ∧ after.pipeline.statistics = place.pipeline.statistics ∧
      after.pipeline.settings = place.pipeline.settings ∧
      later = .done (command.answer transactions) := by
  have hreply : (conclude place command transactions).2 = .done (command.answer transactions) := by
    cases command <;> rfl
  rw [hconclude] at hreply
  unfold conclude at hconclude
  split at hconclude <;> cases hconclude
  · exact ⟨rfl, rfl, rfl, hreply⟩
  · exact ⟨rfl, rfl, rfl, hreply⟩

namespace Crowd

variable {command : Command} {batch : Batch} {base : Statistics} {idle : List Worker}
  {tallies : List Tally} {crowd next : Crowd} {mover : Party}

/-- The books after workers were hired for a batch: they were not too many, what was dropped was
counted, and what they were dealt is the batch. -/
structure Hired (batch : Batch) (base : Statistics) (idle : List Worker) (tallies : List Tally)
    (crowd : Crowd) : Prop where
  few : crowd.place.pipeline.settings.workers ≤ maxWorkers
  length : tallies.length = crowd.place.pipeline.settings.workers
  accounts : ∃ shares counted, shares.flatten.Perm batch.transactions ∧
    Statistics.Grows batch.format (batch.dropped.map some) base counted ∧
    Accounts batch.format shares counted idle tallies crowd

/-- The books at each point of a command that hands in a batch. -/
inductive BatchBooks (command : Command) (batch : Batch) (base : Statistics) (idle : List Worker)
    (tallies : List Tally) (crowd : Crowd) : TaskState → Prop
  | starting (haccounts : Accounts batch.format [] base idle tallies crowd) :
      BatchBooks command batch base idle tallies crowd .starting
  /-- No workers were hired. -/
  | refused {counted : Statistics} (hmany : maxWorkers < crowd.place.pipeline.settings.workers)
      (hdropped : Statistics.Grows batch.format (batch.dropped.map some) base counted)
      (haccounts : Accounts batch.format [] counted idle tallies crowd) :
      BatchBooks command batch base idle tallies crowd (.done (.aborted .tooManyWorkers))
  /-- The first workers were found to have finished. -/
  | waiting {first count found : Nat} (hhired : Hired batch base idle tallies crowd)
      (hfirst : first = idle.length) (hcount : count = tallies.length) (hfound : found ≤ count)
      (hfinished : ∀ index < found, ∀ tally, tallies[index]? = some tally →
        tally.worker.fate = .finished) :
      BatchBooks command batch base idle tallies crowd (.waiting first count found)
  | done {reply : Reply} (hhired : Hired batch base idle tallies crowd)
      (hfinished : ∀ tally ∈ tallies, tally.worker.fate = .finished)
      (hreply : reply = command.answer (tallies.flatMap (·.worker.processed))) :
      BatchBooks command batch base idle tallies crowd (.done reply)

/-! ## Moves of others -/

theorem Hired.moved (hhired : Hired batch base idle tallies crowd) (hstore : crowd.resources.Calm)
    (hmove : Move mover crowd next) (htask : ∀ position, mover ≠ .task position) :
    ∃ idle' tallies', idle'.length = idle.length ∧ tallies'.length = tallies.length ∧
      Leading tallies tallies' ∧ Hired batch base idle' tallies' next := by
  obtain ⟨hfew, hlength, shares, counted, hshares, hdropped, haccounts⟩ := hhired
  obtain ⟨idle', tallies', hidle, hleading, hnext⟩ := haccounts.moved hstore hmove htask
  have hsame : tallies'.length = tallies.length := hnext.length.trans haccounts.length.symm
  refine ⟨idle', tallies', hidle, hsame, hleading, ?_, ?_, shares, counted, hshares, hdropped,
    hnext⟩
  · rw [hmove.kindred.settings]
    exact hfew
  · rw [hmove.kindred.settings, hsame]
    exact hlength

theorem Hired.same (hhired : Hired batch base idle tallies crowd)
    (hstaff : next.place.staff = crowd.place.staff)
    (hstatistics : next.place.pipeline.statistics = crowd.place.pipeline.statistics)
    (hsettings : next.place.pipeline.settings = crowd.place.pipeline.settings) :
    Hired batch base idle tallies next := by
  obtain ⟨hfew, hlength, shares, counted, hshares, hdropped, haccounts⟩ := hhired
  refine ⟨?_, ?_, shares, counted, hshares, hdropped, haccounts.same hstaff hstatistics⟩
  · rw [hsettings]
    exact hfew
  · rw [hsettings]
    exact hlength

/-- A worker of a batch who is over has finished. -/
theorem Hired.finished (hhired : Hired batch base idle tallies crowd) {index : Nat} {tally : Tally}
    (htally : tallies[index]? = some tally) (hover : crowd.place.isOver (idle.length + index)) :
    tally.worker.fate = .finished := by
  obtain ⟨-, -, shares, counted, -, -, haccounts⟩ := hhired
  obtain ⟨share, hshare⟩ : ∃ share, shares[index]? = some share := by
    have hlt := (List.getElem?_eq_some_iff.mp htally).1
    rw [haccounts.length] at hlt
    exact ⟨_, List.getElem?_eq_getElem hlt⟩
  have hfate := (haccounts.sound index tally share htally hshare).balanced.fate
  have hstaff : crowd.place.staff[idle.length + index]? = some tally.worker := by
    rw [haccounts.staff, List.getElem?_append_right (Nat.le_add_right ..),
      Nat.add_sub_cancel_left, List.getElem?_map, htally, Option.map_some]
  rw [Workplace.getElem?_staff] at hstaff
  obtain ⟨worker, hworker, hbare⟩ := Option.map_eq_some_iff.mp hstaff
  have hworking : worker.fate ≠ .working := by simpa [Workplace.isOver, hworker] using hover
  have hsame : tally.worker.fate = worker.fate := by rw [← hbare, Worker.bare]
  rw [hsame] at hfate ⊢
  -- A worker who is over has finished or was lost, and none of a batch is lost.
  cases hcase : worker.fate with
  | working => exact absurd hcase hworking
  | finished => rfl
  | lost => exact absurd hcase hfate

/-- What the workers of a batch have collected is what they have processed. -/
theorem Hired.collected (hhired : Hired batch base idle tallies crowd) :
    crowd.place.collected idle.length tallies.length =
      tallies.flatMap (·.worker.processed) := by
  obtain ⟨-, -, shares, counted, -, -, haccounts⟩ := hhired
  rw [Workplace.collected_eq, haccounts.staff, List.drop_left,
    List.take_of_length_le (Nat.le_of_eq (List.length_map _)), List.flatMap_map]

/-- The tally of a worker who has finished stays as it is. -/
theorem Leading.finished {later : List Tally} (hleading : Leading tallies later)
    (hlength : later.length = tallies.length) {index : Nat}
    (hfinished : ∀ tally, tallies[index]? = some tally → tally.worker.fate = .finished) :
    later[index]? = tallies[index]? := by
  cases htally : tallies[index]? with
  | none =>
      rw [List.getElem?_eq_none_iff] at htally ⊢
      omega
  | some tally =>
      obtain ⟨tally', hlater, hleads⟩ := hleading.leads htally
      rw [hlater, hleads.finished (hfinished tally htally)]

/-- **The books of a batch stay in order** in every move but those of tasks. -/
theorem BatchBooks.moved {state : TaskState}
    (hbooks : BatchBooks command batch base idle tallies crowd state)
    (hstore : crowd.resources.Calm) (hmove : Move mover crowd next)
    (htask : ∀ position, mover ≠ .task position) :
    ∃ idle' tallies', idle'.length = idle.length ∧ Leading tallies tallies' ∧
      BatchBooks command batch base idle' tallies' next state := by
  cases hbooks with
  | starting haccounts =>
      obtain ⟨idle', tallies', hidle, hleading, hnext⟩ := haccounts.moved hstore hmove htask
      exact ⟨idle', tallies', hidle, hleading, .starting hnext⟩
  | refused hmany hdropped haccounts =>
      obtain ⟨idle', tallies', hidle, hleading, hnext⟩ := haccounts.moved hstore hmove htask
      rw [← hmove.kindred.settings] at hmany
      exact ⟨idle', tallies', hidle, hleading, .refused hmany hdropped hnext⟩
  | waiting hhired hfirst hcount hfound hfinished =>
      obtain ⟨idle', tallies', hidle, hlength, hleading, hnext⟩ := hhired.moved hstore hmove htask
      refine ⟨idle', tallies', hidle, hleading, .waiting hnext (hfirst.trans hidle.symm)
        (hcount.trans hlength.symm) hfound ?_⟩
      -- Those who were found to have finished stay as they are.
      intro index hindex tally htally
      rw [hleading.finished hlength (hfinished index hindex)] at htally
      exact hfinished index hindex tally htally
  | done hhired hfinished hreply =>
      obtain ⟨idle', tallies', hidle, hlength, hleading, hnext⟩ := hhired.moved hstore hmove htask
      have hsame : tallies' = tallies := by
        apply List.ext_getElem?
        intro index
        apply hleading.finished hlength
        intro tally htally
        exact hfinished tally (List.mem_of_getElem? htally)
      subst hsame
      exact ⟨idle', tallies', hidle, hleading, .done hnext hfinished hreply⟩

/-! ## Steps of the command -/

/-- The tallies of workers who were just hired. -/
private theorem accounts_hired {format : WireFormat} {limit : Nat}
    {queues : List (List (List Transaction))} {counted : Statistics}
    (hidle : ∀ worker ∈ idle, worker.Idle)
    (hstaff : next.place.staff = idle ++ queues.map (.new format limit))
    (hcounted : next.place.pipeline.statistics = counted) :
    Accounts format (queues.map List.flatten) counted idle
      (queues.map fun queue => ⟨.new format limit queue, []⟩) next := by
  refine ⟨?_, hidle, ?_, ?_, ?_⟩
  · rw [hstaff, List.map_map]
    rfl
  · rw [List.length_map, List.length_map]
  · intro index tally share htally hshare
    rw [List.getElem?_map] at htally hshare
    obtain ⟨queue, hqueue, rfl⟩ := Option.map_eq_some_iff.mp htally
    rw [hqueue] at hshare
    cases hshare
    refine ⟨Tally.balanced_new format limit queue, ⟨?_, ?_, ?_⟩⟩
    · exact Nat.lt_of_lt_of_le Nat.zero_lt_one (Nat.le_max_right limit 1)
    · exact fun hpending => absurd rfl hpending
    · exact WorkerFate.noConfusion
  · have hnone : (queues.map fun queue => (⟨.new format limit queue, []⟩ : Tally)).flatMap
        (·.entries) = [] := by
      rw [List.flatMap_map, List.flatMap_eq_nil_iff]
      intro queue _
      rfl
    rw [hnone, hcounted]
    exact .refl ..

/-- The first step counts what was dropped and hires workers. -/
theorem BatchBooks.begun (hbatch : command.batch? = some batch)
    (haccounts : Accounts batch.format [] base idle tallies crowd) {later : TaskState}
    (hbegin : Task.begin crowd.now crowd.place command = (next.place, later)) :
    ∃ tallies', Leading tallies tallies' ∧
      BatchBooks command batch base idle tallies' next later := by
  -- Nobody has worked on the batch so far.
  obtain rfl : tallies = [] := List.length_eq_zero_iff.mp haccounts.length
  have hdropped := haccounts.statistics.trans
    (Task.grows_withFailures crowd.place.pipeline.statistics batch.format batch.dropped)
  simp only [List.flatMap_nil, List.append_nil] at hdropped
  have hstaff := haccounts.staff
  simp only [List.map_nil, List.append_nil] at hstaff
  have hleading : ∀ later : List Tally, (∀ tally ∈ later, tally.ended = []) →
      Leading [] later := by
    intro later hnew
    refine ⟨fun htally => ?_, fun htally => .inl (hnew _ (List.mem_of_getElem? htally))⟩
    cases htally
  rw [Command.begin_of_batch? hbatch] at hbegin
  obtain ⟨hfew, rfl, hpipeline, hhired⟩ | ⟨hmany, rfl, hplace⟩ := Task.hire_cases hbegin
  · have hsettings := congrArg Pipeline.settings hpipeline
    have hcounted := congrArg Pipeline.statistics hpipeline
    dsimp only at hsettings hcounted
    replace hhired : next.place.staff = idle ++ _ := hhired.trans (congrArg (· ++ _) hstaff)
    refine ⟨_, hleading _ ?_, .waiting ⟨?_, ?_, _, _, ?_, hdropped,
      accounts_hired haccounts.idle hhired hcounted⟩ ?_ ?_ (Nat.zero_le _) ?_⟩
    · intro tally htally
      obtain ⟨queue, -, rfl⟩ := List.mem_map.mp htally
      rfl
    · rw [hsettings]
      exact hfew
    · rw [List.length_map, length_deal, hsettings]
      rfl
    · have hperm := perm_deal_subBatches
        (Nat.lt_of_lt_of_le Nat.zero_lt_one
          (Nat.le_max_right crowd.place.pipeline.settings.batch.workers 1))
        crowd.place.pipeline.settings.batch.subBatchSize batch.transactions
      rw [List.flatMap_def] at hperm
      exact hperm
    · rw [← hstaff]
      simp [Workplace.staff]
    · rw [List.length_map, length_deal]
    · intro index hindex
      cases hindex
  · refine ⟨[], .refl _, .refused ?_ hdropped ⟨?_, haccounts.idle, rfl, ?_, ?_⟩⟩
    · rw [hplace]
      exact hmany
    · rw [hplace, List.map_nil, List.append_nil]
      exact hstaff
    · intro index tally share htally
      cases htally
    · rw [hplace]
      exact .refl ..

/-- A command that hands in a batch goes on by what the books say. -/
theorem BatchBooks.stepped (hbatch : command.batch? = some batch) {state : TaskState}
    {later : Task} (hbooks : BatchBooks command batch base idle tallies crowd state)
    (hstep : Task.step? crowd.now crowd.place ⟨command, state⟩ = some (next.place, later)) :
    later.command = command ∧ ∃ tallies', Leading tallies tallies' ∧
      BatchBooks command batch base idle tallies' next later.state := by
  obtain ⟨hcommand, hact⟩ := Task.act_of_step? hstep
  refine ⟨hcommand, ?_⟩
  generalize later.state = after at hact
  dsimp only at hact
  generalize hplace : next.place = place at hact
  cases hbooks with
  | starting haccounts =>
      cases hact with
      | begin hbegin =>
          subst hplace
          exact BatchBooks.begun hbatch haccounts hbegin
  | @waiting first count found hhired hfirst hcount hfound hfinished =>
      cases hact with
      | find hne hover =>
          -- One more worker was found to have finished.
          refine ⟨tallies, .refl _, .waiting (hhired.same ?_ ?_ ?_) hfirst hcount (by omega) ?_⟩
          · rw [hplace]
          · rw [hplace]
          · rw [hplace]
          · intro index hindex tally htally
            by_cases hlast : index = found
            · rw [hfirst, ← hlast] at hover
              exact hhired.finished htally hover
            · exact hfinished index (by omega) tally htally
      | conclude hconclude =>
          -- All of them were found to have finished.
          obtain ⟨hstaff, hstatistics, hsettings, hreply⟩ := Task.conclude_spec hconclude
          rw [← hplace] at hstaff hstatistics hsettings
          rw [hreply, hfirst, hcount, hhired.collected]
          refine ⟨tallies, .refl _, .done (hhired.same hstaff hstatistics hsettings) ?_ rfl⟩
          intro tally htally
          obtain ⟨index, hindex⟩ := List.mem_iff_getElem?.mp htally
          have hlt := (List.getElem?_eq_some_iff.mp hindex).1
          exact hfinished index (by omega) tally hindex
  | refused | done => cases hact

end Crowd

end Clearing
