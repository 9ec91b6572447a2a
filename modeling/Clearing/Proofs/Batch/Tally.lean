import Clearing.Proofs.Bookkeeping
import Clearing.Proofs.Processing.Calm
import Clearing.Proofs.Statistics

/-!
# The accounts of a worker

A tally is a worker with its history, the jobs that are done.  It is balanced if
nothing of what the worker was dealt is missing from it or there twice
(`Tally.Balanced`): what is done, what is in flight, what is pending and what is
queued are together what it was dealt, and every number that was given to a job
is that of one job that is done or of one in flight.

A diligent worker has as many jobs in flight as it may as long as there are
transactions pending, and when it has finished it has nothing left
(`Worker.Diligent`).

## Strategy

Three things happen to a worker's jobs: some are started (`Balanced.fill`), one
goes on (`Balanced.putJob`), and one is done (`Balanced.drop`).  What a worker
does in a move is made of these.
-/

namespace Clearing

/-! ## Jobs in hand -/

namespace Worker

/-- The numbers of the jobs in flight and their submissions. -/
def inHand (worker : Worker) : List (Nat × Submission) :=
  worker.jobs.map fun job => (job.number, job.watched.state)

@[simp] theorem inHand_bare (worker : Worker) : worker.bare.inHand = worker.inHand := by
  simp only [inHand, bare, List.map_map]
  rfl

theorem length_inHand (worker : Worker) : worker.inHand.length = worker.jobs.length := by
  simp [inHand]

/-- The jobs in hand other than one. -/
theorem map_others (jobs : List Job) (number : Nat) :
    (jobs.filter fun job => job.number ≠ number).map
        (fun job => (job.number, job.watched.state)) =
      (jobs.map fun job => (job.number, job.watched.state)).filter fun job =>
        job.1 ≠ number := by
  rw [List.filter_map]
  rfl

theorem inHand_putJob (worker : Worker) (number : Nat) (watched : Watched Submission) :
    (worker.putJob number watched).inHand =
      (worker.inHand.filter fun job => job.1 ≠ number) ++ [(number, watched.state)] := by
  simp only [inHand, putJob, List.map_append, map_others, List.map_cons, List.map_nil]

theorem inHand_fill (worker : Worker) (submit : Transaction → Submission) :
    (worker.fill submit).inHand =
      worker.inHand ++
        ((worker.pending.take (worker.limit - worker.jobs.length)).zipIdx
          worker.nextNumber).map fun started => (started.2, submit started.1) := by
  simp only [inHand, fill, List.map_append, List.map_map]
  rfl

theorem submission?_eq (worker : Worker) (number : Nat) :
    worker.submission? number =
      (worker.inHand.find? fun job => job.1 = number).map (·.2) := by
  simp only [submission?, job?, inHand, List.find?_map, Option.map_map, Function.comp_def]

theorem mem_inHand {worker : Worker} {number : Nat} {submission : Submission}
    (hjob : worker.submission? number = some submission) :
    (number, submission) ∈ worker.inHand := by
  rw [submission?_eq] at hjob
  obtain ⟨job, hfound, rfl⟩ := Option.map_eq_some_iff.mp hjob
  have hnumber : job.1 = number := by simpa using List.find?_some hfound
  rw [← hnumber]
  exact List.mem_of_find?_eq_some hfound

/-- When no two jobs have the same number, a job in hand is found by its own. -/
theorem submission?_of_mem {worker : Worker} {number : Nat} {submission : Submission}
    (hnodup : (worker.inHand.map (·.1)).Nodup) (hjob : (number, submission) ∈ worker.inHand) :
    worker.submission? number = some submission := by
  rw [submission?_eq]
  generalize worker.inHand = jobs at hnodup hjob
  induction jobs with
  | nil => cases hjob
  | cons job jobs ih =>
      rw [List.map_cons, List.nodup_cons] at hnodup
      obtain ⟨hnew, hnodup⟩ := hnodup
      rcases List.mem_cons.mp hjob with rfl | hjob
      · simp
      · have hne : job.1 ≠ number := by
          intro hsame
          rw [hsame] at hnew
          exact hnew (List.mem_map_of_mem (f := (·.1)) hjob)
        rw [List.find?_cons_of_neg (by simpa using hne)]
        exact ih hnodup hjob

/-- When no two jobs have the same number, one of them and the others are all. -/
theorem inHand_perm {worker : Worker} {number : Nat} {submission : Submission}
    (hnodup : (worker.inHand.map (·.1)).Nodup)
    (hjob : worker.submission? number = some submission) :
    worker.inHand.Perm
      ((number, submission) :: worker.inHand.filter fun job => job.1 ≠ number) := by
  have hmem := mem_inHand hjob
  generalize worker.inHand = jobs at hnodup hmem
  induction jobs with
  | nil => cases hmem
  | cons job jobs ih =>
      rw [List.map_cons, List.nodup_cons] at hnodup
      obtain ⟨hnew, hnodup⟩ := hnodup
      rcases List.mem_cons.mp hmem with rfl | hmem
      · -- It is the first one, and no other has its number.
        have hothers : jobs.filter (fun job => job.1 ≠ number) = jobs := by
          rw [List.filter_eq_self]
          intro other hother
          have hne : other.1 ≠ number := by
            intro hsame
            rw [← hsame] at hnew
            exact hnew (List.mem_map_of_mem (f := (·.1)) hother)
          simpa using hne
        rw [List.filter_cons_of_neg (by simp), hothers]
      · have hne : job.1 ≠ number := by
          intro hsame
          rw [hsame] at hnew
          exact hnew (List.mem_map_of_mem (f := (·.1)) hmem)
        rw [List.filter_cons_of_pos (by simpa using hne)]
        exact ((ih hnodup hmem).cons job).trans (.swap ..)

/-- A worker that is not idle while something is pending, and has nothing left when it has
finished. -/
structure Diligent (worker : Worker) : Prop where
  limit : 0 < worker.limit
  full : worker.pending ≠ [] → worker.limit ≤ worker.inHand.length
  finished : worker.fate = .finished →
    worker.jobs = [] ∧ worker.pending = [] ∧ worker.queue = []

/-- Without jobs nothing is pending. -/
theorem Diligent.pending {worker : Worker} (hdiligent : worker.Diligent)
    (hjobs : worker.jobs = []) : worker.pending = [] := by
  by_contra hpending
  have hfull := hdiligent.full hpending
  have hlimit := hdiligent.limit
  rw [length_inHand, hjobs, List.length_nil] at hfull
  omega

theorem Diligent.bare {worker : Worker} (hdiligent : worker.Diligent) : worker.bare.Diligent := by
  refine ⟨hdiligent.limit, ?_, ?_⟩
  · rw [inHand_bare]
    exact hdiligent.full
  · intro hfinished
    obtain ⟨hjobs, hrest⟩ := hdiligent.finished hfinished
    refine ⟨?_, hrest⟩
    simp [Worker.bare, hjobs]

/-- Who starts jobs as the limit allows and has something left is at the limit. -/
theorem full_fill {worker : Worker} {submit : Transaction → Submission}
    (hpending : (worker.fill submit).pending ≠ []) :
    worker.limit ≤ (worker.fill submit).inHand.length := by
  -- Something is left over, so everything that there was room for was started.
  have hrest : worker.limit - worker.jobs.length < worker.pending.length := by
    by_contra hall
    exact hpending (List.drop_eq_nil_of_le (by omega))
  rw [inHand_fill, List.length_append, length_inHand, List.length_map, List.length_zipIdx,
    List.length_take]
  omega

/-- Who starts jobs as the limit allows is diligent. -/
theorem diligent_fill {worker : Worker} (submit : Transaction → Submission)
    (hlimit : 0 < worker.limit) (hworking : worker.fate ≠ .finished) :
    (worker.fill submit).Diligent :=
  ⟨hlimit, full_fill, fun hfinished => absurd hfinished hworking⟩

end Worker

/-! ## Tallies -/

/-- A job that is done. -/
structure Done where
  number : Nat
  transaction : Transaction
  result : Except Failure Transaction

/-- A worker and its jobs that are done. -/
structure Tally where
  worker : Worker
  ended : List Done

namespace Tally

/-- The numbers and the transactions of the jobs that were started. -/
def attempts (tally : Tally) : List (Nat × Transaction) :=
  tally.ended.map (fun done => (done.number, done.transaction)) ++
    tally.worker.inHand.map fun job => (job.1, job.2.transaction)

/-- The entries in the statistics that were made for the transactions of a worker. -/
def entries (tally : Tally) : List (Option FailureKind) :=
  tally.ended.map (fun done => Submission.failureKind? done.result) ++
    tally.worker.inHand.flatMap fun job => job.2.mark?.toList

/-- A submission is as it should be: it is counted under the format of the batch and at its end,
and nothing about it was aborted. -/
structure Fits (format : WireFormat) (submission : Submission) : Prop where
  under : submission.format = format
  countsLast : submission.CountsLast
  calm : submission.Calm

/-- Nothing that a worker was dealt is missing from its tally or there twice. -/
structure Balanced (format : WireFormat) (dealt : List Transaction) (tally : Tally) : Prop where
  under : tally.worker.format = format
  dealt : (tally.attempts.map (·.2) ++
    (tally.worker.pending ++ tally.worker.queue.flatten)).Perm dealt
  numbers : (tally.attempts.map (·.1)).Perm (List.range tally.worker.nextNumber)
  fits : ∀ job ∈ tally.worker.inHand, Fits format job.2
  processed : tally.worker.processed = tally.ended.filterMap fun done => done.result.toOption
  fate : tally.worker.fate ≠ .lost

variable {format : WireFormat} {dealt : List Transaction} {tally : Tally}

theorem Balanced.nodup_attempts (hbalanced : tally.Balanced format dealt) :
    (tally.attempts.map (·.1)).Nodup :=
  hbalanced.numbers.nodup_iff.mpr List.nodup_range

theorem Balanced.nodup (hbalanced : tally.Balanced format dealt) :
    (tally.worker.inHand.map (·.1)).Nodup := by
  have hnodup := hbalanced.nodup_attempts
  rw [attempts, List.map_append, List.map_map, List.map_map] at hnodup
  exact (List.nodup_append.mp hnodup).2.1

theorem balanced_new (format : WireFormat) (limit : Nat) (queue : List (List Transaction)) :
    (⟨.new format limit queue, []⟩ : Tally).Balanced format queue.flatten := by
  refine ⟨rfl, .refl _, .refl _, ?_, rfl, ?_⟩
  · intro job hjob
    cases hjob
  · exact WorkerFate.noConfusion

/-! ## Starting -/

/-- The tally after as many jobs were started as the limit allows. -/
def fill (pipeline : Pipeline) (tally : Tally) : Tally :=
  { tally with worker := (tally.worker.fill (.ofBatch pipeline tally.worker.format)).bare }

/-- The jobs that were started follow those before. -/
theorem attempts_fill (tally : Tally) (pipeline : Pipeline) :
    (tally.fill pipeline).attempts = tally.attempts ++
      ((tally.worker.pending.take (tally.worker.limit - tally.worker.jobs.length)).zipIdx
        tally.worker.nextNumber).map Prod.swap := by
  simp only [attempts, fill, Worker.inHand_bare, Worker.inHand_fill, List.map_append,
    List.map_map, List.append_assoc]
  rfl

theorem Balanced.fill (hbalanced : tally.Balanced format dealt) (pipeline : Pipeline) :
    (tally.fill pipeline).Balanced format dealt := by
  obtain ⟨hunder, hdealt, hnumbers, hfits, hprocessed, hfate⟩ := hbalanced
  refine ⟨hunder, ?_, ?_, ?_, hprocessed, hfate⟩
  · refine List.Perm.trans (.of_eq ?_) hdealt
    rw [attempts_fill]
    simp only [Tally.fill, Worker.bare, Worker.fill, List.map_append, List.map_map,
      List.append_assoc]
    congr 1
    -- What was started is the beginning of what was pending.
    have hstarted := List.zipIdx_map_fst tally.worker.nextNumber
      (tally.worker.pending.take (tally.worker.limit - tally.worker.jobs.length))
    rw [show (Prod.snd ∘ Prod.swap : Transaction × Nat → Transaction) = Prod.fst from rfl,
      hstarted, ← List.append_assoc, List.take_append_drop]
  · -- The new numbers follow those that were given before.
    rw [attempts_fill]
    simp only [Tally.fill, Worker.bare, Worker.fill, List.map_append, List.map_map,
      List.length_zipIdx, List.range_add]
    refine hnumbers.append ?_
    rw [← List.range'_eq_map_range]
    exact .of_eq (List.zipIdx_map_snd ..)
  · intro job hjob
    simp only [Tally.fill, Worker.inHand_bare, Worker.inHand_fill] at hjob
    rcases List.mem_append.mp hjob with hold | hnew
    · exact hfits job hold
    · obtain ⟨⟨transaction, number⟩, -, rfl⟩ := List.mem_map.mp hnew
      have hlast := Submission.countsLast_ofBatch pipeline tally.worker.format transaction
      exact ⟨hunder, hlast, Submission.calm_ofBatch ..⟩

theorem diligent_fill (tally : Tally) (pipeline : Pipeline) (hlimit : 0 < tally.worker.limit)
    (hworking : tally.worker.fate ≠ .finished) : (tally.fill pipeline).worker.Diligent :=
  (Worker.diligent_fill _ hlimit hworking).bare

/-- Nothing was counted yet about the jobs that were started. -/
theorem entries_fill (tally : Tally) (pipeline : Pipeline) :
    (tally.fill pipeline).entries = tally.entries := by
  have hnew : ∀ started : List (Transaction × Nat),
      (started.map fun job =>
        (job.2, Submission.ofBatch pipeline tally.worker.format job.1)).flatMap
          (fun job => job.2.mark?.toList) = [] := by
    intro started
    rw [List.flatMap_map, List.flatMap_eq_nil_iff]
    intro _ _
    rfl
  simp only [entries, fill, Worker.inHand_bare, Worker.inHand_fill, List.flatMap_append]
  rw [hnew, List.append_nil]

/-! ## Going on -/

section Job

variable {number : Nat} {submission : Submission} (hbalanced : tally.Balanced format dealt)
  (hjob : tally.worker.submission? number = some submission)

include hbalanced hjob

/-- The jobs that are done, one in flight, and the others. -/
theorem Balanced.attempts_perm :
    tally.attempts.Perm
      (tally.ended.map (fun done => (done.number, done.transaction)) ++
        (number, submission.transaction) ::
          (tally.worker.inHand.filter fun job => job.1 ≠ number).map fun job =>
            (job.1, job.2.transaction)) :=
  ((Worker.inHand_perm hbalanced.nodup hjob).map fun job =>
    (job.1, job.2.transaction)).append_left _

theorem Balanced.entries_perm :
    tally.entries.Perm
      (submission.mark?.toList ++
        (tally.ended.map (fun done => Submission.failureKind? done.result) ++
          (tally.worker.inHand.filter fun job => job.1 ≠ number).flatMap fun job =>
            job.2.mark?.toList)) := by
  have hperm := (Worker.inHand_perm hbalanced.nodup hjob).flatMap_right
    fun job => job.2.mark?.toList
  rw [List.flatMap_cons] at hperm
  refine (hperm.append_left _).trans ?_
  rw [← List.append_assoc, ← List.append_assoc]
  exact List.perm_append_comm.append_right _

theorem Balanced.attempts_putJob {later : Submission}
    (hsame : later.transaction = submission.transaction) :
    ({ tally with worker := tally.worker.putJob number (.new later) } : Tally).attempts.Perm
      tally.attempts := by
  refine List.Perm.trans (List.Perm.append_left _ ?_) (hbalanced.attempts_perm hjob).symm
  rw [Worker.inHand_putJob, List.map_append, ← hsame]
  exact List.perm_append_singleton ..

/-- The tally after a job went on. -/
theorem Balanced.putJob {later : Submission} (hfits : Fits format later)
    (hsame : later.transaction = submission.transaction) :
    ({ tally with worker := tally.worker.putJob number (.new later) } : Tally).Balanced format
      dealt := by
  have hattempts := hbalanced.attempts_putJob hjob hsame
  refine ⟨hbalanced.under, ?_, ?_, ?_, hbalanced.processed, hbalanced.fate⟩
  · exact ((hattempts.map _).append_right _).trans hbalanced.dealt
  · exact (hattempts.map _).trans hbalanced.numbers
  · intro job hmem
    dsimp only at hmem
    rw [Worker.inHand_putJob] at hmem
    rcases List.mem_append.mp hmem with hother | hsame
    · exact hbalanced.fits job (List.mem_filter.mp hother).1
    · rw [List.mem_singleton.mp hsame]
      exact hfits

theorem Balanced.entries_putJob {later : Submission} {entered : List (Option FailureKind)}
    (hmark : later.mark?.toList = entered ++ submission.mark?.toList) :
    ({ tally with worker := tally.worker.putJob number (.new later) } : Tally).entries.Perm
      (entered ++ tally.entries) := by
  refine List.Perm.trans ?_ ((hbalanced.entries_perm hjob).symm.append_left _)
  simp only [entries, Worker.inHand_putJob, List.flatMap_append, List.flatMap_cons,
    List.flatMap_nil, List.append_nil, Watched.new, hmark]
  rw [← List.append_assoc, ← List.append_assoc entered]
  exact List.perm_append_comm

/-- Who was diligent with a job in hand still is when it went on. -/
theorem Balanced.diligent_putJob (hdiligent : tally.worker.Diligent) (later : Submission) :
    (tally.worker.putJob number (.new later)).Diligent := by
  have hperm := Worker.inHand_perm hbalanced.nodup hjob
  refine ⟨hdiligent.limit, ?_, ?_⟩
  · intro hpending
    have hfull := hdiligent.full hpending
    show tally.worker.limit ≤ (tally.worker.putJob number (.new later)).inHand.length
    rw [Worker.inHand_putJob]
    rw [hperm.length_eq] at hfull
    simpa using hfull
  · -- Who has a job in hand has not finished.
    intro hfinished
    obtain ⟨hjobs, -⟩ := hdiligent.finished hfinished
    have hmem := Worker.mem_inHand hjob
    rw [Worker.inHand, hjobs] at hmem
    cases hmem

end Job

/-! ## Finishing -/

/-- The tally after a job was done and before another one is started. -/
def drop (tally : Tally) (done : Done) : Tally where
  worker := { tally.worker with
    jobs := tally.worker.jobs.filter fun job => job.number ≠ done.number
    processed := tally.worker.processed ++ done.result.toOption.toList }
  ended := tally.ended ++ [done]

theorem inHand_drop (tally : Tally) (done : Done) :
    (tally.drop done).worker.inHand =
      tally.worker.inHand.filter fun job => job.1 ≠ done.number :=
  Worker.map_others ..

section Finish

variable {number : Nat} {submission : Submission} {result : Except Failure Transaction}
  (hbalanced : tally.Balanced format dealt)
  (hjob : tally.worker.submission? number = some submission)

include hbalanced hjob

theorem Balanced.attempts_drop :
    (tally.drop ⟨number, submission.transaction, result⟩).attempts.Perm tally.attempts := by
  refine List.Perm.trans ?_ (hbalanced.attempts_perm hjob).symm
  rw [attempts, inHand_drop]
  simp [Tally.drop]

theorem Balanced.drop :
    (tally.drop ⟨number, submission.transaction, result⟩).Balanced format dealt := by
  have hattempts : (tally.drop ⟨number, submission.transaction, result⟩).attempts.Perm
      tally.attempts := hbalanced.attempts_drop hjob
  refine ⟨hbalanced.under, ?_, ?_, ?_, ?_, hbalanced.fate⟩
  · exact ((hattempts.map _).append_right _).trans hbalanced.dealt
  · exact (hattempts.map _).trans hbalanced.numbers
  · intro job hmem
    rw [inHand_drop] at hmem
    exact hbalanced.fits job (List.mem_filter.mp hmem).1
  · simp only [Tally.drop, hbalanced.processed, List.filterMap_append, List.filterMap_cons,
      List.filterMap_nil]
    cases result <;> rfl

theorem Balanced.entries_drop (hending : submission.ending? = some (.returned result)) :
    (tally.drop ⟨number, submission.transaction, result⟩).entries.Perm tally.entries := by
  refine List.Perm.trans ?_ (hbalanced.entries_perm hjob).symm
  rw [Submission.mark?_of_ending? hending, entries, inHand_drop]
  simp only [Tally.drop, List.map_append, List.map_cons, List.map_nil]
  exact List.Perm.append_right _ List.perm_append_comm

end Finish

end Tally

end Clearing
