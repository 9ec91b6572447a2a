import Clearing.Proofs.Batch.Accounting
import Clearing.Proofs.Crowd.Submitted
import Clearing.Proofs.Settings.Check

/-!
# How workers go through a batch

A batch is cut into pieces, and each worker is handed every so-manieth of them.  It takes them
up one after the other, has no more transactions in flight than it may, and all of them are of
one piece: it takes up the next one when every transaction of the present one has ended.  As
long as something of the present piece was not started, it has as many in flight as it may
(`Crowd.Run.batch_disciplined`).

Nothing is said about who moves when, or how the transactions end.  Nobody does any of it where the
settings ask for more workers than there can be (`Crowd.Move.hires`).

## Strategy

The transactions of a worker are numbered through all its pieces.  So the number of pieces
that it has taken up and the next number tell where it is: the numbers from the beginning of
the present piece to the next number were started, and the rest of the piece is pending
(`Worker.Placed`).  Everything that happens to a worker is made of taking up a piece, starting
as many as there is room for, and a job that goes on or is done.
-/

namespace Clearing

/-- The number of transactions in the pieces before one. -/
def startOf (pieces : List (List Transaction)) (index : Nat) : Nat :=
  (pieces.take index).flatten.length

namespace Worker

/-- Where a worker is that has taken up so many of the pieces it was handed. -/
structure Placed (pieces : List (List Transaction)) (taken : Nat) (worker : Worker) : Prop where
  queue : worker.queue = pieces.drop taken
  pending : worker.pending = (pieces.take taken).flatten.drop worker.nextNumber
  begun : startOf pieces (taken - 1) ≤ worker.nextNumber
  reached : worker.nextNumber ≤ startOf pieces taken
  present : ∀ job ∈ worker.inHand, startOf pieces (taken - 1) ≤ job.1 ∧
    job.1 < worker.nextNumber ∧ pieces.flatten[job.1]? = some job.2.transaction
  nodup : (worker.inHand.map (·.1)).Nodup

/-- A worker has no more in flight than it may, and as many as it may while something is
pending. -/
structure Within (limit : Nat) (worker : Worker) : Prop where
  same : worker.limit = limit
  few : worker.jobs.length ≤ limit
  full : worker.pending ≠ [] → limit ≤ worker.jobs.length

variable {worker : Worker} {pieces : List (List Transaction)} {taken limit number : Nat}
  {submit : Transaction → Submission} {submission later : Submission}

theorem placed_new (format : WireFormat) (limit : Nat) (pieces : List (List Transaction)) :
    (Worker.new format limit pieces).Placed pieces 0 where
  queue := rfl
  pending := rfl
  begun := Nat.le_refl _
  reached := Nat.le_refl _
  present _ hjob := absurd hjob List.not_mem_nil
  nodup := List.nodup_nil

theorem within_new (format : WireFormat) (limit : Nat) (pieces : List (List Transaction)) :
    (Worker.new format limit pieces).Within (max limit 1) :=
  ⟨rfl, Nat.zero_le _, fun hpending => absurd rfl hpending⟩

theorem Placed.bare (hplaced : worker.Placed pieces taken) : worker.bare.Placed pieces taken where
  queue := hplaced.queue
  pending := hplaced.pending
  begun := hplaced.begun
  reached := hplaced.reached
  present := worker.inHand_bare ▸ hplaced.present
  nodup := worker.inHand_bare ▸ hplaced.nodup

theorem Within.bare (hwithin : worker.Within limit) : worker.bare.Within limit where
  same := hwithin.same
  few := by
    rw [← length_inHand, inHand_bare, length_inHand]
    exact hwithin.few
  full hpending := by
    rw [← length_inHand, inHand_bare, length_inHand]
    exact hwithin.full hpending

/-! ## Starting -/

/-- What is pending comes, in the batch, right after what was started. -/
theorem Placed.getElem?_pending (hplaced : worker.Placed pieces taken) {index : Nat}
    {transaction : Transaction} (hpending : worker.pending[index]? = some transaction) :
    pieces.flatten[worker.nextNumber + index]? = some transaction := by
  rw [hplaced.pending, List.getElem?_drop] at hpending
  have hlt := (List.getElem?_eq_some_iff.mp hpending).1
  rw [← List.take_append_drop taken pieces, List.flatten_append,
    List.getElem?_append_left hlt, hpending]

/-- The numbers that are given to the jobs that are started. -/
theorem map_fst_inHand_fill (worker : Worker) (submit : Transaction → Submission) :
    (worker.fill submit).inHand.map (·.1) = worker.inHand.map (·.1) ++
      List.range' worker.nextNumber
        (worker.pending.take (worker.limit - worker.jobs.length)).length := by
  rw [inHand_fill, List.map_append, List.map_map, ← List.zipIdx_map_snd]
  rfl

theorem nextNumber_fill (worker : Worker) (submit : Transaction → Submission) :
    (worker.fill submit).nextNumber = worker.nextNumber +
      (worker.pending.take (worker.limit - worker.jobs.length)).length :=
  congrArg (worker.nextNumber + ·) (List.length_zipIdx ..)

/-- Who starts as many as there is room for stays in place. -/
theorem Placed.fill (hplaced : worker.Placed pieces taken)
    (hsubmit : ∀ transaction, (submit transaction).transaction = transaction) :
    (worker.fill submit).Placed pieces taken where
  queue := hplaced.queue
  pending := by
    show worker.pending.drop _ = _
    rw [nextNumber_fill, ← List.drop_drop, ← hplaced.pending, List.length_take]
    by_cases hroom : worker.limit - worker.jobs.length ≤ worker.pending.length
    · rw [Nat.min_eq_left hroom]
    · rw [List.drop_eq_nil_of_le (by omega), List.drop_eq_nil_of_le (by omega)]
  begun := by
    rw [nextNumber_fill]
    exact Nat.le_add_right_of_le hplaced.begun
  reached := by
    have hlength := congrArg List.length hplaced.pending
    have hreached := hplaced.reached
    rw [List.length_drop] at hlength
    rw [nextNumber_fill, List.length_take]
    unfold startOf at hreached ⊢
    omega
  present job hjob := by
    rw [nextNumber_fill]
    rw [inHand_fill] at hjob
    rcases List.mem_append.mp hjob with hold | hnew
    · obtain ⟨hbegun, hlt, htransaction⟩ := hplaced.present job hold
      exact ⟨hbegun, Nat.lt_add_right _ hlt, htransaction⟩
    · obtain ⟨⟨transaction, number⟩, hstarted, rfl⟩ := List.mem_map.mp hnew
      obtain ⟨hle, hget⟩ := List.mk_mem_zipIdx_iff_le_and_getElem?_sub.mp hstarted
      have hlt := (List.getElem?_eq_some_iff.mp hget).1
      have htaken := hget
      rw [List.getElem?_take_of_lt (Nat.lt_of_lt_of_le hlt (List.length_take_le ..))] at htaken
      have hplace := hplaced.getElem?_pending htaken
      rw [Nat.add_sub_cancel' hle] at hplace
      refine ⟨Nat.le_trans hplaced.begun hle, by dsimp only; omega, ?_⟩
      rw [hsubmit]
      exact hplace
  nodup := by
    rw [map_fst_inHand_fill]
    refine List.nodup_append.mpr ⟨hplaced.nodup, List.nodup_range', ?_⟩
    intro number hold other hnew hsame
    obtain ⟨job, hjob, rfl⟩ := List.mem_map.mp hold
    have hlt := (hplaced.present job hjob).2.1
    have hle := (List.mem_range'_1.mp hnew).1
    omega

/-- Who starts as many as there is room for is within its limit. -/
theorem within_fill (hlimit : worker.limit = limit) (hfew : worker.jobs.length ≤ limit) :
    (worker.fill submit).Within limit where
  same := hlimit
  few := by
    rw [← length_inHand, inHand_fill, List.length_append, length_inHand, List.length_map,
      List.length_zipIdx, List.length_take]
    omega
  full hpending := by
    rw [← length_inHand]
    exact hlimit ▸ full_fill hpending

/-! ## Taking up, going on and being done -/

/-- Who has nothing left of a piece takes up the next one. -/
theorem Placed.takeUp {subBatch : List Transaction} {queue : List (List Transaction)}
    (hplaced : worker.Placed pieces taken) (hjobs : worker.jobs = [])
    (hpending : worker.pending = []) (hqueue : worker.queue = subBatch :: queue) :
    ({ worker with queue, pending := subBatch } : Worker).Placed pieces (taken + 1) := by
  have hrest := hplaced.queue
  rw [hqueue] at hrest
  have htake : pieces.take (taken + 1) = pieces.take taken ++ [subBatch] := by
    rw [List.take_add_one, ← List.head?_drop, ← hrest]
    rfl
  -- What was taken up before was started to the end.
  have hstarted : worker.nextNumber = startOf pieces taken := by
    refine Nat.le_antisymm hplaced.reached ?_
    have hnone := hplaced.pending
    rw [hpending] at hnone
    exact List.drop_eq_nil_iff.mp hnone.symm
  have hflat : (pieces.take (taken + 1)).flatten = (pieces.take taken).flatten ++ subBatch := by
    rw [htake, List.flatten_append, List.flatten_singleton]
  refine ⟨?_, ?_, Nat.le_of_eq hstarted.symm, ?_, ?_, hplaced.nodup⟩
  · exact (congrArg List.tail hrest).trans List.tail_drop
  · dsimp only
    rw [hflat, hstarted, startOf, List.drop_left]
  · dsimp only
    rw [hstarted, startOf, startOf, hflat, List.length_append]
    exact Nat.le_add_right ..
  · intro job hjob
    simp only [inHand, hjobs, List.map_nil, List.not_mem_nil] at hjob

section Job

variable (hplaced : worker.Placed pieces taken)
  (hjob : worker.submission? number = some submission)

include hplaced hjob

theorem Placed.putJob (hsame : later.transaction = submission.transaction) :
    (worker.putJob number (.new later)).Placed pieces taken where
  queue := hplaced.queue
  pending := hplaced.pending
  begun := hplaced.begun
  reached := hplaced.reached
  present other hother := by
    rw [inHand_putJob] at hother
    rcases List.mem_append.mp hother with hold | hnew
    · exact hplaced.present other (List.mem_filter.mp hold).1
    · rw [List.mem_singleton.mp hnew]
      dsimp only [Watched.new]
      rw [hsame]
      exact hplaced.present _ (mem_inHand hjob)
  nodup := by
    have hperm := (inHand_perm hplaced.nodup hjob).map (·.1)
    rw [inHand_putJob, List.map_append]
    exact ((List.perm_append_singleton ..).trans hperm.symm).nodup_iff.mpr hplaced.nodup

theorem length_putJob (watched : Watched Submission) :
    (worker.putJob number watched).jobs.length = worker.jobs.length := by
  have hperm := (inHand_perm hplaced.nodup hjob).length_eq
  rw [← length_inHand, inHand_putJob, ← length_inHand, hperm, List.length_append]
  rfl

theorem Placed.within_putJob (hwithin : worker.Within limit) (watched : Watched Submission) :
    (worker.putJob number watched).Within limit where
  same := hwithin.same
  few := (length_putJob hplaced hjob watched).symm ▸ hwithin.few
  full hpending := (length_putJob hplaced hjob watched).symm ▸ hwithin.full hpending

end Job

/-- The worker without a job that is done. -/
def without (worker : Worker) (number : Nat) (processed : List Transaction) : Worker :=
  { worker with jobs := worker.jobs.filter fun job => job.number ≠ number, processed }

theorem inHand_without (worker : Worker) (number : Nat) (processed : List Transaction) :
    (worker.without number processed).inHand =
      worker.inHand.filter fun job => job.1 ≠ number :=
  map_others ..

theorem Placed.without (hplaced : worker.Placed pieces taken) (number : Nat)
    (processed : List Transaction) :
    (worker.without number processed).Placed pieces taken where
  queue := hplaced.queue
  pending := hplaced.pending
  begun := hplaced.begun
  reached := hplaced.reached
  present job hjob := by
    rw [inHand_without] at hjob
    exact hplaced.present job (List.mem_filter.mp hjob).1
  nodup := by
    rw [inHand_without]
    exact hplaced.nodup.sublist (List.filter_sublist.map _)

/-! ## What is done -/

/-- A number was given to a job, and no job in flight has it. -/
def IsDone (worker : Worker) (number : Nat) : Prop :=
  number < worker.nextNumber ∧ number ∉ worker.inHand.map (·.1)

/-- To start jobs makes none of them done. -/
theorem IsDone.of_fill (hdone : (worker.fill submit).IsDone number) : worker.IsDone number := by
  obtain ⟨hlt, hmem⟩ := hdone
  rw [nextNumber_fill] at hlt
  rw [map_fst_inHand_fill, List.mem_append, List.mem_range'_1] at hmem
  refine ⟨?_, fun hold => hmem (.inl hold)⟩
  by_contra hnew
  exact hmem (.inr ⟨Nat.le_of_not_lt hnew, hlt⟩)

theorem IsDone.of_bare (hdone : worker.bare.IsDone number) : worker.IsDone number :=
  ⟨hdone.1, inHand_bare worker ▸ hdone.2⟩

/-- All numbers before the present piece are done. -/
theorem Placed.isDone_of_lt (hplaced : worker.Placed pieces taken)
    (hnumber : number < startOf pieces (taken - 1)) : worker.IsDone number := by
  refine ⟨Nat.lt_of_lt_of_le hnumber hplaced.begun, fun hmem => ?_⟩
  obtain ⟨job, hjob, rfl⟩ := List.mem_map.mp hmem
  exact Nat.not_le_of_lt hnumber (hplaced.present job hjob).1

theorem IsDone.of_putJob {other : Nat} {watched : Watched Submission}
    (hdone : (worker.putJob number watched).IsDone other) : worker.IsDone other := by
  obtain ⟨hlt, hmem⟩ := hdone
  refine ⟨hlt, fun hold => hmem ?_⟩
  obtain ⟨job, hjob, rfl⟩ := List.mem_map.mp hold
  rw [inHand_putJob, List.map_append, List.mem_append]
  by_cases hsame : job.1 = number
  · exact .inr (by simp [hsame])
  · exact .inl (List.mem_map_of_mem (List.mem_filter.mpr ⟨hjob, by simpa using hsame⟩))

theorem IsDone.of_without {other : Nat} {processed : List Transaction}
    (hdone : (worker.without number processed).IsDone other) :
    worker.IsDone other ∨ other = number := by
  obtain ⟨hlt, hmem⟩ := hdone
  by_cases hsame : other = number
  · exact .inr hsame
  · refine .inl ⟨hlt, fun hold => hmem ?_⟩
    obtain ⟨job, hjob, rfl⟩ := List.mem_map.mp hold
    rw [inHand_without]
    exact List.mem_map_of_mem (List.mem_filter.mpr ⟨hjob, by simpa using hsame⟩)

/-- A worker is in its place and within its limit. -/
structure OnTrack (limit : Nat) (pieces : List (List Transaction)) (taken : Nat)
    (worker : Worker) : Prop where
  placed : worker.Placed pieces taken
  within : worker.Within limit

variable {crowd next : Crowd} {mover : Party} {position : Nat} {worker' : Worker}

/-- **Whatever a worker does keeps it on track**, unless one of its jobs was aborted; what is done
anew was in flight and has returned. -/
theorem OnTrack.moved (hontrack : worker.OnTrack limit pieces taken)
    (hmoved : Crowd.WorkerMoved crowd next mover position worker worker') :
    (worker'.Idle ∧ ∃ number submission cause, worker.submission? number = some submission ∧
        submission.ending? = some (.aborted cause)) ∨
      ∃ taken', worker'.OnTrack limit pieces taken' ∧
        ∀ number, worker'.IsDone number → worker.IsDone number ∨
          ∃ submission result, worker.submission? number = some submission ∧
            submission.ending? = some (.returned result) := by
  obtain ⟨hplaced, hwithin⟩ := hontrack
  have hsubmit (transaction : Transaction) : (Submission.ofBatch crowd.place.pipeline worker.format
      transaction).transaction = transaction := rfl
  cases hmoved with
  | begun hmover hjobs hbegin hlater hpipeline =>
      obtain ⟨subBatch, queue, -, hpending, hqueue, rfl⟩ := begin?_cases hbegin
      rw [hlater]
      have htaken := hplaced.takeUp hjobs hpending hqueue
      have hlimit : ({ worker with queue, pending := subBatch } : Worker).limit = limit :=
        hwithin.same
      exact .inr ⟨taken + 1, ⟨(htaken.fill hsubmit).bare, (within_fill hlimit hwithin.few).bare⟩,
        fun number hdone => .inl hdone.of_bare.of_fill⟩
  | closed hmover hjobs hbegin hlater hpipeline =>
      rw [hlater]
      exact .inr ⟨taken, ⟨⟨hplaced.queue, hplaced.pending, hplaced.begun, hplaced.reached,
        hplaced.present, hplaced.nodup⟩, ⟨hwithin.same, hwithin.few, hwithin.full⟩⟩,
        fun number hdone => .inl hdone⟩
  | stepped hmover hjob hstep hlater =>
      rw [hlater]
      refine .inr ⟨taken, ⟨hplaced.putJob hjob (Submission.transaction_of_step? hstep),
        hplaced.within_putJob hjob hwithin _⟩, fun number hdone => .inl hdone.of_putJob⟩
  | cut hmover hjob hwait hcut hlater hpipeline =>
      rw [hlater]
      refine .inr ⟨taken, ⟨hplaced.putJob hjob (Submission.transaction_of_cut? hcut),
        hplaced.within_putJob hjob hwithin _⟩, fun number hdone => .inl hdone.of_putJob⟩
  | looked hmover hjob hlater hpipeline =>
      rw [hlater]
      refine .inr ⟨taken, ⟨hplaced.putJob hjob rfl, hplaced.within_putJob hjob hwithin _⟩,
        fun number hdone => .inl hdone.of_putJob⟩
  | @finished number submission result hmover hjob hending hlater hpipeline =>
      rw [hlater]
      let others := worker.without number (worker.processed ++ result.toOption.toList)
      have hlimit : others.limit = limit := hwithin.same
      have hfewer : others.jobs.length ≤ limit :=
        Nat.le_trans (List.length_filter_le ..) hwithin.few
      refine .inr ⟨taken, ⟨((hplaced.without number _).fill hsubmit).bare,
        (within_fill hlimit hfewer).bare⟩, fun other hdone => ?_⟩
      rcases hdone.of_bare.of_fill.of_without with hold | rfl
      · exact .inl hold
      · exact .inr ⟨submission, result, hjob, hending⟩
  | lost hmover hjob hending hlater =>
      rw [hlater]
      exact .inl ⟨⟨rfl, rfl, rfl⟩, _, _, _, hjob, hending⟩

end Worker

namespace Crowd

/-- A worker is as before after a move, or it or one of its jobs has moved. -/
theorem Move.worker_next {crowd next : Crowd} {mover : Party} (hmove : Move mover crowd next)
    {position : Nat} {worker : Worker} (hworker : crowd.place.staff[position]? = some worker) :
    next.place.staff[position]? = some worker ∨
      ∃ later, next.place.staff[position]? = some later ∧
        WorkerMoved crowd next mover position worker later := by
  have hlt := (List.getElem?_eq_some_iff.mp hworker).1
  cases hmove.staffBecame with
  | task hmover hhires =>
      obtain ⟨format, limit, queues, hstaff⟩ := hhires
      left
      rw [hstaff, List.getElem?_append_left hlt, hworker]
  | @moved mover' before later hbefore hmoved hstaff =>
      by_cases hsame : mover' = position
      · subst hsame
        obtain rfl : before = worker := Option.some.inj (hbefore.symm.trans hworker)
        exact .inr ⟨later, by rw [hstaff, List.getElem?_set_self hlt], hmoved⟩
      · left
        rw [hstaff, List.getElem?_set_ne hsame, hworker]
  | same hstaff hstatistics =>
      left
      rw [hstaff, hworker]

/-- **Workers are hired for a batch** as the settings say, each of whom is handed its share of the
sub-batches, unless they would be too many. -/
theorem Move.hires {crowd next : Crowd} {position : Nat} (hmove : Move (.task position) crowd next)
    {command : Command} {batch : Batch} (hbatch : command.batch? = some batch)
    (hgiven : crowd.tasks[position]? = some (.new command)) :
    (crowd.place.pipeline.settings.workers ≤ maxWorkers ∧
      ∀ number < crowd.place.pipeline.settings.workers,
        next.place.staff[crowd.place.workers.size + number]? =
          some (.new batch.format crowd.place.pipeline.settings.batch.inFlightPerWorker
            (share crowd.place.pipeline.settings.workers number
              (subBatches crowd.place.pipeline.settings.batch.subBatchSize
                batch.transactions)))) ∨
      maxWorkers < crowd.place.pipeline.settings.workers ∧
        next.tasks[position]? = some ⟨command, .done (.aborted .tooManyWorkers)⟩ ∧
        next.place.staff = crowd.place.staff := by
  have hlt := (List.getElem?_eq_some_iff.mp hgiven).1
  cases hmove with
  | @stepTask _ _ task later place htask hstep =>
      obtain rfl : task = .new command := Option.some.inj (htask.symm.trans hgiven)
      obtain ⟨hcommand, hact⟩ := Task.act_of_step? hstep
      obtain ⟨command', state⟩ := later
      obtain rfl : command' = command := hcommand
      have hbegin : Task.begin crowd.now crowd.place command' = (place, state) := by
        dsimp only [Task.new] at hact
        cases hact with
        | begin hbegin => exact hbegin
      rw [Command.begin_of_batch? hbatch] at hbegin
      obtain ⟨hfew, -, -, hstaff⟩ | ⟨hmany, rfl, rfl⟩ := Task.hire_cases hbegin
      · refine .inl ⟨hfew, fun number hnumber => ?_⟩
        have hsize : crowd.place.staff.length = crowd.place.workers.size := by
          rw [Workplace.staff, List.length_map, Array.length_toList]
        have hdealt := getElem?_deal hnumber
          (subBatches crowd.place.pipeline.settings.batch.subBatchSize batch.transactions)
        replace hstaff : place.staff = crowd.place.staff ++ _ := hstaff
        rw [hstaff, ← hsize, List.getElem?_append_right (Nat.le_add_right ..),
          Nat.add_sub_cancel_left, List.getElem?_map]
        exact congrArg (Option.map _) hdealt
      · exact .inr ⟨hmany, List.getElem?_set_self hlt, rfl⟩
  | cutTask htask hwait hcut =>
      rw [hgiven] at htask
      cases htask
      exact absurd rfl hwait

namespace Run

variable {run : Run} {index position limit taken number : Nat}
  {pieces : List (List Transaction)} {worker : Worker}

/-- By an index the job of a worker about the transaction with a number has returned something. -/
def HasReturned (run : Run) (index position : Nat) (pieces : List (List Transaction))
    (number : Nat) : Prop :=
  ∃ earlier < index, ∃ submission result,
    (run.moment earlier).submission? (.job position number) = some submission ∧
      pieces.flatten[number]? = some submission.transaction ∧
        submission.ending? = some (.returned result)

/-- By an index a job of a worker was aborted. -/
def WasAborted (run : Run) (index position : Nat) : Prop :=
  ∃ earlier < index, ∃ number submission cause,
    (run.moment earlier).submission? (.job position number) = some submission ∧
      submission.ending? = some (.aborted cause)

/-- A worker is on track, and what is done has returned; or one of its jobs was aborted and it has
nothing left. -/
def Keeps (run : Run) (index position limit : Nat) (pieces : List (List Transaction))
    (worker : Worker) : Prop :=
  (worker.Idle ∧ run.WasAborted index position) ∨
    ∃ taken, worker.OnTrack limit pieces taken ∧
      ∀ number, worker.IsDone number → run.HasReturned index position pieces number

theorem HasReturned.succ (hreturned : run.HasReturned index position pieces number) :
    run.HasReturned (index + 1) position pieces number := by
  obtain ⟨earlier, hearlier, hjob⟩ := hreturned
  exact ⟨earlier, Nat.lt_succ_of_lt hearlier, hjob⟩

theorem WasAborted.succ (haborted : run.WasAborted index position) :
    run.WasAborted (index + 1) position := by
  obtain ⟨earlier, hearlier, hjob⟩ := haborted
  exact ⟨earlier, Nat.lt_succ_of_lt hearlier, hjob⟩

theorem Keeps.succ (hkeeps : run.Keeps index position limit pieces worker) :
    run.Keeps (index + 1) position limit pieces worker := by
  rcases hkeeps with ⟨hidle, haborted⟩ | ⟨taken, hontrack, hreturned⟩
  · exact .inl ⟨hidle, haborted.succ⟩
  · exact .inr ⟨taken, hontrack, fun number hdone => (hreturned number hdone).succ⟩

/-- The move of a worker keeps it on track. -/
theorem Keeps.moved {later : Worker} (hkeeps : run.Keeps index position limit pieces worker)
    (hworker : (run.moment index).place.staff[position]? = some worker)
    (hmoved : WorkerMoved (run.moment index) (run.moment (index + 1)) (run.party index) position
      worker later) :
    run.Keeps (index + 1) position limit pieces later := by
  have hsubmission {number : Nat} {submission : Submission}
      (hjob : worker.submission? number = some submission) :
      (run.moment index).submission? (.job position number) = some submission :=
    Option.bind_eq_some_iff.mpr ⟨worker, hworker, hjob⟩
  rcases hkeeps with ⟨hidle, haborted⟩ | ⟨taken, hontrack, hreturned⟩
  · exact .inl ⟨(hidle.moved hmoved).1, haborted.succ⟩
  · rcases hontrack.moved hmoved with
      ⟨hidle, number, submission, cause, hjob, hending⟩ | ⟨taken', hontrack', hdone⟩
    · exact .inl ⟨hidle, index, Nat.lt_succ_self _, number, submission, cause,
        hsubmission hjob, hending⟩
    · refine .inr ⟨taken', hontrack', fun number hnumber => ?_⟩
      rcases hdone number hnumber with hold | ⟨submission, result, hjob, hending⟩
      · exact (hreturned number hold).succ
      · exact ⟨index, Nat.lt_succ_self _, submission, result, hsubmission hjob,
          (hontrack.placed.present _ (Worker.mem_inHand hjob)).2.2, hending⟩

/-- **Who was hired keeps on track**, whoever moves. -/
theorem keeps_of_hired {format : WireFormat} {start : Nat}
    (hhired : (run.moment start).place.staff[position]? = some (.new format limit pieces))
    (hindex : start ≤ index) :
    ∃ worker, (run.moment index).place.staff[position]? = some worker ∧
      run.Keeps index position (max limit 1) pieces worker := by
  induction hindex with
  | refl =>
      refine ⟨_, hhired, .inr ⟨0, ⟨Worker.placed_new .., Worker.within_new ..⟩, ?_⟩⟩
      exact fun number hdone => absurd hdone.1 (Nat.not_lt_zero _)
  | @step index hindex ih =>
      obtain ⟨worker, hworker, hkeeps⟩ := ih
      rcases (run.move index).worker_next hworker with hsame | ⟨later, hlater, hmoved⟩
      · exact ⟨worker, hsame, hkeeps.succ⟩
      · exact ⟨later, hlater, hkeeps.moved hworker hmoved⟩

/-! ## The workers of a batch -/

/-- How a worker goes through the pieces it was handed, so many of which it has taken up; the last
one of these is the present one. -/
structure Orderly (run : Run) (index position : Nat) (pieces : List (List Transaction))
    (taken : Nat) (worker : Worker) : Prop where
  queue : worker.queue = pieces.drop taken
  /-- What was not started of the present piece. -/
  pending : worker.pending = (pieces.take taken).flatten.drop worker.nextNumber
  /-- What is in flight is of the present piece. -/
  present : ∀ job ∈ worker.jobs, startOf pieces (taken - 1) ≤ job.number ∧
    job.number < startOf pieces taken ∧
      pieces.flatten[job.number]? = some job.watched.state.transaction
  once : (worker.jobs.map (·.number)).Nodup
  /-- What was started and is not in flight has returned. -/
  ended : ∀ number < worker.nextNumber, (∀ job ∈ worker.jobs, job.number ≠ number) →
    run.HasReturned index position pieces number
  /-- All of the pieces before the present one has returned. -/
  earlier : ∀ number < startOf pieces (taken - 1), run.HasReturned index position pieces number

/-- A worker has no more in flight than it may, and fewer only if nothing of its present piece is
left to start; it goes through its pieces in order, or one of its jobs was aborted and it has
nothing left. -/
def Disciplined (run : Run) (index position limit : Nat) (pieces : List (List Transaction)) :
    Prop :=
  ∃ worker, (run.moment index).place.workers[position]? = some worker ∧
    worker.jobs.length ≤ limit ∧ (worker.jobs.length < limit → worker.pending = []) ∧
      ((worker.Idle ∧ run.WasAborted index position) ∨
        ∃ taken, run.Orderly index position pieces taken worker)

theorem Keeps.orderly {taken : Nat} (hontrack : worker.bare.OnTrack limit pieces taken)
    (hreturned : ∀ number, worker.bare.IsDone number →
      run.HasReturned index position pieces number) :
    run.Orderly index position pieces taken worker := by
  obtain ⟨hplaced, -⟩ := hontrack
  have hnumbers : worker.bare.inHand.map (·.1) = worker.jobs.map (·.number) := by
    rw [Worker.inHand_bare, Worker.inHand, List.map_map]
    rfl
  refine ⟨hplaced.queue, hplaced.pending, fun job hjob => ?_, hnumbers ▸ hplaced.nodup, ?_,
    fun number hnumber => hreturned number (hplaced.isDone_of_lt hnumber)⟩
  · have hmem : (job.number, job.watched.state) ∈ worker.bare.inHand := by
      rw [Worker.inHand_bare]
      exact List.mem_map_of_mem (f := fun job => (job.number, job.watched.state)) hjob
    obtain ⟨hbegun, hlt, htransaction⟩ := hplaced.present _ hmem
    exact ⟨hbegun, Nat.lt_of_lt_of_le hlt hplaced.reached, htransaction⟩
  · intro number hlt hnone
    refine hreturned number ⟨hlt, ?_⟩
    rw [hnumbers]
    rintro hmem
    obtain ⟨job, hjob, hsame⟩ := List.mem_map.mp hmem
    exact hnone job hjob hsame

/-- Who keeps on track is disciplined. -/
theorem Keeps.disciplined {staffed : Worker}
    (hstaffed : (run.moment index).place.staff[position]? = some staffed)
    (hkeeps : run.Keeps index position limit pieces staffed) :
    run.Disciplined index position limit pieces := by
  rw [Workplace.getElem?_staff] at hstaffed
  obtain ⟨worker, hworker, rfl⟩ := Option.map_eq_some_iff.mp hstaffed
  have hjobs : worker.bare.jobs.length = worker.jobs.length := List.length_map _
  refine ⟨worker, hworker, ?_⟩
  rcases hkeeps with ⟨hidle, haborted⟩ | ⟨taken, hontrack, hreturned⟩
  · have hnone : worker.jobs = [] := List.map_eq_nil_iff.mp hidle.jobs
    exact ⟨by simp [hnone], fun _ => hidle.pending,
      .inl ⟨⟨hidle.queue, hidle.pending, hnone⟩, haborted⟩⟩
  · refine ⟨hjobs ▸ hontrack.within.few, fun hroom => ?_,
      .inr ⟨taken, Keeps.orderly hontrack hreturned⟩⟩
    by_contra hpending
    have hfull := hontrack.within.full hpending
    omega

/-- Workers who are within a limit have together at most so many times the limit in flight. -/
theorem length_flatMap_jobs_le {workers : List Worker}
    (hfew : ∀ worker ∈ workers, worker.jobs.length ≤ limit) :
    (workers.flatMap (·.jobs)).length ≤ workers.length * limit := by
  induction workers with
  | nil => exact Nat.zero_le _
  | cons worker workers ih =>
      obtain ⟨hfirst, hothers⟩ := List.forall_mem_cons.mp hfew
      rw [List.flatMap_cons, List.length_append, List.length_cons, Nat.succ_mul, Nat.add_comm]
      exact Nat.add_le_add (ih hothers) hfirst

/-- So have the workers of a batch. -/
theorem length_inFlight_le {first count : Nat} {shares : Nat → List (List Transaction)}
    (hdisciplined : ∀ number < count,
      run.Disciplined index (first + number) limit (shares number)) :
    ((((run.moment index).place.workers.toList.drop first).take count).flatMap (·.jobs)).length ≤
      count * limit := by
  refine Nat.le_trans (length_flatMap_jobs_le fun worker hworker => ?_)
    (Nat.mul_le_mul_right _ (List.length_take_le ..))
  obtain ⟨number, hnumber⟩ := List.mem_iff_getElem?.mp hworker
  have hlt := (List.getElem?_eq_some_iff.mp hnumber).1
  have hcount := Nat.lt_of_lt_of_le hlt (List.length_take_le ..)
  rw [List.getElem?_take_of_lt hcount, List.getElem?_drop, Array.getElem?_toList] at hnumber
  obtain ⟨worker', hworker', hfew, -⟩ := hdisciplined number hcount
  obtain rfl : worker' = worker := Option.some.inj (hworker'.symm.trans hnumber)
  exact hfew

/-- **Workers keep to their pieces and to their limits.**  A batch that is handed in under settings
that were checked is cut into consecutive pieces of the size of a sub-batch, but for the last one,
which may be shorter.  Each worker is handed every so-manieth piece, in order, and goes through
them one after the other, within its limit, whoever moves when, unless the settings ask for more
workers than there can be: then nobody is hired. -/
theorem batch_disciplined {start : Nat} {command : Command} {batch : Batch}
    (hbatch : command.batch? = some batch)
    (hgiven : (run.moment start).tasks[position]? = some (.new command))
    (hparty : run.party start = .task position)
    (hchecked : (run.moment start).place.pipeline.settings.check = .ok ()) :
    let settings := (run.moment start).place.pipeline.settings.batch
    let first := (run.moment start).place.workers.size
    let pieces := subBatches settings.subBatchSize batch.transactions
    (pieces.flatten = batch.transactions ∧
      (∀ piece ∈ pieces.dropLast, piece.length = settings.subBatchSize) ∧
      ∀ piece ∈ pieces, piece ≠ [] ∧ piece.length ≤ settings.subBatchSize) ∧
    (∀ number < settings.workers, ∀ turn : Nat,
      (share settings.workers number pieces)[turn]? = pieces[number + turn * settings.workers]?) ∧
    (settings.workers ≤ maxWorkers →
      (∀ number < settings.workers,
        (run.moment (start + 1)).place.staff[first + number]? =
          some (.new batch.format settings.inFlightPerWorker
            (share settings.workers number pieces))) ∧
      ∀ index > start,
        (∀ number < settings.workers,
          run.Disciplined index (first + number) settings.inFlightPerWorker
            (share settings.workers number pieces)) ∧
        ((((run.moment index).place.workers.toList.drop first).take settings.workers).flatMap
          (·.jobs)).length ≤ settings.workers * settings.inFlightPerWorker) ∧
    (maxWorkers < settings.workers →
      (run.moment (start + 1)).tasks[position]? =
          some ⟨command, .done (.aborted .tooManyWorkers)⟩ ∧
        (run.moment (start + 1)).place.staff = (run.moment start).place.staff) := by
  intro settings first pieces
  have husable := Settings.check_eq_ok_iff.mp hchecked
  have hworkers : (run.moment start).place.pipeline.settings.workers = settings.workers :=
    Nat.max_eq_left husable.workers
  have hlimit : max settings.inFlightPerWorker 1 = settings.inFlightPerWorker :=
    Nat.max_eq_left husable.inFlightPerWorker
  refine ⟨⟨flatten_subBatches _ _,
      fun piece => length_of_mem_dropLast_subBatches husable.subBatchSize,
      fun piece => length_of_mem_subBatches husable.subBatchSize⟩,
    fun number hnumber turn => getElem?_share hnumber pieces turn, ?_⟩
  have hmove := run.move start
  rw [hparty] at hmove
  have hhires := hmove.hires hbatch hgiven
  rw [hworkers] at hhires
  rcases hhires with ⟨hfew, hhired⟩ | ⟨hmany, haborted⟩
  · refine ⟨fun _ => ⟨hhired, fun index hindex => ?_⟩,
      fun hmany => absurd hfew (Nat.not_le.mpr hmany)⟩
    have hdisciplined (number : Nat) (hnumber : number < settings.workers) :
        run.Disciplined index (first + number) settings.inFlightPerWorker
          (share settings.workers number pieces) := by
      obtain ⟨worker, hworker, hkeeps⟩ := keeps_of_hired (hhired number hnumber) hindex
      exact (hlimit ▸ hkeeps).disciplined hworker
    exact ⟨hdisciplined, length_inFlight_le hdisciplined⟩
  · exact ⟨fun hfew => absurd hfew (Nat.not_le.mpr hmany), fun _ => haborted⟩

/-- A pipeline with two workers, each of whom takes up two transactions at a time and has one of
them in flight. -/
def tightPipeline : Pipeline :=
  { smallPipeline with
    settings := { Settings.initial with
      batch := { subBatchSize := 2, workers := 2, inFlightPerWorker := 1 } } }

/-- A transaction like the others of a batch. -/
def commonTransaction : Transaction :=
  .new 1 "P1" 2 .text

/-- Five transactions. -/
def fiveTransactions : List Transaction :=
  List.replicate 5 commonTransaction

/-- Five transactions are handed in, and the first one of the first worker is done. -/
def tightBatch : Run :=
  .ofScript
    { now := 0
      place := .new tightPipeline
      tasks := [.new (.batch fiveTransactions .text)] }
    ([.task 0, .worker 0, .worker 1] ++ List.replicate 26 (.job 0 0) ++ [.finish 0 0])

/-- The first worker is handed the first piece and the last one, and then has its second transaction
in flight. -/
theorem batch_disciplined_tightBatch :
    tightBatch.party 0 = .task 0 ∧
      (∀ index > 0,
        tightBatch.Disciplined index 0 1
          [[commonTransaction, commonTransaction], [commonTransaction]] ∧
        tightBatch.Disciplined index 1 1 [[commonTransaction, commonTransaction]]) ∧
      (tightBatch.moment 30).place.workers[0]?.map (fun worker => worker.jobs.map (·.number)) =
        some [1] := by
  have hparty : tightBatch.party 0 = .task 0 := by decide +kernel
  have hgiven : (tightBatch.moment 0).tasks[0]? =
      some (.new (.batch fiveTransactions .text)) := rfl
  have hchecked : (tightBatch.moment 0).place.pipeline.settings.check = .ok () := by
    decide +kernel
  have hfirst : share 2 0 (subBatches 2 fiveTransactions) =
      [[commonTransaction, commonTransaction], [commonTransaction]] := by decide +kernel
  have hsecond : share 2 1 (subBatches 2 fiveTransactions) =
      [[commonTransaction, commonTransaction]] := by decide +kernel
  obtain ⟨-, -, hhired, -⟩ := batch_disciplined rfl hgiven hparty hchecked
  obtain ⟨-, hdisciplined⟩ := hhired (by decide +kernel)
  refine ⟨hparty, fun index hindex => ⟨?_, ?_⟩, by decide +kernel⟩
  · exact hfirst ▸ (hdisciplined index hindex).1 0 (by decide +kernel)
  · exact hsecond ▸ (hdisciplined index hindex).1 1 (by decide +kernel)

/-- The same five transactions are handed in to a pipeline that cannot hire as many workers as its
settings ask for. -/
def unstaffedFive : Run :=
  .ofScript
    { now := 0
      place := .new { smallPipeline with settings := hugeStaff }
      tasks := [.new (.batch fiveTransactions .text)] }
    [.task 0]

/-- The settings are valid and the first worker should be handed all five transactions, but there is
no worker, then or later. -/
theorem not_disciplined_of_hugeStaff :
    hugeStaff.check = .ok () ∧
      (Pipeline.new? hugeStaff .oneOfEach fun now => ⟨now, 0⟩) =
        some (unstaffedFive.moment 0).place.pipeline ∧
      share hugeStaff.batch.workers 0
          (subBatches hugeStaff.batch.subBatchSize fiveTransactions) = [fiveTransactions] ∧
      (unstaffedFive.moment 1).tasks[0]? =
        some ⟨.batch fiveTransactions .text, .done (.aborted .tooManyWorkers)⟩ ∧
      ∀ index limit pieces, ¬ unstaffedFive.Disciplined index 0 limit pieces := by
  have hmove : Move (.task 0) (unstaffedFive.moment 0) (unstaffedFive.moment 1) :=
    unstaffedFive.move 0
  obtain ⟨hfew, -⟩ | ⟨-, haborted, hstaff⟩ := hmove.hires rfl rfl
  · exact absurd hfew (by decide +kernel)
  · refine ⟨by decide +kernel, rfl, by decide +kernel, haborted, ?_⟩
    rintro index limit pieces ⟨worker, hworker, -⟩
    have hstill : (unstaffedFive.moment index).place.staff = [] := by
      cases index with
      | zero => rfl
      | succ index =>
          have hafter : unstaffedFive.moment (index + 1) = unstaffedFive.moment 1 :=
            after_of_length_le _ (Nat.le_add_left 1 index)
          rw [hafter, hstaff]
          rfl
    have hnone := Workplace.getElem?_staff (unstaffedFive.moment index).place 0
    rw [hstill, hworker] at hnone
    cases hnone

end Run

end Crowd

end Clearing
