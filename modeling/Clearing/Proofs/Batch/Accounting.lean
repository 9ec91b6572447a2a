import Clearing.Proofs.Batch.Attempts
import Clearing.Proofs.Crowd.Script
import Clearing.Settings.Check

/-!
# Every record is accounted for

A command that hands in a batch is given to a pipeline that does nothing else,
and the store does not abort requests.  Then no transaction of the batch is
attempted twice, whoever moves when; when the command replies each was attempted
once and has a result, and the statistics have grown by one entry for each
record that was received (`Crowd.Run.accounted`).  If the settings ask for more
workers than there can be, the command is aborted and nothing was attempted.

## Strategy

The books of the batch (`BatchBooks`) are kept along the run, and with them the
history of the tallies: everything that was ever in flight is an attempt, and
everything that is done has ended like that at some time (`Run.Underway`).
-/

namespace Clearing

namespace Task

variable {task : Task} {reply : Reply}

theorem step?_of_reply (hreply : task.reply? = some reply) (now : Nat) (place : Workplace) :
    task.step? now place = none := by
  rw [step?, state_of_reply? hreply]
  rfl

theorem wait?_of_reply (hreply : task.reply? = some reply) (pipeline : Pipeline) :
    (Task.operation pipeline).wait? task = none := by
  simp only [operation, state_of_reply? hreply]

theorem submission?_of_reply? (hreply : task.reply? = some reply) : task.submission? = none := by
  rw [submission?, state_of_reply? hreply]

end Task

namespace Crowd

namespace BatchBooks

variable {command : Command} {batch : Batch} {base : Statistics} {idle : List Worker}
  {tallies : List Tally} {crowd : Crowd} {state : TaskState}
  (hbooks : BatchBooks command batch base idle tallies crowd state)

include hbooks

theorem accounts : ∃ shares counted, shares.flatten.Subperm batch.transactions ∧
    Accounts batch.format shares counted idle tallies crowd := by
  cases hbooks with
  | starting haccounts => exact ⟨[], _, List.nil_subperm, haccounts⟩
  | refused hmany hdropped haccounts => exact ⟨[], _, List.nil_subperm, haccounts⟩
  | waiting hhired | done hhired =>
      obtain ⟨-, -, shares, counted, hshares, -, haccounts⟩ := hhired
      exact ⟨shares, counted, hshares.subperm, haccounts⟩

/-- A command that hands in a batch has no submission of its own. -/
theorem submission? : Task.submission? ⟨command, state⟩ = none := by
  cases hbooks <;> rfl

/-- A command that hands in a batch is not cut short. -/
theorem cut? (pipeline : Pipeline) (chosen : Deadline → Bool) :
    (Task.operation pipeline).cut? chosen ⟨command, state⟩ = none := by
  cases hbooks <;> rfl

/-- The attempts so far are at transactions of the batch, and no two are the same job. -/
theorem attempts (position : Nat) :
    ((Tally.attemptsFrom position tallies).map (·.party)).Nodup ∧
      ((Tally.attemptsFrom position tallies).map (·.transaction)).Subperm batch.transactions := by
  obtain ⟨shares, counted, hshares, haccounts⟩ := hbooks.accounts
  refine ⟨Tally.nodup_attemptsFrom ?_, ?_⟩
  · intro tally htally
    obtain ⟨share, hsound⟩ := haccounts.sound_of_mem htally
    exact hsound.balanced.nodup_attempts
  · rw [Tally.transaction_attemptsFrom]
    exact haccounts.subperm_shares.trans hshares

/-- A job in flight is among the attempts. -/
theorem seen {position number : Nat} {submission : Submission}
    (hjob : crowd.submission? (.job position number) = some submission) :
    ∃ index tally, position = idle.length + index ∧ tallies[index]? = some tally ∧
      (number, submission.transaction) ∈ tally.attempts := by
  obtain ⟨shares, counted, -, haccounts⟩ := hbooks.accounts
  obtain ⟨index, tally, hposition, htally, hjob⟩ := haccounts.submission? hjob
  refine ⟨index, tally, hposition, htally, List.mem_append_right _ ?_⟩
  exact List.mem_map_of_mem (f := fun job => (job.1, job.2.transaction)) (Worker.mem_inHand hjob)

end BatchBooks

namespace Run

variable {run : Run} {start finish position : Nat} {command : Command} {batch : Batch}

/-- From one moment to another the pipeline does nothing but execute a command, which has just come
in, and the store aborts no requests. -/
structure Alone (run : Run) (start finish position : Nat) (command : Command) : Prop where
  given : (run.moment start).tasks[position]? = some (.new command)
  others : ∀ (other : Nat) (task : Task), other ≠ position →
    (run.moment start).tasks[other]? = some task → ∃ reply, task.reply? = some reply
  idle : ∀ worker ∈ (run.moment start).place.staff, worker.Idle
  undisturbed : ∀ index, start ≤ index → index < finish → run.party index ≠ .arrival
  calm : ∀ index, start ≤ index → index < finish → (run.moment index).resources.Calm

/-- What was attempted between two moments: every job that was in flight is one of the attempts,
and the results are those of the jobs. -/
structure Attempts (run : Run) (start index : Nat) (attempts : List Attempt) : Prop where
  once : (attempts.map (·.party)).Nodup
  made : ∀ attempt ∈ attempts, ∃ earlier submission, start ≤ earlier ∧ earlier ≤ index ∧
    (run.moment earlier).submission? attempt.party = some submission ∧
      submission.transaction = attempt.transaction ∧
        ∀ result ∈ attempt.result?, submission.ending? = some (.returned result)
  all : ∀ earlier party submission, start ≤ earlier → earlier ≤ index →
    (run.moment earlier).submission? party = some submission →
      ∃ attempt ∈ attempts, attempt.party = party ∧ attempt.transaction = submission.transaction

/-- The command alone is underway, and the books tell its history. -/
structure Underway (run : Run) (start position : Nat) (command : Command) (batch : Batch)
    (index : Nat) (idle : List Worker) (tallies : List Tally) (state : TaskState) : Prop where
  task : (run.moment index).tasks[position]? = some ⟨command, state⟩
  others : ∀ (other : Nat) (task : Task), other ≠ position →
    (run.moment index).tasks[other]? = some task → ∃ reply, task.reply? = some reply
  length : idle.length = (run.moment start).place.staff.length
  settings : (run.moment index).place.pipeline.settings =
    (run.moment start).place.pipeline.settings
  books : BatchBooks command batch (run.moment start).place.pipeline.statistics idle tallies
    (run.moment index) state
  made : ∀ (number : Nat) (tally : Tally), tallies[number]? = some tally →
    ∀ done ∈ tally.ended, ∃ earlier submission, start ≤ earlier ∧ earlier ≤ index ∧
      (run.moment earlier).submission? (.job (idle.length + number) done.number) =
        some submission ∧
      submission.transaction = done.transaction ∧
        submission.ending? = some (.returned done.result)
  seen : ∀ earlier party submission, start ≤ earlier → earlier ≤ index →
    (run.moment earlier).submission? party = some submission →
      ∃ number tally job, party = .job (idle.length + number) job ∧
        tallies[number]? = some tally ∧ (job, submission.transaction) ∈ tally.attempts

variable {index : Nat} {idle : List Worker} {tallies : List Tally} {state : TaskState}

/-- Whatever is in flight is a job of a worker of the batch. -/
private theorem seen_now {base : Statistics}
    (htask : (run.moment index).tasks[position]? = some ⟨command, state⟩)
    (hothers : ∀ (other : Nat) (task : Task), other ≠ position →
      (run.moment index).tasks[other]? = some task → ∃ reply, task.reply? = some reply)
    (hbooks : BatchBooks command batch base idle tallies (run.moment index) state)
    {party : Party} {submission : Submission}
    (hsubmission : (run.moment index).submission? party = some submission) :
    ∃ number tally job, party = .job (idle.length + number) job ∧
      tallies[number]? = some tally ∧ (job, submission.transaction) ∈ tally.attempts := by
  cases party with
  | job place job =>
      obtain ⟨number, tally, hposition, htally, hattempt⟩ := hbooks.seen hsubmission
      exact ⟨number, tally, job, by rw [hposition], htally, hattempt⟩
  | task other =>
      obtain ⟨task, hother, hsubmission⟩ := Option.bind_eq_some_iff.mp hsubmission
      by_cases hsame : other = position
      · rw [hsame, htask] at hother
        cases hother
        rw [hbooks.submission?] at hsubmission
        cases hsubmission
      · obtain ⟨reply, hreply⟩ := hothers other task hsame hother
        rw [Task.submission?_of_reply? hreply] at hsubmission
        cases hsubmission
  | _ => cases hsubmission

theorem underway_start (halone : run.Alone start finish position command) :
    run.Underway start position command batch start (run.moment start).place.staff []
      .starting := by
  have hbooks : BatchBooks command batch (run.moment start).place.pipeline.statistics
      (run.moment start).place.staff [] (run.moment start) .starting := by
    refine .starting ⟨by simp, halone.idle, rfl, ?_, .refl ..⟩
    intro index tally share htally
    cases htally
  refine ⟨halone.given, halone.others, rfl, rfl, hbooks, ?_, ?_⟩
  · intro number tally htally
    cases htally
  · intro earlier party submission hstart hearlier hsubmission
    obtain rfl := Nat.le_antisymm hearlier hstart
    exact seen_now halone.given halone.others hbooks hsubmission

/-- The history goes on as the tallies do. -/
private theorem Underway.leading {idle' : List Worker} {tallies' : List Tally}
    {state' : TaskState}
    (hunderway : run.Underway start position command batch index idle tallies state)
    (htask : (run.moment (index + 1)).tasks[position]? = some ⟨command, state'⟩)
    (hothers : ∀ (other : Nat) (task : Task), other ≠ position →
      (run.moment (index + 1)).tasks[other]? = some task → ∃ reply, task.reply? = some reply)
    (hindex : start ≤ index) (hidle : idle'.length = idle.length)
    (hleading : Leading tallies tallies')
    (hbooks : BatchBooks command batch (run.moment start).place.pipeline.statistics idle'
      tallies' (run.moment (index + 1)) state') :
    run.Underway start position command batch (index + 1) idle' tallies' state' := by
  refine ⟨htask, hothers, hidle.trans hunderway.length,
    (run.move index).kindred.settings.trans hunderway.settings, hbooks, ?_, ?_⟩
  · intro number later hlater done hdone
    rcases hleading.led hlater with hnew | ⟨tally, htally, hleads⟩
    · rw [hnew] at hdone
      cases hdone
    · rcases hleads.ended done hdone with hold | ⟨submission, hjob, htransaction, hending⟩
      · obtain ⟨earlier, submission, hstart, hearlier, hdone⟩ :=
          hunderway.made number tally htally done hold
        rw [hidle]
        exact ⟨earlier, submission, hstart, by omega, hdone⟩
      · -- It was in flight just now.
        obtain ⟨shares, counted, -, haccounts⟩ := hunderway.books.accounts
        rw [← haccounts.submission?_of_tally htally] at hjob
        rw [hidle]
        exact ⟨index, submission, hindex, Nat.le_succ _, hjob, htransaction, hending⟩
  · intro earlier party submission hstart hearlier hsubmission
    by_cases hnow : earlier = index + 1
    · subst hnow
      exact seen_now htask hothers hbooks hsubmission
    · obtain ⟨number, tally, job, hparty, htally, hattempt⟩ :=
        hunderway.seen earlier party submission hstart (by omega) hsubmission
      obtain ⟨later, hlater, hleads⟩ := hleading.leads htally
      rw [← hidle] at hparty
      exact ⟨number, later, job, hparty, hlater, hleads.attempts _ hattempt⟩

/-- **The command is underway** until it has replied, whoever moves. -/
theorem Underway.succ (hbatch : command.batch? = some batch)
    (hunderway : run.Underway start position command batch index idle tallies state)
    (hindex : start ≤ index) (harrival : run.party index ≠ .arrival)
    (hstore : (run.moment index).resources.Calm) :
    ∃ idle' tallies' state',
      run.Underway start position command batch (index + 1) idle' tallies' state' := by
  have htask := hunderway.task
  have hlt := (List.getElem?_eq_some_iff.mp htask).1
  cases (run.move index).tasksBecame with
  | arrived hmover => exact absurd hmover harrival
  | same hmover htasks =>
      obtain ⟨idle', tallies', hidle, hleading, hbooks⟩ :=
        hunderway.books.moved hstore (run.move index) hmover
      refine ⟨idle', tallies', state, hunderway.leading ?_ ?_ hindex hidle hleading hbooks⟩
      · rw [htasks]
        exact htask
      · rw [htasks]
        exact hunderway.others
  | @step mover task later hmover hmoved hstep htasks =>
      by_cases hsame : mover = position
      · subst hsame
        rw [htask] at hmoved
        cases hmoved
        obtain ⟨hcommand, tallies', hleading, hbooks⟩ :=
          hunderway.books.stepped hbatch hstep
        refine ⟨idle, tallies', later.state,
          hunderway.leading ?_ ?_ hindex rfl hleading hbooks⟩
        · rw [htasks, List.getElem?_set_self hlt, ← hcommand]
        · intro other task hother hbefore
          rw [htasks, List.getElem?_set_ne (Ne.symm hother)] at hbefore
          exact hunderway.others other task hother hbefore
      · -- The others have replied.
        obtain ⟨reply, hreply⟩ := hunderway.others mover task hsame hmoved
        rw [Task.step?_of_reply hreply] at hstep
        cases hstep
  | @cut mover task later chosen hmover hmoved hwait hcut htasks =>
      by_cases hsame : mover = position
      · subst hsame
        rw [htask] at hmoved
        cases hmoved
        rw [hunderway.books.cut?] at hcut
        cases hcut
      · obtain ⟨reply, hreply⟩ := hunderway.others mover task hsame hmoved
        exact absurd (Task.wait?_of_reply hreply _) hwait

theorem underway (halone : run.Alone start finish position command)
    (hbatch : command.batch? = some batch) (hindex : start ≤ index) (hfinish : index ≤ finish) :
    ∃ idle tallies state,
      run.Underway start position command batch index idle tallies state := by
  -- The run before the command came in does not matter, so the induction begins when it did.
  induction hindex with
  | refl => exact ⟨_, _, _, underway_start halone⟩
  | @step index hindex ih =>
      obtain ⟨idle, tallies, state, hunderway⟩ := ih (Nat.le_of_succ_le hfinish)
      exact hunderway.succ hbatch hindex (halone.undisturbed index hindex hfinish)
        (halone.calm index hindex hfinish)

/-- The attempts are those of the tallies. -/
theorem Underway.attempts
    (hunderway : run.Underway start position command batch index idle tallies state)
    (hindex : start ≤ index) :
    run.Attempts start index (Tally.attemptsFrom idle.length tallies) := by
  refine ⟨(hunderway.books.attempts _).1, ?_, ?_⟩
  · intro attempt hattempt
    obtain ⟨number, tally, htally, hattempt⟩ := Tally.mem_attemptsFrom.mp hattempt
    -- An attempt has ended, and then it was in flight some time, or it is in flight now.
    rcases List.mem_append.mp hattempt with hended | hflying
    · obtain ⟨done, hdone, rfl⟩ := List.mem_map.mp hended
      obtain ⟨earlier, submission, hstart, hearlier, hjob, htransaction, hending⟩ :=
        hunderway.made number tally htally done hdone
      refine ⟨earlier, submission, hstart, hearlier, hjob, htransaction, ?_⟩
      intro result hresult
      cases hresult
      exact hending
    · obtain ⟨⟨job, submission⟩, hjob, rfl⟩ := List.mem_map.mp hflying
      obtain ⟨shares, counted, -, haccounts⟩ := hunderway.books.accounts
      obtain ⟨share, hsound⟩ := haccounts.sound_of_mem (List.mem_of_getElem? htally)
      refine ⟨index, submission, hindex, Nat.le_refl _, ?_, rfl, ?_⟩
      · rw [haccounts.submission?_of_tally htally]
        exact Worker.submission?_of_mem hsound.balanced.nodup hjob
      · intro result hresult
        cases hresult
  · intro earlier party submission hstart hearlier hsubmission
    obtain ⟨number, tally, job, hparty, htally, hattempt⟩ :=
      hunderway.seen earlier party submission hstart hearlier hsubmission
    obtain ⟨attempt, hmem, hsame, htransaction⟩ := Tally.exists_attemptsAt hattempt
    refine ⟨attempt, Tally.mem_attemptsFrom.mpr ⟨number, tally, htally, hmem⟩, ?_, htransaction⟩
    rw [hsame, hparty]

/-- What a batch has come to, and what is collected from its workers: each of its transactions was
attempted once and has a result, the statistics have grown by the entries of the results and of what
was dropped, and what is collected are the successes. -/
structure Settled (run : Run) (start finish : Nat) (batch : Batch) (attempts : List Attempt)
    (processed : List Transaction) : Prop where
  transactions : (attempts.map (·.transaction)).Perm batch.transactions
  ended : ∀ attempt ∈ attempts, attempt.result?.isSome
  entries : Statistics.Grows batch.format
    ((Attempt.results attempts).map Submission.failureKind? ++ batch.dropped.map some)
    (run.moment start).place.pipeline.statistics (run.moment finish).place.pipeline.statistics
  total : (run.moment finish).place.pipeline.statistics.succeeded batch.format +
      (run.moment finish).place.pipeline.statistics.totalFailed batch.format =
    (run.moment start).place.pipeline.statistics.succeeded batch.format +
      (run.moment start).place.pipeline.statistics.totalFailed batch.format + batch.received
  others : ∀ other ≠ batch.format,
    (run.moment finish).place.pipeline.statistics.succeeded other =
        (run.moment start).place.pipeline.statistics.succeeded other ∧
      ∀ kind, (run.moment finish).place.pipeline.statistics.failed other kind =
        (run.moment start).place.pipeline.statistics.failed other kind
  collected : processed = (Attempt.results attempts).filterMap Except.toOption
  successes : (run.moment finish).place.pipeline.statistics.succeeded batch.format =
    (run.moment start).place.pipeline.statistics.succeeded batch.format + processed.length
  bound : processed.length ≤ batch.transactions.length

/-- Every attempt that has ended has one result. -/
private theorem length_results {attempts : List Attempt}
    (hended : ∀ attempt ∈ attempts, attempt.result?.isSome) :
    (Attempt.results attempts).length = attempts.length := by
  induction attempts with
  | nil => rfl
  | cons attempt attempts ih =>
      have hrest := ih fun other hother => hended other (List.mem_cons_of_mem _ hother)
      obtain ⟨result, hresult⟩ := Option.isSome_iff_exists.mp
        (hended attempt List.mem_cons_self)
      unfold Attempt.results at hrest ⊢
      rw [List.filterMap_cons_some hresult, List.length_cons, List.length_cons, hrest]

/-- The entries of successes are as many as the successes. -/
private theorem count_successes (results : List (Except Failure Transaction)) :
    (results.map Submission.failureKind?).count none =
      (results.filterMap Except.toOption).length := by
  induction results with
  | nil => rfl
  | cons result results ih =>
      cases result with
      | ok transaction =>
          rw [List.map_cons, List.filterMap_cons_some (f := Except.toOption) rfl,
            List.length_cons, ← ih]
          exact List.count_cons_self
      | error failure =>
          rw [List.map_cons, List.filterMap_cons_none (f := Except.toOption) rfl, ← ih]
          exact List.count_cons_of_ne (Option.some_ne_none _)

private theorem count_dropped (kinds : List FailureKind) : (kinds.map some).count none = 0 := by
  rw [List.count_eq_zero, List.mem_map]
  rintro ⟨kind, -, hkind⟩
  cases hkind

/-- When all workers of a batch have finished it is settled. -/
private theorem settled (hbatch : command.batch? = some batch)
    (hhired : Hired batch (run.moment start).place.pipeline.statistics idle tallies
      (run.moment finish))
    (hfinished : ∀ tally ∈ tallies, tally.worker.fate = .finished) :
    run.Settled start finish batch (Tally.attemptsFrom idle.length tallies)
      (tallies.flatMap (·.worker.processed)) := by
  obtain ⟨-, -, shares, counted, hshares, hdropped, haccounts⟩ := hhired
  have htransactions : ((Tally.attemptsFrom idle.length tallies).map (·.transaction)).Perm
      batch.transactions := by
    rw [Tally.transaction_attemptsFrom]
    exact (haccounts.perm_of_finished hfinished).trans hshares
  have hended : ∀ attempt ∈ Tally.attemptsFrom idle.length tallies, attempt.result?.isSome :=
    fun attempt hattempt => haccounts.ended_of_finished hfinished hattempt
  have hentries := hdropped.trans (haccounts.grows_of_finished hfinished idle.length)
  have hprocessed := haccounts.processed_eq idle.length
  have hlength := htransactions.length_eq
  rw [List.length_map, ← length_results hended] at hlength
  have hreceived := Command.received_of_batch? hbatch
  refine ⟨htransactions, hended, hentries, ?_, fun other hother => hentries.other hother,
    hprocessed, ?_, ?_⟩
  · rw [hentries.total, List.length_append, List.length_map, List.length_map]
    omega
  · rw [hentries.succeeded, if_pos rfl, List.count_append, count_successes, count_dropped,
      Nat.add_zero, hprocessed]
  · rw [hprocessed, ← hlength]
    exact List.length_filterMap_le _ _

/-- **Every record is accounted for.**  A command that hands in a batch, given to a pipeline that
does nothing else, attempts no transaction of the batch twice, and when it replies it has attempted
each of them once and the batch is settled, or it was aborted before any attempt because more workers
were asked for than there can be. -/
theorem accounted (halone : run.Alone start finish position command)
    (hbatch : command.batch? = some batch) (hstart : start ≤ finish) {task : Task}
    (htask : (run.moment finish).tasks[position]? = some task) :
    ∃ attempts, run.Attempts start finish attempts ∧
      (attempts.map (·.transaction)).Subperm batch.transactions ∧
      ∀ reply, task.reply? = some reply →
        ((run.moment start).place.pipeline.settings.workers ≤ maxWorkers →
          ∃ processed, reply = command.answer processed ∧
            (run.moment finish).place.collected (run.moment start).place.workers.size
              (run.moment start).place.pipeline.settings.workers = processed ∧
            run.Settled start finish batch attempts processed) ∧
        (maxWorkers < (run.moment start).place.pipeline.settings.workers →
          reply = .aborted .tooManyWorkers ∧ attempts = []) := by
  obtain ⟨idle, tallies, state, hunderway⟩ :=
    underway halone hbatch hstart (Nat.le_refl finish)
  refine ⟨_, hunderway.attempts hstart, (hunderway.books.attempts _).2, ?_⟩
  intro reply hreply
  have hsame := hunderway.task
  rw [htask] at hsame
  cases hsame
  have hsize : idle.length = (run.moment start).place.workers.size := by
    rw [hunderway.length, Workplace.staff, List.length_map, Array.length_toList]
  rw [← hunderway.settings, ← hsize]
  cases hunderway.books with
  | starting | waiting => cases hreply
  | refused hmany hdropped haccounts =>
      cases hreply
      refine ⟨fun hfew => absurd hfew (Nat.not_le.mpr hmany), fun _ => ⟨rfl, ?_⟩⟩
      rw [List.length_eq_zero_iff.mp haccounts.length]
      rfl
  | done hhired hfinished hanswer =>
      cases hreply
      refine ⟨fun hfew => ⟨_, hanswer, ?_, settled hbatch hhired hfinished⟩,
        fun hmany => absurd hhired.few (Nat.not_le.mpr hmany)⟩
      rw [← hhired.length]
      exact hhired.collected

/-- One record without content, one that cannot be read, and two that hold transactions, the second
of a customer whom nobody knows. -/
def fourRecords : List (Option Bytes) :=
  [none, some [], some (ofCustomer "1"), some (ofCustomer "2")]
where
  ofCustomer (identifier : String) : Bytes :=
    Text.encode s!"\x7b\"customerId\":{identifier},\"productCode\":\"P1\",\"quantity\":2\x7d"

/-- Four records are consumed; the transactions are in flight together, and the second is done
first. -/
def smallBatch : Run :=
  .ofScript
    { now := 0, place := .new smallPipeline, tasks := [.new (.consume fourRecords .text)] }
    ([.task 0, .worker 0, .worker 1, .worker 2] ++ List.replicate 8 (.job 0 0) ++
      List.replicate 18 (.job 0 1) ++ [.finish 0 1] ++ List.replicate 18 (.job 0 0) ++
        [.finish 0 0, .worker 0] ++ List.replicate 4 (.task 0))

/-- Both transactions of the four records are attempted, and one of them is saved. -/
theorem accounted_smallBatch :
    smallBatch.Alone 0 55 0 (.consume fourRecords .text) ∧
      ∃ batch attempts processed,
        (Command.consume fourRecords .text).batch? = some batch ∧
          smallBatch.Attempts 0 55 attempts ∧ attempts.length = 2 ∧ processed.length = 1 ∧
            smallBatch.Settled 0 55 batch attempts processed := by
  have hundisturbed : ∀ index < 55, smallBatch.party index ≠ .arrival := by decide +kernel
  have hcalm : ∀ index < 55, ∀ kind ∈ RequestKind.all,
      ((smallBatch.moment index).resources.store.conditions.of kind).aborts = 0 := by
    decide +kernel
  have hkind (kind : RequestKind) : kind ∈ RequestKind.all := by cases kind <;> decide
  have halone : smallBatch.Alone 0 55 0 (.consume fourRecords .text) := by
    refine ⟨rfl, ?_, ?_, fun index _ => hundisturbed index,
      fun index _ hindex kind => hcalm index hindex kind (hkind kind)⟩
    · intro other task hother htask
      rw [List.getElem?_eq_none (by simp [smallBatch, ofScript, after]; omega)] at htask
      cases htask
    · intro worker hworker
      cases hworker
  have hdone : ((smallBatch.moment 55).tasks[0]?.bind Task.reply?).isSome := by decide +kernel
  obtain ⟨reply, hreply⟩ := Option.isSome_iff_exists.mp hdone
  obtain ⟨task, htask, hreply⟩ := Option.bind_eq_some_iff.mp hreply
  obtain ⟨attempts, hattempts, -, hsettled⟩ := accounted halone rfl (by decide : 0 ≤ 55) htask
  obtain ⟨processed, -, -, hsettled⟩ := (hsettled reply hreply).1 (by decide +kernel)
  have hreadable : (Task.readable .text fourRecords).length = 2 := by decide +kernel
  have hsucceeded : (smallBatch.moment 55).place.pipeline.statistics.succeeded .text =
      (smallBatch.moment 0).place.pipeline.statistics.succeeded .text + 1 := by decide +kernel
  refine ⟨halone, _, attempts, processed, rfl, hattempts, ?_, ?_, hsettled⟩
  · rw [← List.length_map, hsettled.transactions.length_eq]
    exact hreadable
  · exact Nat.add_left_cancel (hsettled.successes.symm.trans hsucceeded)

/-- Settings that ask for more workers than there can be. -/
def hugeStaff : Settings :=
  { Settings.initial with
    batch := { Settings.initial.batch with workers := 1152921504606846976 } }

/-- Four records are given to a pipeline that cannot hire so many workers. -/
def unstaffedBatch : Run :=
  .ofScript
    { now := 0
      place := .new { smallPipeline with settings := hugeStaff }
      tasks := [.new (.consume fourRecords .text)] }
    [.task 0]

/-- The settings are valid, but the command is aborted and two records are in no entry. -/
theorem not_accounted_of_hugeStaff :
    hugeStaff.check = .ok () ∧
      (Pipeline.new? hugeStaff .oneOfEach fun now => ⟨now, 0⟩) =
        some (unstaffedBatch.moment 0).place.pipeline ∧
      ((unstaffedBatch.moment 1).tasks[0]?.bind Task.reply? matches
        some (.aborted .tooManyWorkers)) ∧
      (unstaffedBatch.moment 1).place.pipeline.statistics.succeeded .text +
          (unstaffedBatch.moment 1).place.pipeline.statistics.totalFailed .text ≠
        (unstaffedBatch.moment 0).place.pipeline.statistics.succeeded .text +
          (unstaffedBatch.moment 0).place.pipeline.statistics.totalFailed .text +
            fourRecords.length := by
  exact ⟨by decide +kernel, rfl, by decide +kernel, by decide +kernel⟩

end Run

end Crowd

end Clearing
