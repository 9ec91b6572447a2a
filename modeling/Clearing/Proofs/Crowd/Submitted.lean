import Clearing.Proofs.Crowd.Books

/-!
# Whose transactions are in a crowd

Every transaction that someone in a crowd is about was handed in with a command
(`Crowd.Run.submitted`): a submission of a task is about the transaction of its
command, and what workers have in hand was dealt to them from a batch.
-/

namespace Clearing

/-- The transactions that are handed in with a command. -/
def Command.transactions : Command → List Transaction
  | .process transaction => [transaction]
  | .batch transactions _ => transactions
  | .consume records format => Task.readable format records
  | _ => []

/-! ## Submissions -/

theorem Submission.transaction_of_step? {now : Nat} {before after : Pipeline}
    {submission later : Submission}
    (hstep : submission.step? now before = some (after, later)) :
    later.transaction = submission.transaction := by
  rcases step?_cases hstep with ⟨_, _, _, -, -, rfl⟩ | ⟨_, -, -, -, rfl⟩ <;> rfl

theorem Submission.transaction_of_cut? {pipeline : Pipeline} {chosen : Deadline → Bool}
    {submission later : Submission}
    (hcut : (operation pipeline).cut? chosen submission = some later) :
    later.transaction = submission.transaction := by
  obtain ⟨_, _, _, -, -, rfl⟩ := cut?_cases hcut
  rfl

/-! ## Workers -/

namespace Worker

/-- All transactions that a worker was dealt and is not done with have a property. -/
structure All (property : Transaction → Prop) (worker : Worker) : Prop where
  queue : ∀ subBatch ∈ worker.queue, ∀ transaction ∈ subBatch, property transaction
  pending : ∀ transaction ∈ worker.pending, property transaction
  jobs : ∀ job ∈ worker.jobs, property job.watched.state.transaction

variable {property : Transaction → Prop} {worker later : Worker} {number : Nat}
  {submission : Submission}

theorem all_new {format : WireFormat} {limit : Nat} {queue : List (List Transaction)}
    (hqueue : ∀ subBatch ∈ queue, ∀ transaction ∈ subBatch, property transaction) :
    (Worker.new format limit queue).All property where
  queue := hqueue
  pending := List.forall_mem_nil _
  jobs := List.forall_mem_nil _

theorem All.of_submission? (hall : worker.All property)
    (hjob : worker.submission? number = some submission) : property submission.transaction := by
  obtain ⟨job, hfound, rfl⟩ := Option.map_eq_some_iff.mp hjob
  exact hall.jobs job (List.mem_of_find?_eq_some hfound)

theorem All.mono {other : Transaction → Prop} (hall : worker.All property)
    (hother : ∀ transaction, property transaction → other transaction) : worker.All other where
  queue subBatch hsub transaction hmem := hother _ (hall.queue subBatch hsub transaction hmem)
  pending transaction hmem := hother _ (hall.pending transaction hmem)
  jobs job hjob := hother _ (hall.jobs job hjob)

theorem All.bare (hall : worker.All property) : worker.bare.All property where
  queue := hall.queue
  pending := hall.pending
  jobs job hjob := by
    obtain ⟨other, hother, rfl⟩ := List.mem_map.mp hjob
    exact hall.jobs other hother

theorem All.putJob (hall : worker.All property) (hproperty : property submission.transaction) :
    (worker.putJob number (.new submission)).All property where
  queue := hall.queue
  pending := hall.pending
  jobs job hjob := by
    rcases List.mem_append.mp hjob with hold | hnew
    · exact hall.jobs job (List.mem_filter.mp hold).1
    · rw [List.mem_singleton.mp hnew]
      exact hproperty

variable {submit : Transaction → Submission}
  (hsubmit : ∀ transaction, (submit transaction).transaction = transaction)

include hsubmit

theorem All.fill (hall : worker.All property) : (worker.fill submit).All property where
  queue := hall.queue
  pending transaction hmem := hall.pending transaction (List.mem_of_mem_drop hmem)
  jobs job hjob := by
    rcases List.mem_append.mp hjob with hold | hnew
    · exact hall.jobs job hold
    · obtain ⟨⟨transaction, _⟩, hstarted, rfl⟩ := List.mem_map.mp hnew
      have hpending := List.mem_of_mem_take (List.fst_mem_of_mem_zipIdx hstarted)
      show property (submit transaction).transaction
      rw [hsubmit]
      exact hall.pending transaction hpending

theorem All.begin? (hall : worker.All property) (hbegin : worker.begin? submit = some later) :
    later.All property := by
  unfold Worker.begin? at hbegin
  split at hbegin
  · rename_i subBatch queue hjobs hpending hqueue
    cases hbegin
    refine All.fill hsubmit ⟨?_, ?_, hall.jobs⟩
    · exact fun other hother => hall.queue other (hqueue ▸ List.mem_cons_of_mem _ hother)
    · exact hall.queue subBatch (hqueue ▸ List.mem_cons_self)
  · cases hbegin

theorem All.finish (hall : worker.All property) (result : Except Failure Transaction) :
    (worker.finish submit number result).All property := by
  refine All.fill hsubmit ⟨hall.queue, hall.pending, ?_⟩
  exact fun job hjob => hall.jobs job (List.mem_filter.mp hjob).1

end Worker

/-! ## Tasks -/

namespace Task

variable {now : Nat} {place after : Workplace} {task later : Task}

/-- A task that is about a submission was told its transaction. -/
def IsOwn (task : Task) : Prop :=
  ∀ submission, task.submission? = some submission →
    submission.transaction ∈ task.command.transactions

theorem isOwn_of_step? (hown : task.IsOwn) (hstep : task.step? now place = some (after, later)) :
    later.IsOwn := by
  intro submission hsubmission
  obtain ⟨hcommand, hact⟩ := act_of_step? hstep
  rw [hcommand]
  have hstate : later.state = .processing submission := by
    unfold Task.submission? at hsubmission
    split at hsubmission
    · rename_i hprocessing
      cases hsubmission
      exact hprocessing
    · cases hsubmission
  rw [hstate] at hact
  generalize hbefore : task.state = before at hact
  cases hact with
  | begin hbegin =>
      obtain ⟨transaction, hprocess, rfl⟩ := begin_processing hbegin
      rw [hprocess]
      exact List.mem_singleton_self _
  | @submission earlier _ pipeline hinner =>
      rw [Submission.transaction_of_step? hinner]
      exact hown earlier (by rw [Task.submission?, hbefore])
  | conclude hconclude => cases hconclude

theorem isOwn_of_cut? {pipeline : Pipeline} {chosen : Deadline → Bool} (hown : task.IsOwn)
    (hcut : (operation pipeline).cut? chosen task = some later) : later.IsOwn := by
  intro submission hsubmission
  obtain ⟨earlier, hearlier, hinner⟩ := submission?_of_cut? hcut hsubmission
  obtain ⟨state, -, rfl⟩ := Option.map_eq_some_iff.mp hcut
  rw [Submission.transaction_of_cut? hinner]
  exact hown earlier hearlier

/-- Workers that are hired are dealt transactions of the command. -/
theorem all_of_hire {format : WireFormat} {transactions : List Transaction} {state : TaskState}
    {property : Transaction → Prop} (hhire : hire place format transactions = (after, state))
    (hall : ∀ worker ∈ place.staff, worker.All property)
    (htransactions : ∀ transaction ∈ transactions, property transaction) :
    ∀ worker ∈ after.staff, worker.All property := by
  obtain ⟨-, -, -, hstaff⟩ | ⟨-, -, rfl⟩ := hire_cases hhire
  · intro worker hworker
    rw [hstaff] at hworker
    rcases List.mem_append.mp hworker with hold | hnew
    · exact hall worker hold
    · obtain ⟨queue, hqueue, rfl⟩ := List.mem_map.mp hnew
      refine Worker.all_new ?_
      intro subBatch hsub transaction hmem
      have hworkers : 0 < max place.pipeline.settings.batch.workers 1 := by omega
      have hdealt := perm_deal_subBatches hworkers
        place.pipeline.settings.batch.subBatchSize transactions
      refine htransactions transaction (hdealt.mem_iff.mp ?_)
      exact List.mem_flatten.mpr ⟨queue.flatten, List.mem_map_of_mem hqueue,
        List.mem_flatten.mpr ⟨subBatch, hsub, hmem⟩⟩
  · exact hall

theorem all_of_step? {property : Transaction → Prop}
    (hall : ∀ worker ∈ place.staff, worker.All property)
    (htransactions : ∀ transaction ∈ task.command.transactions, property transaction)
    (hstep : task.step? now place = some (after, later)) :
    ∀ worker ∈ after.staff, worker.All property := by
  obtain ⟨-, hact⟩ := act_of_step? hstep
  obtain ⟨command, state⟩ := task
  obtain ⟨command', state'⟩ := later
  dsimp only at hact htransactions
  have hsame (hstaff : after.staff = place.staff) : ∀ worker ∈ after.staff, worker.All property :=
    hstaff ▸ hall
  cases hact with
  | begin hbegin =>
      cases command with
      | batch transactions format => exact all_of_hire hbegin hall htransactions
      | consume records format =>
          rw [begin_consume] at hbegin
          exact all_of_hire hbegin hall htransactions
      | _ => cases hbegin; exact hall
  | submission => exact hsame (Workplace.alike_afterStep ..).staff
  | conclude hconclude =>
      unfold Task.conclude at hconclude
      split at hconclude <;> cases hconclude <;> exact hall
  | _ => exact hall

end Task

/-! ## Crowds -/

namespace Crowd

/-- A transaction was handed in with a command. -/
def Submitted (crowd : Crowd) (transaction : Transaction) : Prop :=
  ∃ task ∈ crowd.tasks, transaction ∈ task.command.transactions

/-- Tasks are about their own transactions, and workers about transactions that were handed in. -/
structure IsOwn (crowd : Crowd) : Prop where
  tasks : ∀ task ∈ crowd.tasks, task.IsOwn
  staff : ∀ worker ∈ crowd.place.staff, worker.All crowd.Submitted

variable {crowd next : Crowd} {mover : Party} {transaction : Transaction}

theorem IsOwn.submitted (hown : crowd.IsOwn) {party : Party} {submission : Submission}
    (hsubmission : crowd.submission? party = some submission) :
    crowd.Submitted submission.transaction := by
  cases party with
  | task position =>
      obtain ⟨task, htask, hsubmission⟩ := Option.bind_eq_some_iff.mp hsubmission
      have hmem := List.mem_of_getElem? htask
      exact ⟨task, hmem, hown.tasks task hmem submission hsubmission⟩
  | job position number =>
      obtain ⟨worker, hworker, hjob⟩ := Option.bind_eq_some_iff.mp hsubmission
      exact (hown.staff worker (List.mem_of_getElem? hworker)).of_submission? hjob
  | _ => cases hsubmission

/-- What was handed in stays handed in. -/
theorem Move.submitted (hmove : Move mover crowd next) (hsubmitted : crowd.Submitted transaction) :
    next.Submitted transaction := by
  obtain ⟨task, htask, hmem⟩ := hsubmitted
  have hset {position : Nat} {before later : Task}
      (hbefore : crowd.tasks[position]? = some before) (hcommand : later.command = before.command)
      (htasks : next.tasks = crowd.tasks.set position later) : next.Submitted transaction := by
    obtain ⟨index, hindex⟩ := List.mem_iff_getElem?.mp htask
    by_cases hposition : position = index
    · subst hposition
      rw [hbefore] at hindex
      cases hindex
      refine ⟨later, ?_, hcommand ▸ hmem⟩
      rw [htasks]
      exact List.mem_set (List.getElem?_eq_some_iff.mp hbefore).1 later
    · refine ⟨task, ?_, hmem⟩
      rw [htasks]
      exact List.mem_of_getElem? (by rw [List.getElem?_set_ne hposition]; exact hindex)
  cases hmove.tasksBecame with
  | arrived hmover htasks =>
      exact ⟨task, htasks ▸ List.mem_append_left _ htask, hmem⟩
  | step hmover hbefore hstep htasks => exact hset hbefore (Task.act_of_step? hstep).1 htasks
  | cut hmover hbefore hwait hcut htasks =>
      refine hset hbefore ?_ htasks
      obtain ⟨state, -, rfl⟩ := Option.map_eq_some_iff.mp hcut
      rfl
  | same hmover htasks => exact ⟨task, htasks ▸ htask, hmem⟩

private theorem Move.isOwn_tasks (hown : crowd.IsOwn) (hmove : Move mover crowd next) :
    ∀ task ∈ next.tasks, task.IsOwn := by
  intro task htask
  obtain ⟨position, hposition⟩ := List.mem_iff_getElem?.mp htask
  cases hmove.taskBecame hposition with
  | new hnew =>
      intro submission hsubmission
      rw [hnew] at hsubmission
      cases hsubmission
  | same hsame => exact hown.tasks task (List.mem_of_getElem? hsame)
  | step hmover hbefore hstep =>
      exact Task.isOwn_of_step? (hown.tasks _ (List.mem_of_getElem? hbefore)) hstep
  | cut hmover hbefore hwait hcut =>
      exact Task.isOwn_of_cut? (hown.tasks _ (List.mem_of_getElem? hbefore)) hcut

/-- A worker who has moved is about the same transactions. -/
private theorem WorkerMoved.all {property : Transaction → Prop} {position : Nat}
    {worker later : Worker} (hall : worker.All property)
    (hmoved : WorkerMoved crowd next mover position worker later) : later.All property := by
  have hsubmit (format : WireFormat) (transaction : Transaction) :
      (Submission.ofBatch crowd.place.pipeline format transaction).transaction = transaction := rfl
  cases hmoved with
  | begun hmover hjobs hbegin hlater =>
      rw [hlater]
      exact (hall.begin? (hsubmit _) hbegin).bare
  | closed hmover hjobs hbegin hlater =>
      rw [hlater]
      exact ⟨hall.queue, hall.pending, hall.jobs⟩
  | stepped hmover hjob hstep hlater =>
      rw [hlater]
      exact hall.putJob (Submission.transaction_of_step? hstep ▸ hall.of_submission? hjob)
  | cut hmover hjob hwait hcut hlater =>
      rw [hlater]
      exact hall.putJob (Submission.transaction_of_cut? hcut ▸ hall.of_submission? hjob)
  | looked hmover hjob hlater =>
      rw [hlater]
      exact hall.putJob (hall.of_submission? hjob)
  | finished hmover hjob hending hlater =>
      rw [hlater]
      exact (hall.finish (hsubmit _) _).bare
  | lost hmover hjob hending hlater =>
      rw [hlater]
      exact ⟨List.forall_mem_nil _, List.forall_mem_nil _, List.forall_mem_nil _⟩

private theorem Move.isOwn_staff (hown : crowd.IsOwn) (hmove : Move mover crowd next) :
    ∀ worker ∈ next.place.staff, worker.All next.Submitted := by
  have hold : ∀ worker ∈ crowd.place.staff, worker.All next.Submitted :=
    fun worker hworker => (hown.staff worker hworker).mono fun _ => hmove.submitted
  by_cases htask : ∃ position, mover = .task position
  · obtain ⟨position, rfl⟩ := htask
    have hsubmitted : ∀ transaction, crowd.Submitted transaction → next.Submitted transaction :=
      fun _ => hmove.submitted
    generalize next.Submitted = property at hold hsubmitted
    cases hmove with
    | stepTask hbefore hstep =>
        refine Task.all_of_step? hold ?_ hstep
        exact fun transaction hmem =>
          hsubmitted transaction ⟨_, List.mem_of_getElem? hbefore, hmem⟩
    | cutTask => exact hold
  · cases hmove.staffBecame with
    | task hmover => exact absurd ⟨_, hmover⟩ htask
    | moved hworker hmoved hstaff =>
        intro worker hmem
        rw [hstaff] at hmem
        rcases List.mem_or_eq_of_mem_set hmem with hsame | rfl
        · exact hold worker hsame
        · exact hmoved.all (hold _ (List.mem_of_getElem? hworker))
    | same hstaff =>
        rw [hstaff]
        exact hold

theorem Move.isOwn (hown : crowd.IsOwn) (hmove : Move mover crowd next) : next.IsOwn :=
  ⟨hmove.isOwn_tasks hown, hmove.isOwn_staff hown⟩

namespace Run

variable {run : Run}

theorem isOwn (hbegins : run.Begins) (index : Nat) : (run.moment index).IsOwn := by
  induction index with
  | zero =>
      obtain ⟨settings, ledger, clock, pipeline, now, -, hstart⟩ := hbegins
      rw [hstart]
      exact ⟨List.forall_mem_nil _, List.forall_mem_nil _⟩
  | succ index ih => exact (run.move index).isOwn ih

/-- **Every submission is about a transaction that was handed in.** -/
theorem submitted (hbegins : run.Begins) {index : Nat} {party : Party} {submission : Submission}
    (hsubmission : (run.moment index).submission? party = some submission) :
    (run.moment index).Submitted submission.transaction :=
  (isOwn hbegins index).submitted hsubmission

end Run

end Crowd

end Clearing
