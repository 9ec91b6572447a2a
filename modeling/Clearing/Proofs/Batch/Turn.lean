import Clearing.Proofs.Bookkeeping
import Clearing.Proofs.Processing.Smooth

/-!
# The turn of a worker at a smooth pipeline

At a smooth pipeline a worker is done with a transaction as soon as it looks at
it.  So it takes its transactions one after the other, in the order in which they
were dealt, and saves exactly those that satisfy the rules.  A turn ends when the
worker has finished or when its allowance is used up by the sub-batches that it
took up, and then nothing is in flight (`Workplace.turn_spec`).

## Strategy

Between two looks the jobs of the worker are the transactions in hand, none of
which was looked at, with consecutive numbers (`Worker.InHand`).  The fuel is
enough since every round of the loop either takes up a sub-batch or is done with
a transaction.
-/

namespace Clearing

/-! ## Looks -/

namespace Workplace

/-- No job waits for anything, at whatever pipeline. -/
def Quiet (place : Workplace) : Prop :=
  ∀ worker ∈ place.workers.toList, ∀ job ∈ worker.jobs, ∀ pipeline,
    (Submission.operation pipeline).wait? job.watched.state = none

variable {place : Workplace} {now : Nat}

/-- Where no job waits all news are for the foreground. -/
theorem tell_of_quiet (hquiet : place.Quiet) (news : List News) :
    place.tell news = { place with news := place.news ++ news } := by
  unfold tell
  induction news generalizing place with
  | nil => simp
  | cons item news ih =>
      have hnobody : place.addressee? item = none := by
        unfold addressee?
        rw [List.findSome?_eq_none_iff]
        rintro ⟨worker, position⟩ hworker
        have hmem : worker ∈ place.workers.toList :=
          (List.mem_zipIdx' hworker).2 ▸ List.getElem_mem _
        rw [Option.map_eq_none_iff, List.find?_eq_none]
        intro job hjob
        rw [hquiet worker hmem job hjob]
        simp
      have hlater : ({ place with news := place.news ++ [item] } : Workplace).Quiet := hquiet
      rw [List.foldl_cons, hnobody]
      dsimp only
      rw [ih hlater]
      simp

/-- A submission goes through at a workplace as it does at its pipeline. -/
theorem leads_submission (hquiet : place.Quiet) {before after : Pipeline × Submission}
    (hleads : (Submission.operation place.pipeline).Leads now before after)
    (hbefore : before.1 = place.pipeline) :
    ∃ news, place.submission.Leads now (place, before.2)
      ({ place with pipeline := after.1, news }, after.2) := by
  induction hleads with
  | refl => exact ⟨place.news, by rw [hbefore]⟩
  | @tail middle last _ hlast ih =>
      obtain ⟨news, hleads⟩ := ih
      obtain ⟨pipeline, submission⟩ := middle
      obtain ⟨later, next⟩ := last
      have hstep : submission.step? now pipeline = some (later, next) := hlast.step
      refine ⟨news ++ Guard.news submission.protection.path pipeline.guards later.guards,
        hleads.tail ⟨hlast.wait, ?_, hlast.less⟩⟩
      have htold : ({ place with pipeline := later, news } : Workplace).Quiet := hquiet
      simp only [Workplace.submission, hstep, Option.map_some, afterStep]
      rw [tell_of_quiet htold]

/-- **One look is enough** to be done with a transaction of a batch. -/
theorem look_ofBatch {reference : Ledger} (hsmooth : place.pipeline.Smooth reference)
    (hquiet : place.Quiet) (now number allowance : Nat) (format : WireFormat)
    (transaction : Transaction) :
    ∃ after final result news moved,
      place.submission.look now number allowance place
          (.new (.ofBatch place.pipeline format transaction)) =
        { shared := { place with pipeline := after, news }
          watched := .new final
          allowance
          moved
          putOff := false } ∧
        final.ending? = some (.returned result) ∧
          reference.Settles (place.pipeline.clock now) transaction result ∧
            after.Smooth reference ∧ place.pipeline.Kindred after := by
  obtain ⟨after, final, result, hleads, hending, hstuck, hwait, hsettles, hafter, hkindred⟩ :=
    Submission.leads_ofBatch hsmooth now format transaction
  obtain ⟨news, hleads⟩ := leads_submission hquiet hleads rfl
  have hstep : place.submission.step? now { place with pipeline := after, news } final = none := by
    simp only [Workplace.submission, hstuck, Option.map_none]
  obtain ⟨moved, hlook⟩ := Operation.look_of_leads hleads hwait hstep number allowance
  exact ⟨after, final, result, news, moved, hlook, hending, hsettles, hafter, hkindred⟩

/-- A change of one worker is one of the list of workers. -/
theorem toList_changeWorker {position : Nat} {worker : Worker}
    (hworker : place.workers[position]? = some worker) (change : Worker → Worker) :
    (place.changeWorker position change).workers.toList =
      place.workers.toList.set position (change worker) := by
  apply List.ext_getElem?
  intro other
  rw [Array.getElem?_toList, changeWorker, Array.getElem?_modify, List.getElem?_set,
    Array.getElem?_toList]
  by_cases hsame : position = other
  · subst hsame
    have hsize : position < place.workers.toList.length := by
      rw [Array.length_toList]
      exact (Array.getElem?_eq_some_iff.mp hworker).1
    simp only [hworker, if_pos hsize, if_true, Option.map_some]
  · simp only [if_neg hsame]

/-- A change that leaves the jobs alone makes nobody wait. -/
theorem Quiet.changeWorker {position : Nat} {worker : Worker} (hquiet : place.Quiet)
    (hworker : place.workers[position]? = some worker) (change : Worker → Worker)
    (hjobs : (change worker).jobs = worker.jobs) : (place.changeWorker position change).Quiet := by
  intro other hother
  rw [toList_changeWorker hworker] at hother
  rcases List.mem_or_eq_of_mem_set hother with hsame | rfl
  · exact hquiet other hsame
  · rw [hjobs]
    exact hquiet worker (Array.mem_toList_iff.mpr (Array.mem_of_getElem? hworker))

end Workplace

/-! ## What a worker has in hand -/

/-- The jobs of the worker are these transactions, which nobody has looked at, and they are to be
looked at in order. -/
structure Worker.InHand (submit : Transaction → Submission) (first : Nat)
    (inHand : List Transaction) (worker : Worker) : Prop where
  jobs : worker.jobs = (inHand.zipIdx first).map fun (transaction, number) =>
    { number, watched := .new (submit transaction) }
  next : worker.nextNumber = first + inHand.length
  ready : worker.ready = List.range' first inHand.length

namespace Worker

variable {submit : Transaction → Submission} {first : Nat} {inHand : List Transaction}
  {transaction : Transaction} {worker : Worker}

theorem InHand.length (hinHand : worker.InHand submit first inHand) :
    worker.jobs.length = inHand.length := by
  rw [hinHand.jobs, List.length_map, List.length_zipIdx]

theorem InHand.fill (hinHand : worker.InHand submit first inHand) :
    (worker.fill submit).InHand submit first
      (inHand ++ worker.pending.take (worker.limit - inHand.length)) := by
  have hlength := hinHand.length
  obtain ⟨hjobs, hnext, hready⟩ := hinHand
  unfold Worker.fill
  rw [hlength]
  refine ⟨?_, ?_, ?_⟩
  · simp only [hjobs, hnext, List.zipIdx_append, List.map_append]
  · simp only [hnext, List.length_zipIdx, List.length_append]
    omega
  · simp only [hready, hnext, List.zipIdx_map_snd, List.length_append]
    rw [List.range'_append_1]

theorem InHand.job? (hinHand : worker.InHand submit first (transaction :: inHand)) :
    worker.job? first = some { number := first, watched := .new (submit transaction) } := by
  rw [Worker.job?, hinHand.jobs]
  simp

/-- Nothing is lost when the worker takes up some of what is pending. -/
theorem InHand.append_pending_fill (hinHand : worker.InHand submit first inHand) :
    inHand ++ worker.pending.take (worker.limit - inHand.length) ++ (worker.fill submit).pending =
      inHand ++ worker.pending := by
  show _ ++ worker.pending.drop (worker.limit - worker.jobs.length) = _
  rw [hinHand.length, List.append_assoc, List.take_append_drop]

/-- If nothing is in hand after that then nothing is pending. -/
theorem InHand.pending_fill_of_nil (hinHand : worker.InHand submit first inHand)
    (hlimit : 0 < worker.limit)
    (hnothing : inHand ++ worker.pending.take (worker.limit - inHand.length) = []) :
    (worker.fill submit).pending = [] := by
  have hkept := hinHand.append_pending_fill
  obtain ⟨rfl, htaken⟩ := List.append_eq_nil_iff.mp hnothing
  rw [htaken, List.nil_append, List.nil_append] at hkept
  rcases List.take_eq_nil_iff.mp htaken with hzero | hempty
  · rw [List.length_nil] at hzero
    omega
  · rw [hkept, hempty, List.nil_append]

/-- The worker that is done with the first of its transactions; the others are still in hand. -/
def handled (worker : Worker) (first : Nat) (inHand : List Transaction)
    (result : Except Failure Transaction) : Worker :=
  { worker with
    jobs := worker.jobs.filter fun job => job.number ≠ first
    processed := worker.processed ++ result.toOption.toList
    ready := List.range' (first + 1) inHand.length }

theorem InHand.handled (hinHand : worker.InHand submit first (transaction :: inHand))
    (result : Except Failure Transaction) :
    (worker.handled first inHand result).InHand submit (first + 1) inHand := by
  refine ⟨?_, ?_, rfl⟩
  · rw [Worker.handled, hinHand.jobs, List.zipIdx_cons, List.map_cons,
      List.filter_cons_of_neg (by simp), List.filter_eq_self]
    intro job hjob
    obtain ⟨⟨other, number⟩, hother, rfl⟩ := List.mem_map.mp hjob
    have hlater := (List.mem_zipIdx hother).1
    simp only [ne_eq, decide_not, Bool.not_eq_eq_eq_not, Bool.not_true, decide_eq_false_iff_not]
    omega
  · rw [Worker.handled, hinHand.next, List.length_cons]
    omega

/-- The worker that is to start a sub-batch. -/
def given (worker : Worker) (subBatch : List Transaction) (queue : List (List Transaction)) :
    Worker :=
  { worker with queue, pending := subBatch }

theorem InHand.given (hinHand : worker.InHand submit first []) (subBatch : List Transaction)
    (queue : List (List Transaction)) : (worker.given subBatch queue).InHand submit first [] :=
  ⟨hinHand.jobs, hinHand.next, hinHand.ready⟩

end Worker

/-- Of a transaction that was settled the row is saved, if it satisfies the rules. -/
theorem Ledger.Settles.rows {reference : Ledger} {time : Timestamp} {transaction : Transaction}
    {result : Except Failure Transaction} (hsettles : reference.Settles time transaction result) :
    List.Forall₂ (fun transaction row => transaction.SavedAs time row)
      ([transaction].filter (reference.accepts time)) result.toOption.toList := by
  cases hsettles with
  | saved haccepts hsaved =>
      rw [List.filter_cons_of_pos haccepts]
      exact .cons hsaved .nil
  | refused hrefuses =>
      rw [List.filter_cons_of_neg (by rw [hrefuses]; exact Bool.false_ne_true)]
      exact .nil

/-! ## Turns -/

/-- The worker has handled some of what it had to do, in order, has saved what satisfies the rules
and has nothing in hand. -/
structure Worker.Advances (reference : Ledger) (time : Timestamp) (todo : List Transaction)
    (worker later : Worker) : Prop where
  format : later.format = worker.format
  limit : later.limit = worker.limit
  jobs : later.jobs = []
  pending : later.pending = []
  ready : later.ready = []
  handled : ∃ handled rows, todo = handled ++ later.queue.flatten ∧
    later.processed = worker.processed ++ rows ∧
      List.Forall₂ (fun transaction row => transaction.SavedAs time row)
        (handled.filter (reference.accepts time)) rows

/-- Nobody is called up or put off, and of the workers only the one at a position has changed. -/
structure Workplace.Changed (position : Nat) (part : Worker) (place middle : Workplace) : Prop where
  kindred : place.pipeline.Kindred middle.pipeline
  workers : middle.workers.toList = place.workers.toList.set position part
  turns : middle.turns = place.turns
  current : middle.current = place.current
  putOff : middle.putOff = place.putOff

/-- How the work of a worker at a position ends: it has finished, or it has used up its allowance
by taking up sub-batches and was put off. -/
structure Workplace.Works (reference : Ledger) (time : Timestamp) (position allowance : Nat)
    (todo : List Transaction) (worker : Worker) (place after : Workplace) (later : Worker) :
    Prop where
  smooth : after.pipeline.Smooth reference
  kindred : place.pipeline.Kindred after.pipeline
  workers : after.workers.toList = place.workers.toList.set position later
  turns : after.turns = place.turns
  current : after.current = place.current
  advances : worker.Advances reference time todo later
  ends : later.fate = .finished ∧ later.queue = [] ∧ after.putOff = place.putOff ∨
    later.fate = worker.fate ∧ later.queue.length + allowance ≤ worker.queue.length ∧
      after.putOff = .worker position :: place.putOff

namespace Workplace

variable {place : Workplace} {reference : Ledger} {time : Timestamp} {position now : Nat}
  {worker : Worker}

/-- Work goes on after a part of it. -/
private theorem Works.of_part {allowance left : Nat} {todo rest handled rows : List Transaction}
    {middle after : Workplace} {part later : Worker}
    (hworks : Works reference time position left rest part middle after later)
    (hpart : Changed position part place middle) (hformat : part.format = worker.format)
    (hlimit : part.limit = worker.limit) (hfate : part.fate = worker.fate)
    (hqueue : part.queue.length + allowance ≤ worker.queue.length + left)
    (hprocessed : part.processed = worker.processed ++ rows)
    (hrows : List.Forall₂ (fun transaction row => transaction.SavedAs time row)
      (handled.filter (reference.accepts time)) rows)
    (htodo : todo = handled ++ rest) :
    Works reference time position allowance todo worker place after later where
  smooth := hworks.smooth
  kindred := hpart.kindred.trans hworks.kindred
  workers := by rw [hworks.workers, hpart.workers, List.set_set]
  turns := hworks.turns.trans hpart.turns
  current := hworks.current.trans hpart.current
  advances := by
    obtain ⟨handled', rows', htodo', hprocessed', hrows'⟩ := hworks.advances.handled
    refine { hworks.advances with
      format := hworks.advances.format.trans hformat
      limit := hworks.advances.limit.trans hlimit
      handled := ⟨handled ++ handled', rows ++ rows', ?_, ?_, ?_⟩ }
    · rw [htodo, htodo', List.append_assoc]
    · rw [hprocessed', hprocessed, List.append_assoc]
    · rw [List.filter_append]
      exact List.rel_append hrows hrows'
  ends := by
    rcases hworks.ends with ⟨hfinished, hempty, hsame⟩ | ⟨hgoing, hleft, hadded⟩
    · exact .inl ⟨hfinished, hempty, hsame.trans hpart.putOff⟩
    · exact .inr ⟨hgoing.trans hfate, by omega, hpart.putOff ▸ hadded⟩

/-- Without an allowance a worker is put off. -/
private theorem works_putOff (hsmooth : place.pipeline.Smooth reference)
    (hworker : place.workers[position]? = some worker) {first : Nat}
    {submit : Transaction → Submission} (hinHand : worker.InHand submit first [])
    (hpending : worker.pending = []) :
    Works reference time position 0 worker.queue.flatten worker place
      { place with putOff := .worker position :: place.putOff } worker where
  smooth := hsmooth
  kindred := .refl _
  workers := by
    obtain ⟨hposition, hsame⟩ := Array.getElem?_eq_some_iff.mp hworker
    rw [← hsame, ← Array.getElem_toList hposition, List.set_getElem_self]
  turns := rfl
  current := rfl
  advances := ⟨rfl, rfl, hinHand.jobs, hpending, hinHand.ready,
    [], [], rfl, (List.append_nil _).symm, .nil⟩
  ends := .inr ⟨rfl, Nat.le_refl _, rfl⟩

/-- A worker that has nothing left has finished. -/
private theorem works_close (hsmooth : place.pipeline.Smooth reference)
    (hworker : place.workers[position]? = some worker) {first : Nat}
    {submit : Transaction → Submission} (hinHand : worker.InHand submit first [])
    (hpending : worker.pending = []) (hqueue : worker.queue = []) (allowance : Nat) :
    Works reference time position allowance [] worker place (place.closeWorker position)
      worker.close where
  smooth := hsmooth
  kindred := .refl _
  workers := toList_changeWorker hworker Worker.close
  turns := rfl
  current := rfl
  advances := ⟨rfl, rfl, hinHand.jobs, hpending, hinHand.ready,
    [], [], by simp [Worker.close, hqueue], (List.append_nil _).symm, .nil⟩
  ends := .inl ⟨rfl, hqueue, rfl⟩

/-- A worker is at work at a position of a smooth pipeline, where all others have nothing in
hand. -/
structure AtWork (reference : Ledger) (position first : Nat) (inHand : List Transaction)
    (place : Workplace) (worker : Worker) : Prop where
  smooth : place.pipeline.Smooth reference
  present : place.workers[position]? = some worker
  jobs : worker.InHand (.ofBatch place.pipeline worker.format) first inHand
  limit : 0 < worker.limit
  pending : inHand = [] → worker.pending = []
  others : ∀ other idle, other ≠ position → place.workers[other]? = some idle → idle.jobs = []

namespace AtWork

variable {first : Nat} {inHand : List Transaction} {transaction : Transaction}

/-- No job waits while nobody has looked at any. -/
private theorem quiet (hwork : AtWork reference position first inHand place worker) :
    place.Quiet := by
  intro other hother job hjob pipeline
  obtain ⟨index, hindex⟩ := List.getElem?_of_mem hother
  rw [Array.getElem?_toList] at hindex
  by_cases hsame : index = position
  · subst hsame
    rw [hwork.present] at hindex
    cases hindex
    rw [hwork.jobs.jobs] at hjob
    obtain ⟨⟨transaction, number⟩, -, rfl⟩ := List.mem_map.mp hjob
    rfl
  · rw [hwork.others index other hsame hindex] at hjob
    cases hjob

/-- The worker takes up as much of what is pending as may be in flight. -/
private theorem fill {middle : Workplace} {part : Worker}
    (hwork : AtWork reference position first inHand place worker)
    (hsmooth : middle.pipeline.Smooth reference)
    (hchanged : Changed position (part.fill (.ofBatch place.pipeline worker.format)) place middle)
    (hformat : part.format = worker.format) (hlimit : part.limit = worker.limit)
    {next : Nat} {left : List Transaction}
    (hleft : part.InHand (.ofBatch place.pipeline worker.format) next left) :
    AtWork reference position next (left ++ part.pending.take (part.limit - left.length)) middle
      (part.fill (.ofBatch place.pipeline worker.format)) where
  smooth := hsmooth
  present := by
    rw [← Array.getElem?_toList, hchanged.workers, List.getElem?_set_self]
    rw [Array.length_toList]
    exact (Array.getElem?_eq_some_iff.mp hwork.present).1
  jobs := by
    have hsubmit : Submission.ofBatch middle.pipeline = Submission.ofBatch place.pipeline :=
      hchanged.kindred.ofBatch
    show Worker.InHand (.ofBatch middle.pipeline part.format) _ _ _
    rw [hsubmit, hformat]
    exact hleft.fill
  limit := by
    show 0 < part.limit
    rw [hlimit]
    exact hwork.limit
  pending hnothing := hleft.pending_fill_of_nil (hlimit ▸ hwork.limit) hnothing
  others other idle hother hidle := by
    rw [← Array.getElem?_toList, hchanged.workers, List.getElem?_set_ne (Ne.symm hother),
      Array.getElem?_toList] at hidle
    exact hwork.others other idle hother hidle

/-- The worker takes up a sub-batch. -/
private theorem takeUp (hwork : AtWork reference position first [] place worker)
    {subBatch : List Transaction} {queue : List (List Transaction)}
    (hqueue : worker.queue = subBatch :: queue) (fuel allowance round looked : Nat) {part : Worker}
    (hpart : part = (worker.given subBatch queue).fill (.ofBatch place.pipeline worker.format)) :
    ∃ middle, Changed position part place middle ∧
      AtWork reference position first (subBatch.take worker.limit) middle part ∧
        ∃ round', work now position (fuel + 1) (allowance + 1) round looked place =
          work now position fuel allowance round' 0 middle := by
  have hempty : worker.jobs = [] := hwork.jobs.jobs
  have hchanged : Changed position part place (place.changeWorker position fun _ => part) :=
    ⟨.refl _, toList_changeWorker hwork.present _, rfl, rfl, rfl⟩
  have hbegin : worker.begin? (.ofBatch place.pipeline worker.format) = some part := by
    simp only [Worker.begin?, hempty, hwork.pending rfl, hqueue, hpart, Worker.given]
  refine ⟨_, hchanged, ?_, part.jobs.length, ?_⟩
  · have hsmooth : (place.changeWorker position fun _ => part).pipeline.Smooth reference :=
      hwork.smooth
    rw [hpart] at hsmooth hchanged ⊢
    exact hwork.fill hsmooth hchanged rfl rfl (hwork.jobs.given subBatch queue)
  · conv_lhs => unfold work
    simp only [hwork.present, hempty, List.isEmpty_nil, if_true, Nat.succ_ne_zero, if_false,
      hbegin, Nat.add_sub_cancel]

/-- The worker is done with the first transaction in hand. -/
private theorem done (hwork : AtWork reference position first (transaction :: inHand) place worker)
    (now fuel allowance round looked : Nat) :
    ∃ result part middle, reference.Settles (place.pipeline.clock now) transaction result ∧
      part = (worker.handled first inHand result).fill (.ofBatch place.pipeline worker.format) ∧
        Changed position part place middle ∧
          AtWork reference position (first + 1)
              (inHand ++ worker.pending.take (worker.limit - inHand.length)) middle part ∧
            ∃ round', work now position (fuel + 1) allowance round looked place =
              work now position fuel allowance round' 0 middle := by
  have hjobs : worker.jobs.isEmpty = false := by
    rw [hwork.jobs.jobs]
    rfl
  have hready : worker.ready = first :: List.range' (first + 1) inHand.length := by
    rw [hwork.jobs.ready, List.length_cons, List.range'_succ]
  -- The worker turns to the transaction, looks at it once, and is done with it.
  obtain ⟨readied, hreadied⟩ : ∃ readied, readied = place.changeWorker position
    ({ · with ready := List.range' (first + 1) inHand.length }) := ⟨_, rfl⟩
  have hpipeline : readied.pipeline = place.pipeline := by
    rw [hreadied]
    rfl
  have hquiet : readied.Quiet := hreadied ▸ hwork.quiet.changeWorker hwork.present _ rfl
  obtain ⟨after, final, result, news, moved, hlook, hending, hsettles, hafter, hkindred⟩ :=
    look_ofBatch (hpipeline ▸ hwork.smooth) hquiet now readied.looks allowance worker.format
      transaction
  have hjob : worker.job? first =
      some ⟨first, .new (.ofBatch readied.pipeline worker.format transaction)⟩ := by
    rw [hpipeline]
    exact hwork.jobs.job?
  have hchanged : Changed position
      ((worker.handled first inHand result).fill (.ofBatch place.pipeline worker.format)) place
      (({ readied with pipeline := after, news, looks := readied.looks + 1 } :
        Workplace).changeWorker position
          (·.finish (.ofBatch place.pipeline worker.format) first result)) := by
    have hworkers := toList_changeWorker hwork.present
      ({ · with ready := List.range' (first + 1) inHand.length })
    have hposition := getElem?_changeWorker hwork.present
      ({ · with ready := List.range' (first + 1) inHand.length })
    rw [← hreadied] at hworkers hposition
    refine ⟨hpipeline ▸ hkindred, ?_, by rw [hreadied]; rfl, by rw [hreadied]; rfl,
      by rw [hreadied]; rfl⟩
    refine (toList_changeWorker hposition _).trans ?_
    rw [hworkers, List.set_set]
    rfl
  refine ⟨result, _, _, hpipeline ▸ hsettles, rfl, hchanged, ?_, ?_⟩
  · exact hwork.fill hafter hchanged rfl rfl (hwork.jobs.handled result)
  · constructor
    conv_lhs => unfold work
    simp only [hwork.present, hjobs, Bool.false_eq_true, if_false, hready, hjob]
    rw [← hreadied, hlook]
    simp only [Watched.new, hending]
    rfl

end AtWork

/-- The work of a worker to its end; every round takes up a sub-batch or is done with a
transaction. -/
private theorem work_spec (now fuel : Nat) {first : Nat} {inHand : List Transaction}
    (hwork : AtWork reference position first inHand place worker)
    (htime : place.pipeline.clock now = time) (allowance round looked : Nat)
    (hfuel : worker.queue.length +
      (inHand ++ worker.pending ++ worker.queue.flatten).length < fuel) :
    ∃ later, Works reference time position allowance
      (inHand ++ worker.pending ++ worker.queue.flatten) worker place
      (work now position fuel allowance round looked place) later := by
  induction fuel generalizing place worker first inHand allowance round looked with
  | zero => exact absurd hfuel (Nat.not_lt_zero _)
  | succ fuel ih =>
      cases inHand with
      | nil =>
          have hempty : worker.jobs = [] := hwork.jobs.jobs
          have hpending := hwork.pending rfl
          rw [hpending] at hfuel ⊢
          cases allowance with
          | zero =>
              refine ⟨worker, ?_⟩
              unfold work
              simp only [hwork.present, hempty, List.isEmpty_nil, if_true]
              exact works_putOff hwork.smooth hwork.present hwork.jobs hpending
          | succ allowance =>
              cases hqueue : worker.queue with
              | nil =>
                  refine ⟨worker.close, ?_⟩
                  unfold work
                  simp only [hwork.present, hempty, List.isEmpty_nil, if_true, Nat.succ_ne_zero,
                    if_false, Worker.begin?, hpending, hqueue]
                  exact works_close hwork.smooth hwork.present hwork.jobs hpending hqueue _
              | cons subBatch queue =>
                  obtain ⟨middle, hchanged, hnext, round', hround⟩ :=
                    hwork.takeUp hqueue fuel allowance round looked rfl
                  have hgiven : subBatch.take worker.limit ++ _ = subBatch :=
                    (hwork.jobs.given subBatch queue).append_pending_fill
                  have hlater := ih hnext ((congrFun hchanged.kindred.clock now).trans htime)
                    allowance round' 0
                  rw [hgiven] at hlater
                  rw [hqueue, List.length_cons, List.flatten_cons, List.nil_append] at hfuel
                  obtain ⟨later, hworks⟩ := hlater (Nat.lt_of_lt_of_le
                    (Nat.add_lt_add_right (Nat.lt_succ_self _) _) (Nat.lt_succ_iff.mp hfuel))
                  rw [hround]
                  refine ⟨later, hworks.of_part hchanged rfl rfl rfl ?_
                    (List.append_nil _).symm .nil rfl⟩
                  rw [hqueue, List.length_cons]
                  show queue.length + (allowance + 1) ≤ queue.length + 1 + allowance
                  omega
      | cons transaction inHand =>
          obtain ⟨result, part, middle, hsettles, hpart, hchanged, hnext, round', hround⟩ :=
            hwork.done now fuel allowance round looked
          have hhandled : inHand ++ worker.pending.take (worker.limit - inHand.length) ++ _ =
              inHand ++ worker.pending := (hwork.jobs.handled result).append_pending_fill
          have hlater := ih hnext ((congrFun hchanged.kindred.clock now).trans htime)
            allowance round' 0
          subst hpart
          rw [hhandled] at hlater
          obtain ⟨later, hworks⟩ := hlater (Nat.lt_of_succ_lt_succ hfuel)
          rw [hround]
          exact ⟨later, hworks.of_part hchanged rfl rfl rfl le_rfl rfl (htime ▸ hsettles).rows rfl⟩

/-- **A turn at a smooth pipeline.** The worker handles what it has in order, until it has finished
or was put off. -/
theorem turn_spec (hsmooth : place.pipeline.Smooth reference)
    (hpresent : place.workers[position]? = some worker)
    (hidle : ∀ idle ∈ place.workers.toList, idle.jobs = [] ∧ idle.pending = [] ∧ idle.ready = [])
    (hlimit : 0 < worker.limit) (hcurrent : place.current = none) (now : Nat) :
    ∃ later, Works reference (place.pipeline.clock now) position allowance worker.queue.flatten
      worker place (turn now place position) later := by
  obtain ⟨hjobs, hpending, hready⟩ :=
    hidle worker (Array.mem_toList_iff.mpr (Array.mem_of_getElem? hpresent))
  have hwork : AtWork reference position worker.nextNumber []
      { place with current := some (position, false) } worker :=
    { smooth := hsmooth
      present := hpresent
      jobs := ⟨hjobs, rfl, hready⟩
      limit := hlimit
      pending _ := hpending
      others other idle _ hother :=
        (hidle idle (Array.mem_toList_iff.mpr (Array.mem_of_getElem? hother))).1 }
  have hremaining : worker.remaining = worker.queue.flatten.length := by
    rw [Worker.remaining, hpending, hjobs, List.length_flatten]
    rfl
  have hfuel := Nat.le_mul_self (worker.remaining + 2)
  obtain ⟨later, hworks⟩ := work_spec now
    ((worker.remaining + 2) * (worker.remaining + 2) + worker.queue.length) hwork rfl allowance
    worker.jobs.length 0 (by
      rw [hpending, List.append_nil, List.nil_append]
      omega)
  rw [hpending, List.append_nil, List.nil_append] at hworks
  -- Nobody has called the worker up in its own turn.
  have hturn : turn now place position =
      { work now position ((worker.remaining + 2) * (worker.remaining + 2) + worker.queue.length)
          allowance worker.jobs.length 0 { place with current := some (position, false) } with
        current := none } := by
    unfold turn
    simp only [hpresent, hworks.current, Option.some.injEq, Prod.mk.injEq, Bool.false_eq_true,
      and_false, decide_false, Bool.false_and, if_false]
  rw [hturn]
  exact ⟨later, hworks.smooth, hworks.kindred, hworks.workers, hworks.turns, hcurrent.symm,
    hworks.advances, hworks.ends⟩

end Workplace

end Clearing
