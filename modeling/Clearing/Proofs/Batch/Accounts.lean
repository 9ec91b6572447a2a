import Clearing.Proofs.Batch.Tally
import Clearing.Proofs.Crowd.Books

/-!
# The accounts of a batch

While a batch is underway the staff consists of workers who have nothing to do
and of the workers of the batch.  The books of a crowd are in order if each of
the latter has a tally that is sound, and the statistics have grown by the
entries of the tallies (`Crowd.Accounts`).  They stay in order in every move but
those of tasks (`Accounts.moved`), and the tallies only go on (`Tally.Leads`).
-/

namespace Clearing

/-! ## One worker -/

namespace Worker

/-- Who takes up a sub-batch has nothing else to do. -/
theorem begin?_cases {worker begun : Worker} {submit : Transaction → Submission}
    (hbegin : worker.begin? submit = some begun) :
    ∃ subBatch queue, worker.jobs = [] ∧ worker.pending = [] ∧ worker.queue = subBatch :: queue ∧
      begun = fill submit { worker with queue, pending := subBatch } := by
  unfold begin? at hbegin
  split at hbegin
  · rename_i subBatch queue hjobs hpending hqueue
    cases hbegin
    exact ⟨subBatch, queue, hjobs, hpending, hqueue, rfl⟩
  · cases hbegin

/-- A worker who has nothing to do. -/
structure Idle (worker : Worker) : Prop where
  queue : worker.queue = []
  pending : worker.pending = []
  jobs : worker.jobs = []

theorem Idle.inHand {worker : Worker} (hidle : worker.Idle) : worker.inHand = [] := by
  rw [Worker.inHand, hidle.jobs, List.map_nil]

theorem Idle.submission? {worker : Worker} (hidle : worker.Idle) (number : Nat) :
    worker.submission? number = none := by
  rw [submission?_eq, hidle.inHand]
  rfl

/-- Who is diligent and cannot take up anything has nothing to do. -/
theorem Diligent.idle {worker : Worker} {submit : Transaction → Submission}
    (hdiligent : worker.Diligent) (hjobs : worker.jobs = [])
    (hbegin : worker.begin? submit = none) : worker.Idle := by
  have hpending := hdiligent.pending hjobs
  refine ⟨?_, hpending, hjobs⟩
  cases hqueue : worker.queue with
  | nil => rfl
  | cons subBatch queue =>
      rw [begin?, hjobs, hpending, hqueue] at hbegin
      cases hbegin

end Worker

namespace Tally

/-- The tally of a diligent worker is balanced. -/
structure Sound (format : WireFormat) (dealt : List Transaction) (tally : Tally) : Prop where
  balanced : tally.Balanced format dealt
  diligent : tally.worker.Diligent

/-- A tally goes on: no attempt is forgotten, what is done anew was in flight and has ended like
that, and when the worker has finished nothing changes any more. -/
structure Leads (tally later : Tally) : Prop where
  attempts : ∀ attempt ∈ tally.attempts, attempt ∈ later.attempts
  ended : ∀ done ∈ later.ended, done ∈ tally.ended ∨
    ∃ submission, tally.worker.submission? done.number = some submission ∧
      submission.transaction = done.transaction ∧
      submission.ending? = some (.returned done.result)
  finished : tally.worker.fate = .finished → later = tally

theorem Leads.refl (tally : Tally) : tally.Leads tally :=
  ⟨fun _ hattempt => hattempt, fun _ hdone => .inl hdone, fun _ => rfl⟩

variable {crowd next : Crowd} {mover : Party} {position : Nat} {later : Worker}
  {format : WireFormat} {dealt : List Transaction} {tally : Tally}

theorem Sound.idle (hsound : tally.Sound format dealt)
    (hfinished : tally.worker.fate = .finished) : tally.worker.Idle := by
  obtain ⟨hjobs, hpending, hqueue⟩ := hsound.diligent.finished hfinished
  exact ⟨hqueue, hpending, hjobs⟩

/-- Who has a job has not finished. -/
theorem Sound.working {number : Nat} {submission : Submission}
    (hsound : tally.Sound format dealt)
    (hjob : tally.worker.submission? number = some submission) :
    tally.worker.fate ≠ .finished := by
  intro hfinished
  rw [(hsound.idle hfinished).submission?] at hjob
  cases hjob

/-- A job that goes on keeps the tally sound, and the entries for it are added. -/
theorem Sound.putJob {number : Nat} {submission submission' : Submission}
    {entries : List (Option FailureKind)} (hsound : tally.Sound format dealt)
    (hjob : tally.worker.submission? number = some submission)
    (hfits : Fits format submission') (hsame : submission'.transaction = submission.transaction)
    (hmark : submission'.mark?.toList = entries ++ submission.mark?.toList) :
    ∃ tally' : Tally, tally'.worker = tally.worker.putJob number (.new submission') ∧
      tally'.Sound format dealt ∧ tally.Leads tally' ∧
        tally'.entries.Perm (entries ++ tally.entries) := by
  have hworking := hsound.working hjob
  obtain ⟨hbalanced, hdiligent⟩ := hsound
  refine ⟨{ tally with worker := tally.worker.putJob number (.new submission') }, rfl, ⟨?_, ?_⟩,
    ⟨?_, ?_, ?_⟩, hbalanced.entries_putJob hjob hmark⟩
  · exact hbalanced.putJob hjob hfits hsame
  · exact hbalanced.diligent_putJob hjob hdiligent submission'
  · exact fun attempt => (hbalanced.attempts_putJob hjob hsame).mem_iff.mpr
  · exact fun done hdone => .inl hdone
  · exact fun hfinished => absurd hfinished hworking

/-- **What a worker does in a move keeps its tally sound**, and it makes the entries by which the
statistics grow. -/
theorem Sound.moved (hsound : tally.Sound format dealt) (hstore : crowd.resources.Calm)
    (hmoved : Crowd.WorkerMoved crowd next mover position tally.worker later) :
    ∃ tally' entries, tally'.worker = later ∧ tally'.Sound format dealt ∧ tally.Leads tally' ∧
      Statistics.Grows format entries crowd.place.pipeline.statistics
        next.place.pipeline.statistics ∧
      tally'.entries.Perm (entries ++ tally.entries) := by
  obtain ⟨hbalanced, hdiligent⟩ := hsound
  have hunder := hbalanced.under
  cases hmoved with
  | begun hmover hjobs hbegin hlater hpipeline =>
      obtain ⟨subBatch, queue, -, hpending, hqueue, rfl⟩ := Worker.begin?_cases hbegin
      -- First the sub-batch is taken up, and then jobs are started.
      let taken : Tally :=
        { tally with worker := { tally.worker with queue, pending := subBatch } }
      have htaken : taken.Balanced format dealt := by
        refine ⟨hunder, ?_, hbalanced.numbers, hbalanced.fits, hbalanced.processed,
          hbalanced.fate⟩
        have hdealt := hbalanced.dealt
        rwa [hpending, hqueue] at hdealt
      have hworking : tally.worker.fate ≠ .finished := by
        intro hfinished
        rw [(hdiligent.finished hfinished).2.2] at hqueue
        cases hqueue
      refine ⟨taken.fill crowd.place.pipeline, [], hlater.symm, ⟨htaken.fill _, ?_⟩,
        ⟨?_, ?_, ?_⟩, ?_, ?_⟩
      · exact taken.diligent_fill _ hdiligent.limit hworking
      · intro attempt hattempt
        rw [attempts_fill]
        exact List.mem_append_left _ hattempt
      · exact fun done hdone => .inl hdone
      · exact fun hfinished => absurd hfinished hworking
      · rw [hpipeline]
        exact .refl ..
      · rw [entries_fill]
        exact .refl _
  | closed hmover hjobs hbegin hlater hpipeline =>
      -- There is nothing in flight, nothing pending and nothing queued.
      have hidle := hdiligent.idle hjobs hbegin
      refine ⟨{ tally with worker := tally.worker.close }, [], hlater.symm,
        ⟨?_, ?_⟩, ⟨?_, ?_, ?_⟩, ?_, .refl _⟩
      · exact ⟨hunder, hbalanced.dealt, hbalanced.numbers, hbalanced.fits, hbalanced.processed,
          WorkerFate.noConfusion⟩
      · exact ⟨hdiligent.limit, hdiligent.full, fun _ => ⟨hjobs, hidle.pending, hidle.queue⟩⟩
      · exact fun attempt hattempt => hattempt
      · exact fun done hdone => .inl hdone
      · intro hfinished
        rw [Worker.close, ← hfinished]
      · rw [hpipeline]
        exact .refl ..
  | @stepped number submission submission' hmover hjob hstep hlater =>
      have hfits := hbalanced.fits _ (Worker.mem_inHand hjob)
      obtain ⟨hsame, hformat, hlast, entries, hgrows, hmark⟩ :=
        Submission.grows_of_step? hfits.countsLast hstep
      have hcalm := (Submission.calm_of_step? hstore hfits.calm hstep).2
      have hfits' : Fits format submission' := ⟨hformat.trans hfits.under, hlast, hcalm⟩
      obtain ⟨tally', hworker, hsound', hleads, hentries⟩ :=
        Sound.putJob ⟨hbalanced, hdiligent⟩ hjob hfits' hsame hmark
      refine ⟨tally', entries, hworker.trans hlater.symm, hsound', hleads, ?_, hentries⟩
      rw [← hfits.under]
      exact hgrows
  | @cut number submission submission' chosen hmover hjob hwait hcut hlater hpipeline =>
      have hfits := hbalanced.fits _ (Worker.mem_inHand hjob)
      obtain ⟨hsame, hformat, hlast, hmark⟩ := Submission.mark?_of_cut? hfits.countsLast hcut
      have hcalm := Submission.calm_of_cut? hfits.calm hcut
      have hfits' : Fits format submission' := ⟨hformat.trans hfits.under, hlast, hcalm⟩
      have hmark : submission'.mark?.toList = [] ++ submission.mark?.toList := by
        rw [hmark, List.nil_append]
      obtain ⟨tally', hworker, hsound', hleads, hentries⟩ :=
        Sound.putJob ⟨hbalanced, hdiligent⟩ hjob hfits' hsame hmark
      refine ⟨tally', [], hworker.trans hlater.symm, hsound', hleads, ?_, hentries⟩
      rw [hpipeline]
      exact .refl ..
  | @looked number submission hmover hjob hlater hpipeline =>
      have hfits := hbalanced.fits _ (Worker.mem_inHand hjob)
      obtain ⟨tally', hworker, hsound', hleads, hentries⟩ :=
        Sound.putJob ⟨hbalanced, hdiligent⟩ hjob hfits rfl (List.nil_append _).symm
      refine ⟨tally', [], hworker.trans hlater.symm, hsound', hleads, ?_, hentries⟩
      rw [hpipeline]
      exact .refl ..
  | @finished number submission result hmover hjob hending hlater hpipeline =>
      have hworking := Sound.working ⟨hbalanced, hdiligent⟩ hjob
      -- First the job is done, and then others are started.
      let dropped := tally.drop ⟨number, submission.transaction, result⟩
      have hdropped : dropped.Balanced format dealt := hbalanced.drop hjob
      refine ⟨dropped.fill crowd.place.pipeline, [], hlater.symm, ⟨hdropped.fill _, ?_⟩,
        ⟨?_, ?_, ?_⟩, ?_, ?_⟩
      · exact dropped.diligent_fill _ hdiligent.limit hworking
      · intro attempt hattempt
        rw [attempts_fill]
        exact List.mem_append_left _ ((hbalanced.attempts_drop hjob).mem_iff.mpr hattempt)
      · intro done hdone
        rcases List.mem_append.mp hdone with hold | hnew
        · exact .inl hold
        · rw [List.mem_singleton.mp hnew]
          exact .inr ⟨submission, hjob, rfl, hending⟩
      · exact fun hfinished => absurd hfinished hworking
      · rw [hpipeline]
        exact .refl ..
      · rw [entries_fill]
        exact hbalanced.entries_drop hjob hending
  | lost hmover hjob hending hlater =>
      -- Nothing is aborted.
      have hfits := hbalanced.fits _ (Worker.mem_inHand hjob)
      exact (Submission.returned_of_ending? hfits.calm hending).elim

end Tally

/-! ## All workers -/

/-- Who has nothing to do can only say so. -/
theorem Worker.Idle.moved {crowd next : Crowd} {mover : Party} {position : Nat}
    {worker later : Worker} (hidle : worker.Idle)
    (hmoved : Crowd.WorkerMoved crowd next mover position worker later) :
    later.Idle ∧ next.place.pipeline = crowd.place.pipeline := by
  cases hmoved with
  | begun hmover hjobs hbegin hlater hpipeline =>
      obtain ⟨subBatch, queue, -, -, hqueue, -⟩ := begin?_cases hbegin
      rw [hidle.queue] at hqueue
      cases hqueue
  | closed hmover hjobs hbegin hlater hpipeline =>
      rw [hlater]
      exact ⟨⟨hidle.queue, hidle.pending, hidle.jobs⟩, hpipeline⟩
  | stepped hmover hjob | cut hmover hjob | looked hmover hjob | finished hmover hjob
  | lost hmover hjob =>
      rw [hidle.submission?] at hjob
      cases hjob

/-- To put another element into a list changes what is collected from it as it changes what is
collected from the element. -/
private theorem perm_flatMap_set {α β : Type} {items : List α} {collect : α → List β}
    {position : Nat} {old new : α} {extra : List β} (hold : items[position]? = some old)
    (hnew : (collect new).Perm (extra ++ collect old)) :
    ((items.set position new).flatMap collect).Perm (extra ++ items.flatMap collect) := by
  obtain ⟨hlt, hget⟩ := List.getElem?_eq_some_iff.mp hold
  have hset := (List.set_perm_cons_eraseIdx hlt new).flatMap_right collect
  have hitems := (List.getElem_cons_eraseIdx_perm hlt).flatMap_right collect
  rw [List.flatMap_cons] at hset hitems
  rw [hget] at hitems
  refine hset.trans ((hnew.append_right _).trans ?_)
  rw [List.append_assoc]
  exact hitems.append_left extra

namespace Crowd

/-- The books are in order: the staff are some who have nothing to do and the workers of a batch,
each of whom has a sound tally of its share, and the statistics have grown by their entries. -/
structure Accounts (format : WireFormat) (shares : List (List Transaction)) (base : Statistics)
    (idle : List Worker) (tallies : List Tally) (crowd : Crowd) : Prop where
  staff : crowd.place.staff = idle ++ tallies.map (·.worker)
  idle : ∀ worker ∈ idle, worker.Idle
  length : tallies.length = shares.length
  sound : ∀ (index : Nat) (tally : Tally) (share : List Transaction),
    tallies[index]? = some tally → shares[index]? = some share → tally.Sound format share
  statistics : Statistics.Grows format (tallies.flatMap (·.entries)) base
    crowd.place.pipeline.statistics

/-- All tallies go on, and there may be new ones by which nothing is done yet. -/
structure Leading (tallies later : List Tally) : Prop where
  leads {index : Nat} {tally : Tally} (htally : tallies[index]? = some tally) :
    ∃ tally', later[index]? = some tally' ∧ tally.Leads tally'
  led {index : Nat} {tally' : Tally} (htally : later[index]? = some tally') :
    tally'.ended = [] ∨ ∃ tally, tallies[index]? = some tally ∧ tally.Leads tally'

theorem Leading.refl (tallies : List Tally) : Leading tallies tallies where
  leads htally := ⟨_, htally, .refl _⟩
  led htally := .inr ⟨_, htally, .refl _⟩

theorem leading_set {tallies : List Tally} {index : Nat} {tally tally' : Tally}
    (htally : tallies[index]? = some tally) (hleads : tally.Leads tally') :
    Leading tallies (tallies.set index tally') where
  leads := by
    intro other before hbefore
    by_cases hindex : index = other
    · subst hindex
      rw [htally] at hbefore
      cases hbefore
      rw [List.getElem?_set_self (List.getElem?_eq_some_iff.mp htally).1]
      exact ⟨tally', rfl, hleads⟩
    · rw [List.getElem?_set_ne hindex]
      exact ⟨before, hbefore, .refl before⟩
  led := by
    intro other after hafter
    right
    by_cases hindex : index = other
    · subst hindex
      rw [List.getElem?_set_self (List.getElem?_eq_some_iff.mp htally).1] at hafter
      cases hafter
      exact ⟨tally, htally, hleads⟩
    · rw [List.getElem?_set_ne hindex] at hafter
      exact ⟨after, hafter, .refl after⟩

variable {format : WireFormat} {shares : List (List Transaction)} {base : Statistics}
  {idle : List Worker} {tallies : List Tally} {crowd next : Crowd} {mover : Party}

/-- The books stay in order if neither the staff nor the statistics change. -/
theorem Accounts.same (haccounts : Accounts format shares base idle tallies crowd)
    (hstaff : next.place.staff = crowd.place.staff)
    (hstatistics : next.place.pipeline.statistics = crowd.place.pipeline.statistics) :
    Accounts format shares base idle tallies next := by
  refine ⟨hstaff.trans haccounts.staff, haccounts.idle, haccounts.length, haccounts.sound, ?_⟩
  rw [hstatistics]
  exact haccounts.statistics

/-- The books stay in order in a move of a worker of the batch. -/
theorem Accounts.set (haccounts : Accounts format shares base idle tallies crowd)
    (hstore : crowd.resources.Calm) {index position : Nat} {tally : Tally} {later : Worker}
    (htally : tallies[index]? = some tally)
    (hmoved : WorkerMoved crowd next mover position tally.worker later)
    (hstaff : next.place.staff = idle ++ (tallies.map (·.worker)).set index later) :
    ∃ tallies', Leading tallies tallies' ∧ Accounts format shares base idle tallies' next := by
  have hlt : index < tallies.length := (List.getElem?_eq_some_iff.mp htally).1
  obtain ⟨share, hshare⟩ : ∃ share, shares[index]? = some share := by
    rw [haccounts.length] at hlt
    exact ⟨_, List.getElem?_eq_getElem hlt⟩
  obtain ⟨tally', entries, rfl, hsound, hleads, hgrows, hentries⟩ :=
    (haccounts.sound index tally share htally hshare).moved hstore hmoved
  refine ⟨tallies.set index tally', leading_set htally hleads, ?_, haccounts.idle, ?_, ?_, ?_⟩
  · rw [hstaff, List.map_set]
  · rw [List.length_set]
    exact haccounts.length
  · intro other before share' hbefore hother
    by_cases hindex : index = other
    · subst hindex
      rw [List.getElem?_set_self hlt] at hbefore
      rw [hshare] at hother
      cases hbefore
      cases hother
      exact hsound
    · rw [List.getElem?_set_ne hindex] at hbefore
      exact haccounts.sound other before share' hbefore hother
  · exact (haccounts.statistics.trans hgrows).perm (perm_flatMap_set htally hentries).symm

/-- **The books stay in order** in every move but those of tasks. -/
theorem Accounts.moved (haccounts : Accounts format shares base idle tallies crowd)
    (hstore : crowd.resources.Calm) (hmove : Move mover crowd next)
    (htask : ∀ position, mover ≠ .task position) :
    ∃ idle' tallies', idle'.length = idle.length ∧ Leading tallies tallies' ∧
      Accounts format shares base idle' tallies' next := by
  cases hmove.staffBecame with
  | task hmover => exact absurd hmover (htask _)
  | same hstaff hstatistics =>
      exact ⟨idle, tallies, rfl, .refl _, haccounts.same hstaff hstatistics⟩
  | @moved position worker later hworker hmoved hstaff =>
      rw [haccounts.staff, List.getElem?_append] at hworker
      rw [haccounts.staff, List.set_append] at hstaff
      split at hworker
      · -- It is one of those who have nothing to do.
        rename_i hposition
        rw [if_pos hposition] at hstaff
        obtain ⟨hlater, hpipeline⟩ :=
          (haccounts.idle worker (List.mem_of_getElem? hworker)).moved hmoved
        refine ⟨idle.set position later, tallies, List.length_set, .refl _, hstaff, ?_,
          haccounts.length, haccounts.sound, ?_⟩
        · intro other hother
          rcases List.mem_or_eq_of_mem_set hother with hold | rfl
          · exact haccounts.idle other hold
          · exact hlater
        · rw [hpipeline]
          exact haccounts.statistics
      · -- It is one of the workers of the batch.
        rename_i hposition
        rw [if_neg hposition] at hstaff
        rw [List.getElem?_map] at hworker
        obtain ⟨tally, htally, rfl⟩ := Option.map_eq_some_iff.mp hworker
        obtain ⟨tallies', hleading, hnext⟩ := haccounts.set hstore htally hmoved hstaff
        exact ⟨idle, tallies', rfl, hleading, hnext⟩

/-- A submission of a job is one of a worker of the batch. -/
theorem Accounts.submission? (haccounts : Accounts format shares base idle tallies crowd)
    {position number : Nat} {submission : Submission}
    (hjob : crowd.submission? (.job position number) = some submission) :
    ∃ index tally, position = idle.length + index ∧ tallies[index]? = some tally ∧
      tally.worker.submission? number = some submission := by
  obtain ⟨worker, hworker, hjob⟩ := Option.bind_eq_some_iff.mp hjob
  rw [haccounts.staff, List.getElem?_append] at hworker
  split at hworker
  · rw [(haccounts.idle worker (List.mem_of_getElem? hworker)).submission?] at hjob
    cases hjob
  · rename_i hposition
    rw [List.getElem?_map] at hworker
    obtain ⟨tally, htally, rfl⟩ := Option.map_eq_some_iff.mp hworker
    exact ⟨_, tally, by omega, htally, hjob⟩

theorem Accounts.submission?_of_tally (haccounts : Accounts format shares base idle tallies crowd)
    {index : Nat} {tally : Tally} (htally : tallies[index]? = some tally) (number : Nat) :
    crowd.submission? (.job (idle.length + index) number) = tally.worker.submission? number := by
  rw [submission?_job, Workplace.submission?, haccounts.staff,
    List.getElem?_append_right (Nat.le_add_right ..), Nat.add_sub_cancel_left, List.getElem?_map,
    htally]
  rfl

end Crowd

end Clearing
