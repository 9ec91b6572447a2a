import Clearing.Proofs.Batch.Turn

/-!
# Workers between turns

Between two turns at a smooth pipeline no worker has anything in flight, and each
has handled some of what was dealt to it, from the front (`Worker.Holds`).  Every
worker that has not finished is to have a turn, now or after the round
(`Workplace.Staffed`).  A turn makes less of the sub-batches that were not
started, the turns and those who were put off together (`Workplace.load`), and to
call up those who were put off does not make more of them.
-/

namespace Clearing

/-! ## Workers between turns -/

/-- A worker that has nothing in flight has handled some of what was dealt to it, in order, and has
saved what satisfies the rules. -/
structure Worker.Holds (reference : Ledger) (time : Timestamp) (share : List (List Transaction))
    (worker : Worker) : Prop where
  jobs : worker.jobs = []
  pending : worker.pending = []
  ready : worker.ready = []
  limit : 0 < worker.limit
  fate : worker.fate = .working ∨ worker.fate = .finished ∧ worker.queue = []
  saved : ∃ handled, share.flatten = handled ++ worker.queue.flatten ∧
    List.Forall₂ (fun transaction row => transaction.SavedAs time row)
      (handled.filter (reference.accepts time)) worker.processed

namespace Worker

variable {reference : Ledger} {time : Timestamp} {share : List (List Transaction)} {worker : Worker}

theorem holds_new (format : WireFormat) (limit : Nat) :
    (new format limit share).Holds reference time share :=
  ⟨rfl, rfl, rfl, Nat.lt_of_lt_of_le Nat.one_pos (Nat.le_max_right limit 1), .inl rfl,
    [], rfl, .nil⟩

theorem Holds.of_works (hholds : worker.Holds reference time share) {position allowance : Nat}
    {place after : Workplace} {later : Worker}
    (hworks : Workplace.Works reference time position allowance worker.queue.flatten worker place
      after later) : later.Holds reference time share where
  jobs := hworks.advances.jobs
  pending := hworks.advances.pending
  ready := hworks.advances.ready
  limit := hworks.advances.limit ▸ hholds.limit
  fate := by
    rcases hworks.ends with ⟨hfinished, hqueue, -⟩ | ⟨hsame, hless, -⟩
    · exact .inr ⟨hfinished, hqueue⟩
    · rcases hholds.fate with hworking | ⟨hfinished, hqueue⟩
      · exact .inl (hsame.trans hworking)
      · rw [hqueue, List.length_nil, Nat.le_zero, Nat.add_eq_zero_iff,
          List.length_eq_zero_iff] at hless
        exact .inr ⟨hsame.trans hfinished, hless.1⟩
  saved := by
    obtain ⟨before, hshare, hbefore⟩ := hholds.saved
    obtain ⟨handled, rows, hqueue, hprocessed, hrows⟩ := hworks.advances.handled
    refine ⟨before ++ handled, ?_, ?_⟩
    · rw [hshare, hqueue, List.append_assoc]
    · rw [hprocessed, List.filter_append]
      exact List.rel_append hbefore hrows

/-- Nothing of the share of a worker that has finished is left. -/
theorem Holds.finished (hholds : worker.Holds reference time share)
    (hover : worker.fate ≠ .working) :
    List.Forall₂ (fun transaction row => transaction.SavedAs time row)
      (share.flatten.filter (reference.accepts time)) worker.processed := by
  obtain ⟨handled, hshare, hrows⟩ := hholds.saved
  rcases hholds.fate with hworking | ⟨-, hqueue⟩
  · exact absurd hworking hover
  · rw [hqueue, List.flatten_nil, List.append_nil] at hshare
    rwa [hshare]

end Worker

/-! ## The workplace between turns -/

namespace Workplace

/-- What is left to do: the sub-batches that were not started, the turns and those who were put
off. -/
def load (place : Workplace) : Nat :=
  (place.workers.toList.flatMap Worker.queue).length + place.turns.length + place.putOff.length

/-- Between two turns of a batch that was dealt to workers, some of whom were found to have
finished. -/
structure Staffed (reference : Ledger) (base : Pipeline) (now : Nat)
    (shares : List (List (List Transaction))) (found : Nat) (place : Workplace) : Prop where
  smooth : place.pipeline.Smooth reference
  kindred : base.Kindred place.pipeline
  current : place.current = none
  holds : List.Forall₂ (Worker.Holds reference (base.clock now)) shares place.workers.toList
  putOff : ∃ positions : List Nat, place.putOff = positions.map .worker
  called : ∀ position worker, place.workers[position]? = some worker → worker.fate = .working →
    position ∈ place.turns ∨ .worker position ∈ place.putOff
  found : ∀ position < found, place.isOver position = true

variable {reference : Ledger} {base : Pipeline} {now found : Nat}
  {shares : List (List (List Transaction))} {place : Workplace}

@[simp] theorem load_dropNews (place : Workplace) :
    ({ place with news := [] } : Workplace).load = place.load := rfl

/-- The queue of one worker changes. -/
private theorem length_queues_set {workers : List Worker} {position : Nat} {worker : Worker}
    (hworker : workers[position]? = some worker) (later : Worker) :
    ((workers.set position later).flatMap Worker.queue).length + worker.queue.length =
      (workers.flatMap Worker.queue).length + later.queue.length := by
  induction workers generalizing position with
  | nil => cases hworker
  | cons first workers ih =>
      cases position with
      | zero =>
          obtain rfl : first = worker := Option.some.inj hworker
          simp only [List.set_cons_zero, List.flatMap_cons, List.length_append]
          omega
      | succ position =>
          have hothers := ih hworker
          simp only [List.set_cons_succ, List.flatMap_cons, List.length_append]
          omega

/-- One of the things on the right is replaced. -/
private theorem forall₂_set {α β : Type} {related : α → β → Prop} {left : List α} {right : List β}
    (hrelated : List.Forall₂ related left right) {position : Nat} {item later : β}
    (hitem : right[position]? = some item)
    (hlater : ∀ other, related other item → related other later) :
    List.Forall₂ related left (right.set position later) := by
  induction hrelated generalizing position with
  | nil => cases hitem
  | cons hfirst hrest ih =>
      cases position with
      | zero =>
          obtain rfl := Option.some.inj hitem
          exact .cons (hlater _ hfirst) hrest
      | succ position => exact .cons hfirst (ih hitem)

namespace Staffed

theorem exists_holds (hstaffed : place.Staffed reference base now shares found) {worker : Worker}
    (hworker : worker ∈ place.workers.toList) :
    ∃ share, worker.Holds reference (base.clock now) share := by
  obtain ⟨position, hposition⟩ := List.getElem?_of_mem hworker
  obtain ⟨hlt, rfl⟩ := List.getElem?_eq_some_iff.mp hposition
  have hlength := hstaffed.holds.length_eq
  exact ⟨_, hstaffed.holds.get (hlength ▸ hlt) hlt⟩

/-- Whoever is over stays so. -/
private theorem isOver_set {after : Workplace} {position other : Nat} {worker later : Worker}
    (hworker : place.workers[position]? = some worker)
    (hworkers : after.workers.toList = place.workers.toList.set position later)
    (hfate : worker.fate ≠ .working → later.fate ≠ .working)
    (hover : place.isOver other = true) : after.isOver other = true := by
  unfold isOver at hover ⊢
  rw [← Array.getElem?_toList, hworkers, List.getElem?_set]
  split
  · rename_i hsame
    subst hsame
    rw [hworker] at hover
    rw [if_pos (by rw [Array.length_toList]; exact (Array.getElem?_eq_some_iff.mp hworker).1)]
    simpa using hfate (by simpa using hover)
  · rwa [Array.getElem?_toList]

/-- The news do not matter. -/
theorem dropNews (hstaffed : place.Staffed reference base now shares found) :
    ({ place with news := [] } : Workplace).Staffed reference base now shares found :=
  { hstaffed with }

/-- What the turn of a worker makes of the workplace. -/
private theorem of_works (hstaffed : place.Staffed reference base now shares found)
    {position allowance : Nat} {turns : List Nat} (hturns : place.turns = position :: turns)
    {after : Workplace} {worker later : Worker}
    (hworker : place.workers[position]? = some worker)
    (hworks : Works reference (base.clock now) position allowance worker.queue.flatten worker
      { place with turns } after later) :
    after.Staffed reference base now shares found where
  smooth := hworks.smooth
  kindred := hstaffed.kindred.trans hworks.kindred
  current := hworks.current.trans hstaffed.current
  holds := by
    have hposition : place.workers.toList[position]? = some worker := by
      rw [Array.getElem?_toList, hworker]
    rw [hworks.workers]
    exact forall₂_set hstaffed.holds hposition fun share hholds => hholds.of_works hworks
  putOff := by
    obtain ⟨positions, hpositions⟩ := hstaffed.putOff
    rcases hworks.ends with ⟨-, -, hsame⟩ | ⟨-, -, hadded⟩
    · exact ⟨positions, hsame.trans hpositions⟩
    · exact ⟨position :: positions, hadded.trans (congrArg _ hpositions)⟩
  called := by
    -- Whoever is still working is called as before, or was put off in this turn.
    intro other idle hother hworking
    rw [← Array.getElem?_toList, hworks.workers, List.getElem?_set] at hother
    split at hother
    · rename_i hsame
      subst hsame
      obtain rfl := Option.some.inj (Option.ite_none_right_eq_some.mp hother).2
      rcases hworks.ends with ⟨hfinished, -, -⟩ | ⟨-, -, hadded⟩
      · rw [hworking] at hfinished
        cases hfinished
      · exact .inr (hadded ▸ List.mem_cons_self)
    · rename_i hne
      rw [Array.getElem?_toList] at hother
      rcases hstaffed.called other idle hother hworking with hturn | hput
      · rw [hturns] at hturn
        exact .inl (hworks.turns ▸ (List.mem_cons.mp hturn).resolve_left (Ne.symm hne))
      · rcases hworks.ends with ⟨-, -, hsame⟩ | ⟨-, -, hadded⟩
        · exact .inr (hsame ▸ hput)
        · exact .inr (hadded ▸ List.mem_cons_of_mem _ hput)
  found := by
    intro other hother
    refine isOver_set hworker hworks.workers (fun hover => ?_) (hstaffed.found other hother)
    rcases hworks.ends with ⟨hfinished, -, -⟩ | ⟨hsame, -, -⟩
    · rw [hfinished]
      exact WorkerFate.noConfusion
    · rwa [hsame]

/-- A worker uses up its turn, and if it is put off it has taken up sub-batches. -/
private theorem load_lt_of_works {time : Timestamp} {position allowance : Nat} {turns : List Nat}
    (hturns : place.turns = position :: turns) (hallowance : 0 < allowance) {after : Workplace}
    {worker later : Worker} (hworker : place.workers[position]? = some worker)
    (hworks : Works reference time position allowance worker.queue.flatten worker
      { place with turns } after later) :
    after.load < place.load := by
  have hposition : place.workers.toList[position]? = some worker := by
    rw [Array.getElem?_toList, hworker]
  have hqueues := length_queues_set hposition later
  have hafter := hworks.turns
  unfold load
  rw [hworks.workers, hturns, hafter, List.length_cons]
  rcases hworks.ends with ⟨-, hqueue, hsame⟩ | ⟨-, hless, hadded⟩
  · rw [hqueue, List.length_nil] at hqueues
    rw [hsame]
    dsimp only
    omega
  · rw [hadded, List.length_cons]
    dsimp only
    omega

/-- **A turn makes less of what is left to do.** -/
theorem nextTurn (hstaffed : place.Staffed reference base now shares found) {position : Nat}
    {turns : List Nat} (hturns : place.turns = position :: turns) :
    (place.nextTurn now).Staffed reference base now shares found ∧
      (place.nextTurn now).load < place.load := by
  have hnext : place.nextTurn now = turn now { place with turns } position := by
    simp only [Workplace.nextTurn, hturns]
  rw [hnext]
  cases hworker : place.workers[position]? with
  | none =>
      have hturn : turn now { place with turns } position = { place with turns } := by
        simp only [turn, hworker]
      rw [hturn]
      refine ⟨{ hstaffed with called := ?_ }, ?_⟩
      · intro other idle hother hworking
        have hne : other ≠ position := by
          rintro rfl
          rw [hworker] at hother
          cases hother
        have hcalled := hstaffed.called other idle hother hworking
        rw [hturns] at hcalled
        exact hcalled.imp_left fun hturn => (List.mem_cons.mp hturn).resolve_left hne
      · simp only [load, hturns, List.length_cons]
        omega
  | some worker =>
      obtain ⟨share, hholds⟩ := hstaffed.exists_holds
        (Array.mem_toList_iff.mpr (Array.mem_of_getElem? hworker))
      have hidle : ∀ idle ∈ place.workers.toList,
          idle.jobs = [] ∧ idle.pending = [] ∧ idle.ready = [] := by
        intro idle hidle
        obtain ⟨share, hholds⟩ := hstaffed.exists_holds hidle
        exact ⟨hholds.jobs, hholds.pending, hholds.ready⟩
      have hsmooth : ({ place with turns } : Workplace).pipeline.Smooth reference := hstaffed.smooth
      obtain ⟨later, hworks⟩ := turn_spec hsmooth hworker hidle hholds.limit hstaffed.current now
      have htime : place.pipeline.clock now = base.clock now := congrFun hstaffed.kindred.clock now
      rw [htime] at hworks
      exact ⟨hstaffed.of_works hturns hworker hworks,
        load_lt_of_works hturns (show 0 < allowance by decide) hworker hworks⟩

/-- **Some turns in a row.** If somebody is to have a turn then less is left to do after them. -/
theorem runTurns (hstaffed : place.Staffed reference base now shares found) (pipeline : Pipeline)
    (count : Nat) :
    ((Task.schedule pipeline).runTurns now count place).1.Staffed reference base now shares found ∧
      ((Task.schedule pipeline).runTurns now count place).1.load ≤ place.load ∧
        (place.turns ≠ [] → 0 < count →
          ((Task.schedule pipeline).runTurns now count place).2 = true ∧
            ((Task.schedule pipeline).runTurns now count place).1.load < place.load) := by
  induction count generalizing place with
  | zero => exact ⟨hstaffed, le_rfl, fun _ hcount => absurd hcount (Nat.lt_irrefl 0)⟩
  | succ count ih =>
      unfold Schedule.runTurns
      cases hturns : place.turns with
      | nil =>
          rw [if_pos (by simp only [Task.schedule, hturns, List.isEmpty_nil])]
          exact ⟨hstaffed, le_rfl, fun hsome => absurd rfl hsome⟩
      | cons position turns =>
          rw [if_neg (by simp [Task.schedule, hturns])]
          obtain ⟨hnext, hless⟩ := hstaffed.nextTurn hturns
          obtain ⟨hlast, hle, -⟩ := ih hnext
          have hlast_lt := Nat.lt_of_le_of_lt hle hless
          exact ⟨hlast, hlast_lt.le, fun _ _ => ⟨rfl, hlast_lt⟩⟩

private theorem callUp_of_current (hcurrent : place.current = none) (position : Nat) :
    place.callUp position = { place with
      turns := if position ∈ place.turns then place.turns else place.turns ++ [position] } := by
  obtain ⟨pipeline, workers, turns, current, putOff, news, looks⟩ := place
  dsimp only at hcurrent
  subst hcurrent
  unfold callUp
  dsimp only
  split <;> rfl

/-- Calling up some workers. -/
private theorem foldl_callUp (positions : List Nat) (hcurrent : place.current = none) :
    ∃ turns, positions.foldl callUp place = { place with turns } ∧
      turns.length ≤ place.turns.length + positions.length ∧
        ∀ position, position ∈ place.turns ∨ position ∈ positions → position ∈ turns := by
  induction positions generalizing place with
  | nil => exact ⟨place.turns, rfl, le_rfl, fun position hposition => hposition.elim id (by simp)⟩
  | cons first positions ih =>
      rw [List.foldl_cons, callUp_of_current hcurrent]
      split
      · rename_i hpresent
        obtain ⟨turns, hrest, hlength, hmem⟩ := ih hcurrent
        refine ⟨turns, hrest, hlength.trans (Nat.le_succ _), ?_⟩
        rintro position (hturn | hlisted)
        · exact hmem position (.inl hturn)
        · rcases List.mem_cons.mp hlisted with rfl | hlater
          · exact hmem position (.inl hpresent)
          · exact hmem position (.inr hlater)
      · have hlater : ({ place with turns := place.turns ++ [first] } : Workplace).current = none :=
          hcurrent
        obtain ⟨turns, hrest, hlength, hmem⟩ := ih hlater
        refine ⟨turns, hrest, ?_, ?_⟩
        · simp only [List.length_append, List.length_cons, List.length_nil] at hlength ⊢
          omega
        · rintro position (hturn | hlisted)
          · exact hmem position (.inl (List.mem_append_left _ hturn))
          · rcases List.mem_cons.mp hlisted with rfl | hlater
            · exact hmem position (.inl (List.mem_append_right _ (List.mem_singleton_self _)))
            · exact hmem position (.inr hlater)

/-- Those who were put off are called up again. -/
theorem resume (hstaffed : place.Staffed reference base now shares found) :
    (place.resume?.getD place).Staffed reference base now shares found ∧
      (place.resume?.getD place).putOff = [] ∧ (place.resume?.getD place).load ≤ place.load := by
  obtain ⟨positions, hpositions⟩ := hstaffed.putOff
  unfold resume?
  split
  · rename_i hempty
    exact ⟨hstaffed, List.isEmpty_iff.mp hempty, le_rfl⟩
  · have hcurrent : ({ place with putOff := [] } : Workplace).current = none := hstaffed.current
    obtain ⟨turns, hcalled, hlength, hmem⟩ := foldl_callUp positions hcurrent
    rw [Option.getD_some, hpositions, List.foldl_map]
    dsimp only
    rw [hcalled]
    refine ⟨{ hstaffed with putOff := ⟨[], rfl⟩, called := ?_ }, rfl, ?_⟩
    · intro position worker hworker hworking
      refine .inl (hmem position ((hstaffed.called position worker hworker hworking).imp id ?_))
      intro hput
      rw [hpositions] at hput
      obtain ⟨_, hposition, hsame⟩ := List.mem_map.mp hput
      cases hsame
      exact hposition
    · unfold load
      rw [hpositions, List.length_map]
      dsimp only at hlength ⊢
      rw [List.length_nil]
      omega

end Staffed

end Workplace

end Clearing
