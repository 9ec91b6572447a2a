import Clearing.Session

/-!
# Bookkeeping at a workplace

A workplace keeps books about who is to have a turn, who was put off, whose
alarms are set and which news there are.  All of that decides when something
happens and nothing about what happens.  Here it is told apart: the staff of a
workplace is its workers without what they are to look at and without alarms,
and neither the staff nor the pipeline changes when someone is called up or told
some news.
-/

namespace Clearing

namespace Worker

/-- The worker apart from what it is to look at and from its alarms. -/
def bare (worker : Worker) : Worker :=
  { worker with
    jobs := worker.jobs.map fun job => { job with watched := .new job.watched.state }
    ready := [] }

@[simp] theorem bare_bare (worker : Worker) : worker.bare.bare = worker.bare := by
  simp only [bare, List.map_map, Function.comp_def, Watched.new]

@[simp] theorem bare_markReady (worker : Worker) (number : Nat) :
    (worker.markReady number).bare = worker.bare := by
  unfold markReady
  split <;> rfl

/-- The submission of the job with a number. -/
def submission? (worker : Worker) (number : Nat) : Option Submission :=
  (worker.job? number).map fun job => job.watched.state

@[simp] theorem submission?_bare (worker : Worker) (number : Nat) :
    worker.bare.submission? number = worker.submission? number := by
  simp only [submission?, job?, bare, List.find?_map, Option.map_map, Function.comp_def,
    Watched.new]

end Worker

namespace Workplace

/-- The workers of a workplace apart from its bookkeeping. -/
def staff (place : Workplace) : List Worker :=
  place.workers.toList.map Worker.bare

/-- Nothing but the bookkeeping of two workplaces may differ. -/
structure Alike (place other : Workplace) : Prop where
  pipeline : other.pipeline = place.pipeline
  staff : other.staff = place.staff

theorem Alike.refl (place : Workplace) : place.Alike place := ⟨rfl, rfl⟩

theorem Alike.symm {place other : Workplace} (halike : place.Alike other) : other.Alike place :=
  ⟨halike.pipeline.symm, halike.staff.symm⟩

theorem Alike.worker {place other : Workplace} (halike : place.Alike other) {position : Nat}
    {worker : Worker} (hworker : place.workers[position]? = some worker) :
    ∃ worker', other.workers[position]? = some worker' ∧ worker'.bare = worker.bare := by
  have hstaff : other.staff[position]? = place.staff[position]? := by rw [halike.staff]
  simpa [Workplace.staff, hworker] using hstaff

theorem Alike.trans {place second third : Workplace} (hfirst : place.Alike second)
    (hsecond : second.Alike third) : place.Alike third :=
  ⟨hsecond.pipeline.trans hfirst.pipeline, hsecond.staff.trans hfirst.staff⟩

@[simp] theorem getElem?_staff (place : Workplace) (position : Nat) :
    place.staff[position]? = place.workers[position]?.map Worker.bare := by
  simp [staff]

theorem staff_changeWorker {place : Workplace} {position : Nat} {worker : Worker}
    (hworker : place.workers[position]? = some worker) (change : Worker → Worker) :
    (place.changeWorker position change).staff =
      place.staff.set position (change worker).bare := by
  apply List.ext_getElem?
  intro other
  rw [List.getElem?_set, getElem?_staff, getElem?_staff, changeWorker, Array.getElem?_modify]
  by_cases hother : position = other
  · subst hother
    have hsize : position < place.staff.length := by
      rw [staff, List.length_map, Array.length_toList]
      exact (Array.getElem?_eq_some_iff.mp hworker).1
    simp [hworker, hsize]
  · simp [hother]

/-- The submission of the job of a worker. -/
def submission? (place : Workplace) (position number : Nat) : Option Submission :=
  place.staff[position]?.bind (·.submission? number)

theorem submission?_of_worker {place : Workplace} {position : Nat} {worker : Worker}
    (hworker : place.workers[position]? = some worker) (number : Nat) :
    place.submission? position number = worker.submission? number := by
  simp [submission?, hworker]

/-- To change nothing but what a worker is to look at is bookkeeping. -/
theorem alike_changeWorker (place : Workplace) (position : Nat) {change : Worker → Worker}
    (hchange : ∀ worker, (change worker).bare = worker.bare) :
    place.Alike (place.changeWorker position change) := by
  refine ⟨rfl, ?_⟩
  apply List.ext_getElem?
  intro other
  rw [getElem?_staff, getElem?_staff, changeWorker, Array.getElem?_modify]
  split
  · simp [Function.comp_def, hchange]
  · rfl

/-- A worker after a change is the changed one. -/
theorem getElem?_changeWorker {place : Workplace} {position : Nat} {worker : Worker}
    (hworker : place.workers[position]? = some worker) (change : Worker → Worker) :
    (place.changeWorker position change).workers[position]? = some (change worker) := by
  rw [changeWorker, Array.getElem?_modify, if_pos rfl, hworker, Option.map_some]

theorem changeWorker_changeWorker (place : Workplace) (position : Nat)
    (first second : Worker → Worker) :
    (place.changeWorker position first).changeWorker position second =
      place.changeWorker position fun worker => second (first worker) := by
  simp only [changeWorker, Workplace.mk.injEq, true_and, and_true]
  apply Array.ext_getElem?
  intro other
  rw [Array.getElem?_modify, Array.getElem?_modify, Array.getElem?_modify]
  split
  · rw [Option.map_map]
    rfl
  · rfl

/-- A change that does not go by the bookkeeping is one of the staff. -/
theorem staff_modify (place : Workplace) (position : Nat) {change : Worker → Worker}
    (hchange : ∀ worker, (change worker).bare = (change worker.bare).bare) :
    (place.changeWorker position change).staff =
      place.staff.modify position fun worker => (change worker).bare := by
  apply List.ext_getElem?
  intro other
  rw [getElem?_staff, changeWorker, Array.getElem?_modify, List.getElem?_modify, getElem?_staff]
  cases place.workers[other]? with
  | none =>
      split <;> rfl
  | some worker =>
      split
      · exact congrArg some (hchange worker)
      · rfl

theorem Alike.changeWorker {place other : Workplace} (halike : place.Alike other)
    (position : Nat) {change : Worker → Worker}
    (hchange : ∀ worker, (change worker).bare = (change worker.bare).bare) :
    (place.changeWorker position change).Alike (other.changeWorker position change) := by
  refine ⟨halike.pipeline, ?_⟩
  rw [staff_modify _ _ hchange, staff_modify _ _ hchange, halike.staff]

theorem alike_callUp (place : Workplace) (position : Nat) :
    place.Alike (place.callUp position) := by
  unfold callUp
  split
  · split
    · exact ⟨rfl, rfl⟩
    · split <;> exact ⟨rfl, rfl⟩
  · split <;> exact ⟨rfl, rfl⟩

theorem alike_notify (place : Workplace) (position number : Nat) :
    place.Alike (place.notify position number) := by
  unfold notify
  split
  · have hready := place.alike_changeWorker position (·.bare_markReady number)
    exact hready.trans (alike_callUp ..)
  · exact .refl place

/-- One piece of bookkeeping after the other is bookkeeping. -/
theorem alike_foldl {α : Type} {keep : Workplace → α → Workplace}
    (hkeep : ∀ place item, Alike place (keep place item)) (items : List α) (place : Workplace) :
    place.Alike (items.foldl keep place) := by
  induction items generalizing place with
  | nil => exact .refl place
  | cons item items ih => exact (hkeep place item).trans (ih _)

theorem alike_tell (place : Workplace) (news : List News) : place.Alike (place.tell news) := by
  refine alike_foldl ?_ news place
  intro place item
  split
  · exact alike_notify ..
  · exact ⟨rfl, rfl⟩

theorem alike_resume? {place resumed : Workplace} (hresume : place.resume? = some resumed) :
    place.Alike resumed := by
  unfold resume? at hresume
  obtain ⟨-, hresumed⟩ := Option.ite_none_left_eq_some.mp hresume
  cases hresumed
  have hnobody : place.Alike { place with putOff := [] } := ⟨rfl, rfl⟩
  refine hnobody.trans (alike_foldl ?_ place.putOff _)
  intro place attendant
  cases attendant with
  | worker position => exact alike_callUp ..
  | job position number => exact alike_notify ..

theorem alike_ring (now : Nat) (place : Workplace) : place.Alike (place.ring now) := by
  refine alike_foldl ?_ _ place
  intro place alarm
  exact alike_notify ..

theorem alike_afterStep (place : Workplace) (submission : Submission) (pipeline : Pipeline) :
    ({ place with pipeline } : Workplace).Alike (place.afterStep submission pipeline) :=
  alike_tell ..

end Workplace

end Clearing
