import Mathlib.Data.List.Induction
import Mathlib.Data.List.Nodup
import Clearing.Proofs.Guard.Breaker

/-!
# The history of a breaker

A breaker does not know its calls: it counts admissions and hears outcomes, and
an outcome does not say whose it is.  Whether it treats its calls well can only be
said by someone who keeps track of them.

`Breaker.History` does.  Callers ask to be admitted, tell how an admitted call
ended, drop the permit of one, or let time pass; all of this in any order, and
calls may take as long as they like.  Calls are numbered as they are admitted, and
everything that is said about them is read off what has happened: who is in
flight, which calls belong to the current half-open period, what was told since
the breaker became closed.

## Strategy

A history only grows at its end, so what holds of all histories is proved by
`History.run_induction`: one case for the clock, one for somebody who asks, one for
an outcome that is told.
-/

namespace Clearing

namespace Breaker

/-- What callers do with a breaker. -/
inductive Use where
  /-- Somebody asks to be admitted. -/
  | ask
  /-- A call ends and tells how. -/
  | tell (call : Nat) (outcome : Outcome)
  /-- The permit of a call is dropped. -/
  | drop (call : Nat)
  /-- Time passes. -/
  | wait (millis : Nat)
  deriving DecidableEq

/-- What happens at a breaker. -/
inductive Event where
  | admitted (call : Nat)
  | rejected
  | told (call : Nat) (outcome : Outcome)
  deriving DecidableEq

namespace Event

def admitted? : Event → Option Nat
  | .admitted call => some call
  | _ => none

def told? : Event → Option (Nat × Outcome)
  | .told call outcome => some (call, outcome)
  | _ => none

end Event

/-- An event, and the state of the breaker before and after it. -/
structure Moment where
  event : Event
  before : BreakerState
  after : BreakerState
  deriving DecidableEq

/-! ## What is read off a stretch of moments -/

section Moments

variable (moments : List Moment)

/-- The calls that were admitted, the latest first. -/
def admissions : List Nat :=
  moments.filterMap (·.event.admitted?)

/-- The calls that ended, and how, the latest first. -/
def endings : List (Nat × Outcome) :=
  moments.filterMap (·.event.told?)

/-- The endings that say something about the called side. -/
def verdicts : List (Nat × Outcome) :=
  (endings moments).filter (·.2 ≠ .ignored)

variable {moments} (before after : BreakerState)

@[simp] theorem admissions_nil : admissions [] = [] := rfl

@[simp] theorem endings_nil : endings [] = [] := rfl

@[simp] theorem verdicts_nil : verdicts [] = [] := rfl

@[simp] theorem admissions_admitted (call : Nat) :
    admissions (⟨.admitted call, before, after⟩ :: moments) = call :: admissions moments := rfl

@[simp] theorem admissions_rejected :
    admissions (⟨.rejected, before, after⟩ :: moments) = admissions moments := rfl

@[simp] theorem admissions_told (call : Nat) (outcome : Outcome) :
    admissions (⟨.told call outcome, before, after⟩ :: moments) = admissions moments := rfl

@[simp] theorem endings_admitted (call : Nat) :
    endings (⟨.admitted call, before, after⟩ :: moments) = endings moments := rfl

@[simp] theorem endings_rejected :
    endings (⟨.rejected, before, after⟩ :: moments) = endings moments := rfl

@[simp] theorem endings_told (call : Nat) (outcome : Outcome) :
    endings (⟨.told call outcome, before, after⟩ :: moments) =
      (call, outcome) :: endings moments := rfl

@[simp] theorem verdicts_admitted (call : Nat) :
    verdicts (⟨.admitted call, before, after⟩ :: moments) = verdicts moments := rfl

@[simp] theorem verdicts_rejected :
    verdicts (⟨.rejected, before, after⟩ :: moments) = verdicts moments := rfl

@[simp] theorem verdicts_ignored (call : Nat) :
    verdicts (⟨.told call .ignored, before, after⟩ :: moments) = verdicts moments := rfl

theorem verdicts_told (call : Nat) {outcome : Outcome} (hverdict : outcome ≠ .ignored) :
    verdicts (⟨.told call outcome, before, after⟩ :: moments) =
      (call, outcome) :: verdicts moments := by
  simp [verdicts, hverdict]

theorem admissions_append (later earlier : List Moment) :
    admissions (later ++ earlier) = admissions later ++ admissions earlier :=
  List.filterMap_append

theorem mem_verdicts {ending : Nat × Outcome} :
    ending ∈ verdicts moments ↔ ending ∈ endings moments ∧ ending.2 ≠ .ignored := by
  simp [verdicts]

theorem length_verdicts :
    (verdicts moments).length =
      (verdicts moments).countP (·.2 = .success) + (verdicts moments).countP (·.2 = .failure) := by
  rw [List.length_eq_countP_add_countP (fun ending => decide (ending.2 = .success))]
  congr 1
  refine List.countP_congr fun ending hending => ?_
  have hverdict := (mem_verdicts.mp hending).2
  rcases ending with ⟨call, _ | _ | _⟩ <;> simp at hverdict ⊢

end Moments

/-! ## Histories -/

/-- A breaker in use: the time, and what has happened, the latest first. -/
structure History where
  breaker : Breaker
  now : Nat
  past : List Moment
  deriving DecidableEq

namespace History

/-- A new breaker, which nobody has used. -/
def begin (settings : BreakerSettings) : History :=
  { breaker := .new settings, now := 0, past := [] }

variable (history : History)

/-- The number of the next call that is admitted. -/
def next : Nat :=
  (admissions history.past).length

/-- A call was admitted and has not ended. -/
def InFlight (call : Nat) : Prop :=
  call ∈ admissions history.past ∧ call ∉ (endings history.past).map Prod.fst

instance (call : Nat) : Decidable (history.InFlight call) :=
  inferInstanceAs (Decidable (_ ∧ _))

/-- Something happens and the breaker becomes another. -/
def note (event : Event) (breaker : Breaker) : History :=
  { history with
    breaker
    past := ⟨event, history.breaker.state, breaker.state⟩ :: history.past }

@[simp] theorem breaker_note (event : Event) (breaker : Breaker) :
    (history.note event breaker).breaker = breaker := rfl

@[simp] theorem past_note (event : Event) (breaker : Breaker) :
    (history.note event breaker).past =
      ⟨event, history.breaker.state, breaker.state⟩ :: history.past := rfl

/-- Somebody asks to be admitted. -/
def ask : History :=
  let answer := history.breaker.acquire history.now
  history.note (if answer.2 then .admitted history.next else .rejected) answer.1

/-- The outcome of a call is told. -/
def hear (call : Nat) (outcome : Outcome) : History :=
  history.note (.told call outcome) (history.breaker.record history.now outcome)

@[simp] theorem breaker_ask :
    history.ask.breaker = (history.breaker.acquire history.now).1 := rfl

@[simp] theorem breaker_hear (call : Nat) (outcome : Outcome) :
    (history.hear call outcome).breaker = history.breaker.record history.now outcome := rfl

/-- What a use of the breaker leads to.  A permit can be used up once: nobody can tell the outcome
of a call that is not in flight. -/
def step (history : History) : Use → History
  | .ask => history.ask
  | .tell call outcome => if history.InFlight call then history.hear call outcome else history
  | .drop call => if history.InFlight call then history.hear call .ignored else history
  | .wait millis => { history with now := history.now + millis }

/-- What some uses lead to, one after the other. -/
def run (uses : List Use) : History :=
  uses.foldl step history

@[simp] theorem run_append (uses : List Use) (last : Use) :
    history.run (uses ++ [last]) = (history.run uses).step last := by
  simp [run]

/-- A history that begins with a new breaker. -/
def Reached (settings : BreakerSettings) (history : History) : Prop :=
  ∃ uses, history = (begin settings).run uses

section Reached

variable {settings : BreakerSettings} {history : History} (hreached : Reached settings history)

include hreached

theorem Reached.step (use : Use) : Reached settings (history.step use) := by
  obtain ⟨uses, rfl⟩ := hreached
  exact ⟨uses ++ [use], (run_append ..).symm⟩

theorem Reached.ask : Reached settings history.ask :=
  hreached.step .ask

theorem Reached.hear {call : Nat} (hflight : history.InFlight call) (outcome : Outcome) :
    Reached settings (history.hear call outcome) := by
  have hstep := hreached.step (.tell call outcome)
  rwa [History.step, if_pos hflight] at hstep

end Reached

/-- **What holds of all histories**: it holds at the beginning and is kept by the clock, by whoever
asks and by every outcome of a call in flight. -/
theorem run_induction {settings : BreakerSettings} {P : History → Prop}
    (hbegin : P (begin settings))
    (hwait : ∀ history millis, P history → P { history with now := history.now + millis })
    (hask : ∀ history, Reached settings history → P history → P history.ask)
    (hhear : ∀ history call outcome, Reached settings history → history.InFlight call →
      P history → P (history.hear call outcome)) (uses : List Use) :
    P ((begin settings).run uses) := by
  induction uses using List.reverseRecOn with
  | nil => exact hbegin
  | append_singleton uses last ih =>
      rw [run_append]
      cases last with
      | ask => exact hask _ ⟨uses, rfl⟩ ih
      | tell call outcome =>
          simp only [step]
          split
          · rename_i hflight
            exact hhear _ _ _ ⟨uses, rfl⟩ hflight ih
          · exact ih
      | drop call =>
          simp only [step]
          split
          · rename_i hflight
            exact hhear _ _ _ ⟨uses, rfl⟩ hflight ih
          · exact ih
      | wait millis => exact hwait _ _ ih

@[simp] theorem settings_run (settings : BreakerSettings) (uses : List Use) :
    ((begin settings).run uses).breaker.settings = settings := by
  refine run_induction (P := fun history => history.breaker.settings = settings) rfl
    (fun _ _ hsame => hsame) (fun history _ hsame => ?_)
    (fun history call outcome _ _ hsame => ?_) uses
  · exact (settings_acquire _ _).trans hsame
  · exact (settings_record _ _ _).trans hsame

theorem Reached.settings_eq {settings : BreakerSettings} {history : History}
    (hreached : Reached settings history) : history.breaker.settings = settings := by
  obtain ⟨uses, rfl⟩ := hreached
  exact settings_run settings uses

/-- A breaker that opens with the first failure, for a second, and has one trial call. -/
def touchy : BreakerSettings :=
  { windowSize := 1, minimumCalls := 1, failureThreshold := .ofNat 50, openMillis := 1000,
    halfOpenCalls := 1 }

/-! ## Periods -/

/-- The moments of the current half-open period, from the admission that began it. -/
def period : List Moment :=
  history.past.takeWhile (·.after.isHalfOpen)

/-- The moments before the current half-open period. -/
def beforePeriod : List Moment :=
  history.past.dropWhile (·.after.isHalfOpen)

/-- The calls that were admitted in the current half-open period. -/
def trials : List Nat :=
  admissions history.period

/-- The moments since the breaker became closed. -/
def sinceClosed : List Moment :=
  history.past.takeWhile (·.before = .closed)

theorem period_append_beforePeriod : history.period ++ history.beforePeriod = history.past :=
  List.takeWhile_append_dropWhile

variable {history}

theorem period_note_of_halfOpen {event : Event} {breaker : Breaker}
    (hafter : breaker.state.isHalfOpen) :
    (history.note event breaker).period =
      ⟨event, history.breaker.state, breaker.state⟩ :: history.period := by
  simp [period, note, hafter]

theorem sinceClosed_note_of_closed {event : Event} {breaker : Breaker}
    (hbefore : history.breaker.state = .closed) :
    (history.note event breaker).sinceClosed =
      ⟨event, history.breaker.state, breaker.state⟩ :: history.sinceClosed := by
  simp [sinceClosed, note, hbefore]

theorem sinceClosed_note_of_not_closed {event : Event} {breaker : Breaker}
    (hbefore : history.breaker.state ≠ .closed) :
    (history.note event breaker).sinceClosed = [] := by
  simp [sinceClosed, note, hbefore]

/-! ## Books -/

variable (history)

/-- The books are in order: the calls are numbered one after the other, only admitted calls have
ended, and the latest moment left the breaker as it is. -/
structure Sound : Prop where
  numbered : admissions history.past = (List.range history.next).reverse
  ended : ∀ ending ∈ endings history.past, ending.1 ∈ admissions history.past
  latest : ∀ moment ∈ history.past.head?, moment.after = history.breaker.state

variable {history}

theorem sound_run (settings : BreakerSettings) (uses : List Use) :
    ((begin settings).run uses).Sound := by
  refine run_induction ⟨rfl, by simp [begin], by simp [begin]⟩
    (fun _ _ hsound => ⟨hsound.numbered, hsound.ended, hsound.latest⟩)
    (fun history _ hsound => ?_) (fun history call outcome _ hflight hsound => ?_) uses
  · unfold ask
    dsimp only
    split
    · refine ⟨?_, ?_, by simp [note]⟩
      · simp only [note, next, admissions_admitted, List.length_cons, List.range_succ,
          List.reverse_append, List.reverse_singleton, List.singleton_append]
        exact congrArg _ hsound.numbered
      · simp only [note, admissions_admitted, endings_admitted]
        exact fun ending hending => List.mem_cons_of_mem _ (hsound.ended ending hending)
    · exact ⟨hsound.numbered, hsound.ended, by simp [note]⟩
  · refine ⟨hsound.numbered, ?_, by simp [hear, note]⟩
    simp only [hear, note, admissions_told, endings_told, List.forall_mem_cons]
    exact ⟨hflight.1, hsound.ended⟩

theorem Reached.sound {settings : BreakerSettings} (hreached : Reached settings history) :
    history.Sound := by
  obtain ⟨uses, rfl⟩ := hreached
  exact sound_run settings uses

namespace Sound

variable (hsound : history.Sound)

include hsound

theorem mem_admissions {call : Nat} : call ∈ admissions history.past ↔ call < history.next := by
  rw [hsound.numbered, List.mem_reverse, List.mem_range]

theorem nodup_admissions : (admissions history.past).Nodup := by
  rw [hsound.numbered]
  exact List.nodup_reverse.mpr List.nodup_range

theorem nodup_trials : history.trials.Nodup :=
  hsound.nodup_admissions.sublist
    ((List.takeWhile_sublist _).filterMap _)

theorem mem_trials_iff {call : Nat} (hadmitted : call ∈ admissions history.past) :
    call ∈ history.trials ↔ call ∉ admissions history.beforePeriod := by
  have hnodup := hsound.nodup_admissions
  rw [← history.period_append_beforePeriod, admissions_append] at hnodup hadmitted
  constructor
  · exact fun htrial hearly => (List.nodup_append.mp hnodup).2.2 call htrial call hearly rfl
  · exact (List.mem_append.mp hadmitted).resolve_right

theorem next_not_mem_trials : history.next ∉ history.trials := by
  intro htrial
  have hadmitted : history.next ∈ admissions history.past :=
    ((List.takeWhile_sublist _).filterMap _).subset htrial
  exact Nat.lt_irrefl _ (hsound.mem_admissions.mp hadmitted)

theorem next_not_ended : history.next ∉ (endings history.past).map Prod.fst := by
  intro hended
  obtain ⟨ending, hending, heq⟩ := List.mem_map.mp hended
  have hlt := hsound.mem_admissions.mp (hsound.ended ending hending)
  omega

theorem period_eq_nil (hstate : ¬ history.breaker.state.isHalfOpen) : history.period = [] := by
  unfold period
  cases hpast : history.past with
  | nil => rfl
  | cons moment past =>
      have hafter : moment.after = history.breaker.state :=
        hsound.latest moment (by rw [hpast]; rfl)
      rw [List.takeWhile_cons_of_neg (by rw [hafter]; exact hstate)]

end Sound

/-! ## Who is in flight -/

theorem inFlight_note_told {call other : Nat} {outcome : Outcome} {breaker : Breaker} :
    (history.note (.told call outcome) breaker).InFlight other ↔
      history.InFlight other ∧ other ≠ call := by
  simp only [InFlight, note, admissions_told, endings_told, List.map_cons, List.mem_cons, not_or]
  tauto

theorem inFlight_note_admitted (hsound : history.Sound) {call : Nat} {breaker : Breaker} :
    (history.note (.admitted history.next) breaker).InFlight call ↔
      call = history.next ∨ history.InFlight call := by
  simp only [InFlight, note, admissions_admitted, endings_admitted, List.mem_cons]
  constructor
  · rintro ⟨hnew | hold, hended⟩
    · exact .inl hnew
    · exact .inr ⟨hold, hended⟩
  · rintro (rfl | ⟨hold, hended⟩)
    · exact ⟨.inl rfl, hsound.next_not_ended⟩
    · exact ⟨.inr hold, hended⟩

end History

end Breaker

end Clearing
