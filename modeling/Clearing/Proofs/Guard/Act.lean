import Clearing.Guard.Call

/-!
# The actions of a guarded call

`GuardedCall.Act` lists what a guarded call can do in one action: one question
to one guard, one step of the operation, one thing given back.  That it can do
nothing else is `act_of_step?`, and it is the only place where the step function
is opened.

What an action says about a guard is written as a fact about the breaker or the
bulkhead, so that whoever follows one of them does not have to look at calls.
-/

namespace Clearing

variable {σ ω α : Type}

/-- The call is at a guard: what it holds of those before it, and which are ahead. -/
inductive Phase.At (held : List Hold) (position : Nat) (ahead : List Nat) : Phase ω α → Prop
  | asking : At held position ahead (.entering held (position :: ahead))
  | taking : At held position ahead (.taking held position ahead)
  | lining (latest : Nat) : At held position ahead (.lining held position ahead latest)
  | queued (ticket latest : Nat) :
      At held position ahead (.queued held position ahead ticket latest)

/-- What a call that is at a guard hears from its bulkhead when it asks for a slot. -/
inductive Phase.Hears (now : Nat) (held : List Hold) (position : Nat) (ahead : List Nat)
    (bulkhead : Bulkhead) (answer : Bulkhead.SlotAnswer × Bulkhead) : Phase ω α → Prop
  | first (hanswer : bulkhead.ask now = answer) :
      Hears now held position ahead bulkhead answer (.taking held position ahead)
  | line {latest : Nat} (hanswer : bulkhead.lineUp latest = answer) :
      Hears now held position ahead bulkhead answer (.lining held position ahead latest)
  | again {ticket latest : Nat} (hanswer : bulkhead.askAgain? now ticket latest = some answer) :
      Hears now held position ahead bulkhead answer (.queued held position ahead ticket latest)

/-- Where a call stands after the answer of a bulkhead. -/
def Phase.afterAnswer (held : List Hold) (position : Nat) (ahead : List Nat) (guard : Guard) :
    Bulkhead.SlotAnswer → Phase ω α
  | .taken => .entering (held ++ GuardedCall.holdsOf position) ahead
  | .refused => .leaving .ignored (.permit position :: held) (.error guard.full)
  | .mayWait latest => .lining held position ahead latest
  | .queued ticket latest => .queued held position ahead ticket latest

namespace GuardedCall

variable (protection : Protection) (operation : Operation σ ω α) (start : Nat → Nat → ω)

/-- The actions of a guarded call: on the guards, on what the operation works on, and on the
call. -/
inductive Act (now : Nat) :
    List Guard × σ × GuardedCall ω α → List Guard × σ × GuardedCall ω α → Prop
  /-- All guards are passed and the operation begins. -/
  | begin {guards : List Guard} {shared : σ} {attempt : Nat} {held : List Hold} :
      Act now (guards, shared, ⟨attempt, .entering held []⟩)
        (guards, shared, ⟨attempt, .operating held (start now attempt)⟩)
  /-- A guard that does not exist is passed. -/
  | skip {guards : List Guard} {shared : σ} {attempt position : Nat} {held : List Hold}
      {ahead : List Nat} {phase : Phase ω α} (hat : phase.At held position ahead)
      (hmissing : guards[position]? = none) :
      Act now (guards, shared, ⟨attempt, phase⟩)
        (guards, shared, ⟨attempt, .entering held ahead⟩)
  /-- A breaker admits the call. -/
  | admitted {guards : List Guard} {shared : σ} {attempt position : Nat} {held : List Hold}
      {ahead : List Nat} {guard : Guard} {breaker : Breaker}
      (hguard : guards[position]? = some guard)
      (hacquire : guard.breaker.acquire now = (breaker, true)) :
      Act now (guards, shared, ⟨attempt, .entering held (position :: ahead)⟩)
        (guards.set position { guard with breaker }, shared,
          ⟨attempt, .taking held position ahead⟩)
  /-- A breaker turns the call away. -/
  | rejected {guards : List Guard} {shared : σ} {attempt position : Nat} {held : List Hold}
      {ahead : List Nat} {guard : Guard} {breaker : Breaker}
      (hguard : guards[position]? = some guard)
      (hacquire : guard.breaker.acquire now = (breaker, false)) :
      Act now (guards, shared, ⟨attempt, .entering held (position :: ahead)⟩)
        (guards.set position { guard with breaker }, shared,
          ⟨attempt, .leaving .ignored held (.error guard.rejection)⟩)
  /-- A bulkhead answers. -/
  | answered {guards : List Guard} {shared : σ} {attempt position : Nat} {held : List Hold}
      {ahead : List Nat} {phase : Phase ω α} {guard : Guard} {answer : Bulkhead.SlotAnswer}
      {bulkhead : Bulkhead} (hguard : guards[position]? = some guard)
      (hhears : phase.Hears now held position ahead guard.bulkhead (answer, bulkhead)) :
      Act now (guards, shared, ⟨attempt, phase⟩)
        (guards.set position { guard with bulkhead }, shared,
          ⟨attempt, Phase.afterAnswer held position ahead guard answer⟩)
  /-- The operation makes a step. -/
  | operated {guards : List Guard} {shared next : σ} {attempt : Nat} {held : List Hold}
      {state later : ω} (hstep : operation.step? now shared state = some (next, later)) :
      Act now (guards, shared, ⟨attempt, .operating held state⟩)
        (guards, next, ⟨attempt, .operating held later⟩)
  /-- The operation has returned. -/
  | returned {guards : List Guard} {shared : σ} {attempt : Nat} {held : List Hold} {state : ω}
      {result : Except Failure α} (hstuck : operation.step? now shared state = none)
      (hending : operation.ending? state = some (.returned result)) :
      Act now (guards, shared, ⟨attempt, .operating held state⟩)
        (guards, shared, ⟨attempt, .leaving (.of result) held result⟩)
  /-- The operation was aborted. -/
  | aborted {guards : List Guard} {shared : σ} {attempt : Nat} {held : List Hold} {state : ω}
      {cause : Abort} (hstuck : operation.step? now shared state = none)
      (hending : operation.ending? state = some (.aborted cause)) :
      Act now (guards, shared, ⟨attempt, .operating held state⟩)
        (giveBackAll guards now .ignored held, shared, ⟨attempt, .finished (.aborted cause)⟩)
  /-- Something is given back. -/
  | gaveBack {guards : List Guard} {shared : σ} {attempt : Nat} {outcome : Outcome} {hold : Hold}
      {held : List Hold} {result : Except Failure α} :
      Act now (guards, shared, ⟨attempt, .leaving outcome (hold :: held) result⟩)
        (hold.giveBack guards now outcome, shared, ⟨attempt, .leaving outcome held result⟩)
  /-- Everything was given back. -/
  | settled {guards : List Guard} {shared : σ} {attempt : Nat} {outcome : Outcome}
      {result : Except Failure α} :
      Act now (guards, shared, ⟨attempt, .leaving outcome [] result⟩)
        (guards, shared, settle protection now ⟨attempt, .leaving outcome [] result⟩ result)
  /-- The next attempt begins. -/
  | backedOff {guards : List Guard} {shared : σ} {attempt wakes : Nat} (hwakes : wakes ≤ now) :
      Act now (guards, shared, ⟨attempt, .backingOff wakes⟩)
        (guards, shared, ⟨attempt + 1, .entering [] protection.path⟩)

variable {protection operation start}

private theorem act_of_answer {now attempt position : Nat} {guards after : List Guard}
    {shared next : σ} {held : List Hold} {ahead : List Nat} {phase : Phase ω α} {guard : Guard}
    {answer : Bulkhead.SlotAnswer} {bulkhead : Bulkhead} {later : GuardedCall ω α}
    (hguard : guards[position]? = some guard)
    (hhears : phase.Hears now held position ahead guard.bulkhead (answer, bulkhead))
    (hafter : some (guards.set position { guard with bulkhead }, shared,
      (⟨attempt, Phase.afterAnswer held position ahead guard answer⟩ : GuardedCall ω α)) =
        some (after, next, later)) :
    Act protection operation start now (guards, shared, ⟨attempt, phase⟩)
      (after, next, later) := by
  cases hafter
  exact .answered hguard hhears

/-- A call does nothing but these actions. -/
theorem act_of_step? {now : Nat} {guards after : List Guard} {shared next : σ}
    {call later : GuardedCall ω α}
    (hstep : call.step? protection operation start now guards shared = some (after, next, later)) :
    Act protection operation start now (guards, shared, call) (after, next, later) := by
  obtain ⟨attempt, phase⟩ := call
  cases phase with
  | entering held ahead =>
      cases ahead with
      | nil =>
          cases hstep
          exact .begin
      | cons position ahead =>
          simp only [step?] at hstep
          split at hstep
          · rename_i hmissing
            cases hstep
            exact .skip .asking hmissing
          · rename_i guard hguard
            rcases hacquire : guard.breaker.acquire now with ⟨breaker, admitted⟩
            rw [hacquire] at hstep
            cases admitted <;> cases hstep
            · exact .rejected hguard hacquire
            · exact .admitted hguard hacquire
  | taking held position ahead =>
      simp only [step?] at hstep
      split at hstep
      · rename_i hmissing
        cases hstep
        exact .skip .taking hmissing
      · rename_i guard hguard
        rcases htold : guard.bulkhead.ask now with ⟨answer, bulkhead⟩
        rw [htold] at hstep
        refine act_of_answer hguard (.first htold) ?_
        rw [← hstep]
        cases answer <;> rfl
  | lining held position ahead latest =>
      simp only [step?] at hstep
      split at hstep
      · rename_i hmissing
        cases hstep
        exact .skip (.lining latest) hmissing
      · rename_i guard hguard
        rcases htold : guard.bulkhead.lineUp latest with ⟨answer, bulkhead⟩
        rw [htold] at hstep
        refine act_of_answer hguard (.line htold) ?_
        rw [← hstep]
        cases answer <;> rfl
  | queued held position ahead ticket latest =>
      simp only [step?] at hstep
      split at hstep
      · rename_i hmissing
        cases hstep
        exact .skip (.queued ticket latest) hmissing
      · rename_i guard hguard
        obtain ⟨⟨answer, bulkhead⟩, hanswer, htold⟩ := Option.bind_eq_some_iff.mp hstep
        refine act_of_answer hguard (.again hanswer) ?_
        rw [← htold]
        cases answer <;> rfl
  | operating held state =>
      simp only [step?] at hstep
      split at hstep
      · rename_i hinner
        cases hstep
        exact .operated hinner
      · rename_i hstuck
        split at hstep
        · rename_i hending
          cases hstep
          exact .returned hstuck hending
        · rename_i hending
          cases hstep
          exact .aborted hstuck hending
        · cases hstep
  | leaving outcome held result =>
      cases held with
      | nil =>
          cases hstep
          exact .settled
      | cons hold held =>
          cases hstep
          exact .gaveBack
  | backingOff wakes =>
      simp only [step?] at hstep
      split at hstep
      · rename_i hwakes
        cases hstep
        exact .backedOff hwakes
      · cases hstep
  | finished ending => cases hstep

/-- A call has ended where its phase says so. -/
theorem ending?_eq_some_iff {call : GuardedCall ω α} {ending : Ending α} :
    call.ending? = some ending ↔ call.phase = .finished ending := by
  unfold ending?
  split <;> simp_all

end GuardedCall

end Clearing
