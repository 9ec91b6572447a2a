import Clearing.Proofs.Cache.Lookups
import Clearing.Proofs.Processing.Hearing

/-!
# How old an answer can be

Any number of customers and products are looked up at the same time, while the store
changes as it likes, is slow or fails.  Whoever is told something is told what the store
has answered to somebody who asked for the same, at that instant or less than a lifetime of
the cache ago; that there is no product is told only by the store itself; and a lookup that
gets no answer leaves nothing that others could notice (`Inquiries.answers_recent`).

A lookup that is given up takes no more steps.  What has expired can be removed by somebody
who found it before; it is `Inquiries.Event.sweep`.

## Strategy

The store's answers are written down with their time.  Every entry of the cache is backed
by one of them, given when the entry was put there (`Inquiries.Founded`): overlapping lookups
may overwrite each other's entries, but each entry comes with the time of its own answer.
-/

namespace Clearing

/-! ## One step of a lookup -/

/-- What a lookup has returned. -/
def LookupState.value? {α : Type} : LookupState α → Option α
  | .done ending => ending.value?
  | _ => none

namespace Lookup

variable {α : Type}

/-- What the store answers to a lookup in its next step. -/
def answer? (lookup : Lookup α) (now : Nat) (store : Store) : LookupState α → Option α
  | .asking request =>
    match lookup.request.operation.step? now store request with
    | some (_, .answered ending) => ending.value?
    | _ => none
  | _ => none

/-- What one step of a lookup can be. -/
inductive Act (lookup : Lookup α) (now : Nat) (before : Resources) :
    LookupState α → Resources → LookupState α → Prop
  /-- The cache had the answer. -/
  | recalled {answer : α} (hcached : (lookup.cached before.references now).1 = some answer) :
      Act lookup now before .looking
        { before with references := (lookup.cached before.references now).2 }
        (.done (.returned (.ok answer)))
  | missed :
      Act lookup now before .looking
        { before with references := (lookup.cached before.references now).2 }
        (.asking .arriving)
  /-- The store has answered. -/
  | answered {state : LookupState α} {store : Store} {answer : α}
      (hanswer : lookup.answer? now before.store state = some answer)
      (hledger : store.ledger = before.store.ledger) :
      Act lookup now before state
        { before with store, references := lookup.remember before.references now answer }
        (.done (.returned (.ok answer)))
  /-- The store was asked, and has not answered or has failed. -/
  | unanswered {state later : LookupState α} {store : Store}
      (hanswer : lookup.answer? now before.store state = none)
      (hledger : store.ledger = before.store.ledger) (hvalue : later.value? = none) :
      Act lookup now before state { before with store } later

theorem act_of_step? {lookup : Lookup α} {kind : RequestKind} {answer : Ledger → α}
    (hlaws : lookup.Laws kind answer) {now : Nat} {before after : Resources}
    {state later : LookupState α}
    (hstep : lookup.operation.step? now before state = some (after, later)) :
    lookup.Act now before state after later := by
  cases state with
  | looking =>
      simp only [operation] at hstep
      split at hstep
      · rename_i hcached
        cases hstep
        exact .recalled hcached
      · cases hstep
        exact .missed
  | asking request =>
      obtain ⟨⟨store, asked⟩, hasked, hheard⟩ := Option.map_eq_some_iff.mp hstep
      have hledger : store.ledger = before.store.ledger := by
        rw [hlaws.request] at hasked
        exact Request.keeps_ledger (fun _ _ => rfl) hasked
      dsimp only at hheard
      cases asked with
      | answered ending =>
          have hanswer : lookup.answer? now before.store (.asking request) = ending.value? := by
            simp only [answer?, hasked]
          rw [heard_answered] at hheard
          cases hvalue : ending.value? with
          | some value =>
              rw [hvalue] at hheard hanswer
              have hending : ending = .returned (.ok value) := by
                rcases ending with (failure | other) | cause <;> cases hvalue
                rfl
              cases hheard
              rw [hending]
              exact .answered hanswer hledger
          | none =>
              rw [hvalue] at hheard hanswer
              cases hheard
              exact .unanswered hanswer hledger hvalue
      | _ =>
          have hanswer : lookup.answer? now before.store (.asking request) = none := by
            simp only [answer?, hasked]
          cases hheard
          exact .unanswered hanswer hledger rfl
  | done ending => cases hstep

end Lookup

/-! ## Questions -/

/-- What can be asked about reference data. -/
inductive Question where
  | customer (id : Int)
  | product (code : String)
  deriving DecidableEq

namespace Question

/-- What is told about it. -/
abbrev Answer : Question → Type
  | .customer _ => Bool
  | .product _ => Option Product

/-- The lookup that a question leads to. -/
def lookup : (question : Question) → Lookup question.Answer
  | .customer id => .customerExists id
  | .product code => .product code

theorem act_of_step? {question : Question} {now : Nat} {before after : Resources}
    {state later : LookupState question.Answer}
    (hstep : question.lookup.operation.step? now before state = some (after, later)) :
    question.lookup.Act now before state after later := by
  cases question with
  | customer id => exact Lookup.act_of_step? (Lookup.laws_customerExists id) hstep
  | product code => exact Lookup.act_of_step? (Lookup.laws_product code) hstep

/-- What the cache tells. -/
def remembered? (question : Question) (cache : ReferenceCache) (now : Nat) :
    Option question.Answer :=
  (question.lookup.cached cache now).1

end Question

/-- Something that was told in answer to a question: to whom, and when. -/
structure Report where
  asker : Nat
  question : Question
  answer : question.Answer
  time : Nat

namespace ReferenceCache

/-- The rows are in order. -/
structure Ordered (cache : ReferenceCache) : Prop where
  customers : cache.customers.entries.Ascending
  products : cache.products.entries.Ascending

/-- Every entry is an answer that was written down when the entry was put there. -/
def Founded (cache : ReferenceCache) (lifetimeMillis : Nat) (heard : List Report) : Prop :=
  cache.Backed lifetimeMillis
    (fun id known since => ∃ asker, ⟨asker, .customer id, known, since⟩ ∈ heard)
    (fun code product since => ∃ asker, ⟨asker, .product code, some product, since⟩ ∈ heard)

variable {cache : ReferenceCache} {lifetimeMillis now : Nat} {heard : List Report}
  {question : Question}

section Ordered

variable (hordered : cache.Ordered)

include hordered

theorem Ordered.forget (question : Question) (now : Nat) :
    (question.lookup.cached cache now).2.Ordered := by
  cases question with
  | customer id => exact ⟨ExpiringCache.ascending_dropExpired hordered.customers, hordered.products⟩
  | product code =>
      exact ⟨hordered.customers, ExpiringCache.ascending_dropExpired hordered.products⟩

theorem Ordered.remember (question : Question) (now : Nat) (answer : question.Answer) :
    (question.lookup.remember cache now answer).Ordered := by
  cases question with
  | customer id => exact ⟨Table.ascending_insert hordered.customers, hordered.products⟩
  | product code =>
      cases answer with
      | none => exact hordered
      | some product => exact ⟨hordered.customers, Table.ascending_insert hordered.products⟩

/-- Nobody sees later whether what had expired was dropped. -/
theorem Ordered.remembered?_forget {later : Nat} (hlater : now ≤ later) (other : Question) :
    other.remembered? (question.lookup.cached cache now).2 later =
      other.remembered? cache later := by
  cases question with
  | customer id =>
      cases other with
      | customer other => exact ExpiringCache.look?_dropExpired hordered.customers hlater other
      | product other => rfl
  | product code =>
      cases other with
      | customer other => rfl
      | product other =>
          exact congrArg (Option.map some)
            (ExpiringCache.look?_dropExpired hordered.products hlater other)

end Ordered

namespace Founded

variable (hfounded : cache.Founded lifetimeMillis heard)

include hfounded

theorem mono {more : List Report} (hmore : ∀ report ∈ heard, report ∈ more) :
    cache.Founded lifetimeMillis more :=
  Backed.mono hfounded (fun _ _ _ ⟨asker, hheard⟩ => ⟨asker, hmore _ hheard⟩)
    fun _ _ _ ⟨asker, hheard⟩ => ⟨asker, hmore _ hheard⟩

theorem forget (question : Question) (now : Nat) :
    (question.lookup.cached cache now).2.Founded lifetimeMillis heard := by
  cases question with
  | customer id => exact Backed.forgetCustomer hfounded id
  | product code => exact Backed.forgetProduct hfounded code

theorem remember {answer : question.Answer} {asker : Nat}
    (hheard : ⟨asker, question, answer, now⟩ ∈ heard) :
    (question.lookup.remember cache now answer).Founded lifetimeMillis heard := by
  cases question with
  | customer id => exact Backed.putCustomer hfounded ⟨asker, hheard⟩
  | product code =>
      refine Backed.putProduct hfounded fun product hproduct => ⟨asker, ?_⟩
      rwa [← hproduct]

/-- The cache tells what was answered less than a lifetime ago. -/
theorem exists_of_remembered? {answer : question.Answer}
    (hremembered : question.remembered? cache now = some answer) :
    ∃ asker since, ⟨asker, question, answer, since⟩ ∈ heard ∧ now < since + lifetimeMillis := by
  cases question with
  | customer id =>
      obtain ⟨since, ⟨asker, hheard⟩, hfresh⟩ := Backed.getCustomer hfounded hremembered
      exact ⟨asker, since, hheard, hfresh⟩
  | product code =>
      obtain ⟨product, since, rfl, ⟨asker, hheard⟩, hfresh⟩ :=
        Backed.getProduct hfounded hremembered
      exact ⟨asker, since, hheard, hfresh⟩

omit hfounded in
/-- That there is no product is nothing that the cache could tell. -/
theorem remembered?_product_ne (cache : ReferenceCache) (now : Nat) (code : String) :
    (Question.product code).remembered? cache now ≠ some none := by
  intro hremembered
  obtain ⟨product, -, hproduct⟩ := Option.map_eq_some_iff.mp hremembered
  cases hproduct

end Founded

end ReferenceCache

/-! ## Many lookups -/

/-- Somebody who asks a question, and how far the lookup is. -/
structure Inquirer where
  question : Question
  state : LookupState question.Answer

/-- Lookups at the same time. -/
structure Inquiries where
  now : Nat
  resources : Resources
  inquirers : List Inquirer
  /-- What the store has answered, the latest first. -/
  heard : List Report
  /-- What the lookups have returned, the latest first. -/
  told : List Report

namespace Inquiries

/-- What can happen. -/
inductive Event where
  /-- Time passes. -/
  | wait (millis : Nat)
  /-- The store becomes another: its answers, and how slow or broken it is. -/
  | change (store : Store)
  /-- One more lookup begins. -/
  | ask (question : Question)
  /-- A lookup takes its next step. -/
  | go (asker : Nat)
  /-- The entry of a key is removed, if it has expired. -/
  | sweep (question : Question)

/-- An answer, if there is one, as something that was told. -/
def reports (asker : Nat) (question : Question) (answer? : Option question.Answer) (time : Nat) :
    List Report :=
  answer?.toList.map fun answer => { asker, question, answer, time }

/-- Nobody has asked, and the cache is empty. -/
def begin (store : Store) (summaries : SummaryCache) (lifetimeMillis : Nat) : Inquiries :=
  { now := 0
    resources := { store, references := .empty lifetimeMillis, summaries }
    inquirers := []
    heard := []
    told := [] }

variable (inquiries : Inquiries)

/-- What an event leads to. -/
def step : Event → Inquiries
  | .wait millis => { inquiries with now := inquiries.now + millis }
  | .change store => { inquiries with resources := { inquiries.resources with store } }
  | .ask question =>
    { inquiries with inquirers := inquiries.inquirers ++ [{ question, state := .looking }] }
  | .go asker =>
    match inquiries.inquirers[asker]? with
    | none => inquiries
    | some ⟨question, state⟩ =>
      match question.lookup.operation.step? inquiries.now inquiries.resources state with
      | none => inquiries
      | some (resources, later) =>
        { now := inquiries.now
          resources
          inquirers := inquiries.inquirers.set asker ⟨question, later⟩
          heard := reports asker question
            (question.lookup.answer? inquiries.now inquiries.resources.store state)
              inquiries.now ++ inquiries.heard
          told := reports asker question later.value? inquiries.now ++ inquiries.told }
  | .sweep question =>
    { inquiries with
      resources := { inquiries.resources with
        references := (question.lookup.cached inquiries.resources.references inquiries.now).2 } }

/-- What some events lead to, one after the other. -/
def run (events : List Event) : Inquiries :=
  events.foldl step inquiries

/-- Others see the same as before: the store would answer the same, and the cache tells the same,
now and later. -/
structure Unnoticed (after : Inquiries) : Prop where
  ledger : after.resources.store.ledger = inquiries.resources.store.ledger
  remembered? (question : Question) {later : Nat} (hlater : inquiries.now ≤ later) :
    question.remembered? after.resources.references later =
      question.remembered? inquiries.resources.references later

/-- What holds at all times: the cache is founded on what the store has answered, and so is what
was told. -/
structure Sound (lifetimeMillis : Nat) : Prop where
  ordered : inquiries.resources.references.Ordered
  founded : inquiries.resources.references.Founded lifetimeMillis inquiries.heard
  heard_le : ∀ report ∈ inquiries.heard, report.time ≤ inquiries.now
  told : ∀ report ∈ inquiries.told, ∃ asker since,
    ⟨asker, report.question, report.answer, since⟩ ∈ inquiries.heard ∧ since ≤ report.time ∧
      (since = report.time ∨ report.time < since + lifetimeMillis)
  missing : ∀ asker code time, ⟨asker, .product code, none, time⟩ ∈ inquiries.told →
    ⟨asker, .product code, none, time⟩ ∈ inquiries.heard

variable {inquiries : Inquiries} {lifetimeMillis : Nat}

theorem sound_begin (store : Store) (summaries : SummaryCache) (lifetimeMillis : Nat) :
    (begin store summaries lifetimeMillis).Sound lifetimeMillis where
  ordered := ⟨.nil, .nil⟩
  founded := ReferenceCache.backed_empty ..
  heard_le := nofun
  told := nofun
  missing := nofun

namespace Sound

variable (hsound : inquiries.Sound lifetimeMillis)

include hsound

/-- A lookup was told what the cache had. -/
theorem recalled {asker : Nat} {question : Question} {answer : question.Answer}
    {after : Inquiries}
    (hremembered : question.remembered? inquiries.resources.references inquiries.now = some answer)
    (hreferences : after.resources.references =
      (question.lookup.cached inquiries.resources.references inquiries.now).2)
    (hnow : after.now = inquiries.now) (hheard : after.heard = inquiries.heard)
    (htold : after.told = ⟨asker, question, answer, inquiries.now⟩ :: inquiries.told) :
    after.Sound lifetimeMillis where
  ordered := hreferences ▸ hsound.ordered.forget question inquiries.now
  founded := by
    rw [hreferences, hheard]
    exact hsound.founded.forget question inquiries.now
  heard_le := by
    rw [hheard, hnow]
    exact hsound.heard_le
  told := by
    rw [hheard, htold]
    refine List.forall_mem_cons.mpr ⟨?_, hsound.told⟩
    obtain ⟨other, since, hsince, hfresh⟩ := hsound.founded.exists_of_remembered? hremembered
    exact ⟨other, since, hsince, hsound.heard_le _ hsince, .inr hfresh⟩
  missing := by
    rw [hheard, htold]
    intro other code time hmem
    rcases List.mem_cons.mp hmem with hnew | hold
    · cases hnew
      exact absurd hremembered (ReferenceCache.Founded.remembered?_product_ne _ _ _)
    · exact hsound.missing other code time hold

/-- A lookup was told what the store answered. -/
theorem answered {asker : Nat} {question : Question} {answer : question.Answer}
    {after : Inquiries}
    (hreferences : after.resources.references =
      question.lookup.remember inquiries.resources.references inquiries.now answer)
    (hnow : after.now = inquiries.now)
    (hheard : after.heard = ⟨asker, question, answer, inquiries.now⟩ :: inquiries.heard)
    (htold : after.told = ⟨asker, question, answer, inquiries.now⟩ :: inquiries.told) :
    after.Sound lifetimeMillis := by
  have hmore : ∀ report ∈ inquiries.heard, report ∈ after.heard := fun report hreport =>
    hheard ▸ List.mem_cons_of_mem _ hreport
  have hnew : ⟨asker, question, answer, inquiries.now⟩ ∈ after.heard :=
    hheard ▸ List.mem_cons_self
  refine ⟨?_, ?_, ?_, ?_, ?_⟩
  · exact hreferences ▸ hsound.ordered.remember question inquiries.now answer
  · exact hreferences ▸ (hsound.founded.mono hmore).remember hnew
  · rw [hheard, hnow]
    exact List.forall_mem_cons.mpr ⟨Nat.le_refl _, hsound.heard_le⟩
  · rw [htold]
    refine List.forall_mem_cons.mpr ⟨⟨asker, inquiries.now, hnew, Nat.le_refl _, .inl rfl⟩, ?_⟩
    intro report hreport
    obtain ⟨other, since, hsince, hrecent⟩ := hsound.told report hreport
    exact ⟨other, since, hmore _ hsince, hrecent⟩
  · rw [htold]
    intro other code time hmem
    rcases List.mem_cons.mp hmem with hsame | hold
    · rw [hsame]
      exact hnew
    · exact hmore _ (hsound.missing other code time hold)

/-- Nobody was told anything. -/
theorem quiet {after : Inquiries}
    (hreferences : after.resources.references = inquiries.resources.references ∨
      ∃ question : Question, after.resources.references =
        (question.lookup.cached inquiries.resources.references inquiries.now).2)
    (hnow : inquiries.now ≤ after.now) (hheard : after.heard = inquiries.heard)
    (htold : after.told = inquiries.told) : after.Sound lifetimeMillis where
  ordered := by
    rcases hreferences with hsame | ⟨question, hforgot⟩
    · exact hsame ▸ hsound.ordered
    · exact hforgot ▸ hsound.ordered.forget question inquiries.now
  founded := by
    rw [hheard]
    rcases hreferences with hsame | ⟨question, hforgot⟩
    · exact hsame ▸ hsound.founded
    · exact hforgot ▸ hsound.founded.forget question inquiries.now
  heard_le := by
    rw [hheard]
    exact fun report hreport => Nat.le_trans (hsound.heard_le report hreport) hnow
  told := by
    rw [hheard, htold]
    exact hsound.told
  missing := by
    rw [hheard, htold]
    exact hsound.missing

theorem go (asker : Nat) : (inquiries.step (.go asker)).Sound lifetimeMillis := by
  simp only [step]
  split
  · exact hsound
  · rename_i question state hasker
    split
    · exact hsound
    · rename_i resources later hstep
      cases question.act_of_step? hstep with
      | recalled hcached => exact hsound.recalled hcached rfl rfl rfl rfl
      | missed => exact hsound.quiet (.inr ⟨question, rfl⟩) (Nat.le_refl _) rfl rfl
      | answered hanswer => exact hsound.answered rfl rfl (by rw [hanswer]; rfl) rfl
      | unanswered hanswer hledger hvalue =>
          exact hsound.quiet (.inl rfl) (Nat.le_refl _) (by rw [hanswer]; rfl) (by rw [hvalue]; rfl)

theorem step (event : Event) : (inquiries.step event).Sound lifetimeMillis := by
  cases event with
  | wait millis => exact hsound.quiet (.inl rfl) (Nat.le_add_right _ _) rfl rfl
  | change store => exact hsound.quiet (.inl rfl) (Nat.le_refl _) rfl rfl
  | ask question => exact hsound.quiet (.inl rfl) (Nat.le_refl _) rfl rfl
  | go asker => exact hsound.go asker
  | sweep question => exact hsound.quiet (.inr ⟨question, rfl⟩) (Nat.le_refl _) rfl rfl

theorem run (events : List Event) : (inquiries.run events).Sound lifetimeMillis := by
  induction events generalizing inquiries with
  | nil => exact hsound
  | cons event events ih => exact ih (hsound.step event)

end Sound

/-! ## What others notice -/

section Ordered

variable (hordered : inquiries.resources.references.Ordered)

include hordered

theorem unnoticed_sweep (question : Question) :
    inquiries.Unnoticed (inquiries.step (.sweep question)) :=
  ⟨rfl, fun other _ hlater => hordered.remembered?_forget hlater other⟩

/-- A step after which a lookup has no answer is unnoticed. -/
theorem unnoticed_go {asker : Nat}
    (hnone : ∀ inquirer, (inquiries.step (.go asker)).inquirers[asker]? = some inquirer →
      inquirer.state.value? = none) : inquiries.Unnoticed (inquiries.step (.go asker)) := by
  simp only [step] at hnone ⊢
  split at hnone
  · exact ⟨rfl, fun _ _ _ => rfl⟩
  · rename_i question state hasker
    split at hnone
    · exact ⟨rfl, fun _ _ _ => rfl⟩
    · rename_i resources later hstep
      have hlater : later.value? = none :=
        hnone ⟨question, later⟩ (List.getElem?_set_self (List.getElem?_eq_some_iff.mp hasker).1)
      cases question.act_of_step? hstep with
      | recalled => cases hlater
      | missed => exact ⟨rfl, fun other _ hlater => hordered.remembered?_forget hlater other⟩
      | answered => cases hlater
      | unanswered hanswer hledger => exact ⟨hledger, fun _ _ _ => rfl⟩

end Ordered

/-- **Answers are recent.**  Whatever the store does, and in whatever order customers and products
are looked up: whoever is told something is told what the store has answered to the same question
then, or less than a lifetime of the cache before; that there is no product is the store's own
answer to whoever is told so; and a lookup that has no answer after a step, as one that fails never
has, has done nothing that others notice. -/
theorem answers_recent (store : Store) (summaries : SummaryCache) (lifetimeMillis : Nat)
    (events : List Event) :
    let inquiries := (begin store summaries lifetimeMillis).run events
    (∀ report ∈ inquiries.told, ∃ asker since,
      ⟨asker, report.question, report.answer, since⟩ ∈ inquiries.heard ∧ since ≤ report.time ∧
        (since = report.time ∨ report.time - since < lifetimeMillis)) ∧
    (∀ asker code time, ⟨asker, .product code, none, time⟩ ∈ inquiries.told →
      ⟨asker, .product code, none, time⟩ ∈ inquiries.heard) ∧
    (∀ asker, (∀ inquirer, (inquiries.step (.go asker)).inquirers[asker]? = some inquirer →
      inquirer.state.value? = none) → inquiries.Unnoticed (inquiries.step (.go asker))) ∧
    ∀ question, inquiries.Unnoticed (inquiries.step (.sweep question)) := by
  intro inquiries
  have hsound : inquiries.Sound lifetimeMillis :=
    (sound_begin store summaries lifetimeMillis).run events
  refine ⟨fun report hreport => ?_, hsound.missing, fun asker hnone => ?_, ?_⟩
  · obtain ⟨asker, since, hheard, hsince, hrecent⟩ := hsound.told report hreport
    exact ⟨asker, since, hheard, hsince, hrecent.imp_right fun hfresh => by omega⟩
  · exact unnoticed_go hsound.ordered hnone
  · exact unnoticed_sweep hsound.ordered

/-- Two lookups of a customer overlap, between the answers of which it turns up; a third one is
answered by the cache. -/
def overlapping : List Event :=
  [.ask (.customer 1), .ask (.customer 1), .go 0, .go 1, .go 0, .go 1, .go 0,
    .change (.of .oneOfEach), .wait 3, .go 1, .ask (.customer 1), .wait 4, .go 2]

/-- The third one is told what the second one was told by the store. -/
theorem answers_recent_overlapping :
    let inquiries := (begin (.of (.empty .initial)) (.empty 5) 5).run overlapping
    ⟨2, .customer 1, true, 7⟩ ∈ inquiries.told ∧
      ∃ asker since, ⟨asker, .customer 1, true, since⟩ ∈ inquiries.heard ∧ 7 - since < 5 := by
  intro inquiries
  have htold : inquiries.told =
      [⟨2, .customer 1, true, 7⟩, ⟨1, .customer 1, true, 3⟩, ⟨0, .customer 1, false, 0⟩] := rfl
  have hmem : ⟨2, .customer 1, true, 7⟩ ∈ inquiries.told := htold ▸ List.mem_cons_self
  obtain ⟨asker, since, hheard, -, hrecent⟩ :=
    (answers_recent (.of (.empty .initial)) (.empty 5) 5 overlapping).1 _ hmem
  exact ⟨hmem, asker, since, hheard, by dsimp only at hrecent; omega⟩

end Inquiries

end Clearing
