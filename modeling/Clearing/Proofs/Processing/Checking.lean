import Clearing.Proofs.Processing.Consulting

/-!
# What a check comes to, and when

A check comes to what its consultation says, after the time that the lookups take
(`validation_reaches`), and only waits before that (`validation_waits`).  Under a deadline it
therefore comes to the same if the lookups that it needs take no longer than the limit, and
runs out of time exactly at the limit if they do (`timedValidation_comesTo`).
-/

namespace Clearing

/-! ## The course of a check -/

section Course

variable {clock : Nat → Timestamp} {transaction : Transaction} {now limitMillis : Nat}
  {resources : Resources}

theorem validation_hosts_customer (clock : Nat → Timestamp) (transaction : Transaction) :
    (validation clock (some transaction)).Hosts
      (Lookup.customerExists transaction.customer).operation id CheckState.customer where
  step hstep := by
    simp only [validation, id_eq, hstep]
  still hstep hending := by
    simp only [validation, id_eq, hstep, hending, Option.map_none]
  running _ := rfl
  alarms _ := rfl

theorem validation_hosts_product (clock : Nat → Timestamp) (transaction : Transaction) :
    (validation clock (some transaction)).Hosts
      (Lookup.product transaction.product).operation id CheckState.product where
  step hstep := by
    simp only [validation, id_eq, hstep]
  still hstep hending := by
    simp only [validation, id_eq, hstep, hending, Option.map_none]
  running _ := rfl
  alarms _ := rfl

/-- A check begins with the customer. -/
theorem validation_advances_customer (clock : Nat → Timestamp) (transaction : Transaction)
    (now : Nat) (resources : Resources) :
    (validation clock (some transaction)).Advances ⟨now, resources, .starting⟩
      ⟨now, resources, .customer .looking⟩ :=
  .acts rfl

/-- An unknown customer, or no answer about it, ends the check. -/
theorem CheckState.afterCustomer_eq {customer : Hearing Bool}
    (hunknown : customer.ending.value? ≠ some true) (clock : Timestamp) :
    CheckState.afterCustomer transaction customer.ending =
      .done ((Consultation.mk (some customer) none).ending (some transaction) clock) := by
  obtain ⟨asked, millis, ending⟩ := customer
  rcases ending with (failure | known) | cause
  · rfl
  · cases known with
    | true => exact absurd rfl hunknown
    | false =>
        have hverdict : Rule.verdict (some transaction) ⟨false, none, clock⟩ =
            .error (.unknownCustomer transaction.customer) :=
          Rule.verdict_of_unknown transaction rfl
        exact congrArg (fun verdict => CheckState.done (.returned (verdict.mapError .validation)))
          hverdict.symm
  · rfl

theorem CheckState.afterCustomer_of_known {ending : Ending Bool}
    (hknown : ending.value? = some true) :
    CheckState.afterCustomer transaction ending = .product .looking := by
  rcases ending with (failure | known) | cause
  · cases hknown
  · cases hknown
    rfl
  · cases hknown

/-- Once the customer is known what is heard of the product ends the check. -/
theorem CheckState.afterProduct_eq {customer : Hearing Bool} {product : Hearing (Option Product)}
    (hknown : customer.ending.value? = some true) (clock : Timestamp) :
    CheckState.afterProduct transaction clock product.ending =
      .done ((Consultation.mk (some customer) (some product)).ending (some transaction) clock) := by
  obtain ⟨asked, millis, ending⟩ := customer
  obtain ⟨productAsked, productMillis, productEnding⟩ := product
  rcases ending with (failure | known) | cause
  · cases hknown
  · cases hknown
    rcases productEnding with (failure | found) | cause
    · rfl
    · have hverdict : transaction.checkAgainst found clock =
          Rule.verdict (some transaction) ⟨true, found, clock⟩ :=
        @Rule.checkAgainst_eq ⟨true, found, clock⟩ transaction rfl
      exact congrArg (fun verdict => CheckState.done (.returned (verdict.mapError .validation)))
        hverdict
    · rfl
  · cases hknown

theorem validation_reaches_customer (clock : Nat → Timestamp) (transaction : Transaction)
    (now : Nat) (resources : Resources) :
    (validation clock (some transaction)).Reaches ⟨now, resources, .starting⟩
      ⟨now + ((Lookup.customerExists transaction.customer).hearing now resources).millis,
        (Lookup.customerExists transaction.customer).informed now resources,
        .afterCustomer transaction
          ((Lookup.customerExists transaction.customer).hearing now resources).ending⟩ := by
  have hheard := (validation_hosts_customer clock transaction).reaches
    ((Lookup.laws_customerExists transaction.customer).reaches now resources)
  exact .head (validation_advances_customer clock transaction now resources)
    (hheard.tail (.acts rfl))

theorem validation_reaches_product (clock : Nat → Timestamp) (transaction : Transaction)
    (now : Nat) (resources : Resources) :
    (validation clock (some transaction)).Reaches ⟨now, resources, .product .looking⟩
      ⟨now + ((Lookup.product transaction.product).hearing now resources).millis,
        (Lookup.product transaction.product).informed now resources,
        .afterProduct transaction
          (clock (now + ((Lookup.product transaction.product).hearing now resources).millis))
          ((Lookup.product transaction.product).hearing now resources).ending⟩ := by
  have hheard := (validation_hosts_product clock transaction).reaches
    ((Lookup.laws_product transaction.product).reaches now resources)
  exact hheard.tail (.acts rfl)

/-- **A check comes to what its lookups and the rules say, after the time that the lookups
take.** -/
theorem validation_reaches (clock : Nat → Timestamp) (transaction : Option Transaction)
    (now limitMillis : Nat) (resources : Resources)
    (htime : (Consultation.of transaction now resources).millis ≤ limitMillis) :
    (validation clock transaction).Reaches ⟨now, resources, .starting⟩
      ⟨now + (Consultation.of transaction now resources).millis,
        Consultation.left transaction now limitMillis resources,
        .done ((Consultation.of transaction now resources).ending transaction
          (clock (now + (Consultation.of transaction now resources).millis)))⟩ := by
  cases transaction with
  | none => exact .single (.acts rfl)
  | some transaction =>
      have hcustomer := validation_reaches_customer clock transaction now resources
      by_cases hknown : ((Lookup.customerExists transaction.customer).hearing now
          resources).ending.value? = some true
      · -- the product is looked up behind the customer
        rw [Consultation.of_of_known hknown, Consultation.millis_pair] at htime ⊢
        have hfirst := Nat.le_trans (Nat.le_add_right _ _) htime
        have hproduct := validation_reaches_product clock transaction
          (now + ((Lookup.customerExists transaction.customer).hearing now resources).millis)
          ((Lookup.customerExists transaction.customer).informed now resources)
        rw [Lookup.hearing_product_informed, CheckState.afterProduct_eq hknown] at hproduct
        rw [CheckState.afterCustomer_of_known hknown] at hcustomer
        rw [Consultation.left_of_known hknown hfirst, Lookup.left_of_le, ← Nat.add_assoc]
        · exact hcustomer.trans hproduct
        · rw [Lookup.hearing_product_informed]
          omega
      · rw [CheckState.afterCustomer_eq hknown (clock (now + (Consultation.of (some transaction) now
          resources).millis))] at hcustomer
        rw [Consultation.of_of_unknown hknown] at htime hcustomer ⊢
        rw [Consultation.left_of_unknown hknown, Lookup.left_of_le htime]
        exact hcustomer

/-- **Before that a check only waits**: if its lookups take longer than the limit, it is still
waiting when the limit is reached. -/
theorem validation_waits (clock : Nat → Timestamp) (transaction : Option Transaction)
    (now limitMillis : Nat) (resources : Resources)
    (hlate : limitMillis < (Consultation.of transaction now resources).millis) :
    ∃ time state, time ≤ now + limitMillis ∧
      (validation clock transaction).Reaches ⟨now, resources, .starting⟩
        ⟨time, Consultation.left transaction now limitMillis resources, state⟩ ∧
      (validation clock transaction).Idle (now + limitMillis)
        (Consultation.left transaction now limitMillis resources) state := by
  cases transaction with
  | none => exact absurd hlate (Nat.not_lt_zero limitMillis)
  | some transaction =>
      by_cases hfirst : limitMillis <
          ((Lookup.customerExists transaction.customer).hearing now resources).millis
      · obtain ⟨state, hreaches, hidle⟩ := (Lookup.laws_customerExists transaction.customer).waits
          now resources (Nat.add_lt_add_left hfirst now) (Nat.le_add_right now limitMillis)
        rw [Consultation.left_of_lt hfirst]
        refine ⟨now, .customer state, Nat.le_add_right now limitMillis, ?_,
          (validation_hosts_customer clock transaction).idle hidle⟩
        exact .head (validation_advances_customer clock transaction now resources)
          ((validation_hosts_customer clock transaction).reaches hreaches)
      · have htime := Nat.le_of_not_lt hfirst
        by_cases hknown : ((Lookup.customerExists transaction.customer).hearing now
            resources).ending.value? = some true
        · -- the customer was heard of in time, and the product is not
          have hcustomer := validation_reaches_customer clock transaction now resources
          rw [CheckState.afterCustomer_of_known hknown] at hcustomer
          rw [Consultation.of_of_known hknown, Consultation.millis_pair,
            ← Lookup.hearing_product_informed transaction.product transaction.customer now] at hlate
          obtain ⟨state, hreaches, hidle⟩ := (Lookup.laws_product transaction.product).waits
            (now + ((Lookup.customerExists transaction.customer).hearing now resources).millis)
            ((Lookup.customerExists transaction.customer).informed now resources)
            (by omega) (Nat.add_le_add_left htime now)
          rw [Consultation.left_of_known hknown htime, Lookup.left_of_lt (by omega)]
          exact ⟨_, .product state, Nat.add_le_add_left htime now,
            hcustomer.trans ((validation_hosts_product clock transaction).reaches hreaches),
            (validation_hosts_product clock transaction).idle hidle⟩
        · rw [Consultation.of_of_unknown hknown] at hlate
          exact absurd hlate hfirst

end Course

/-! ## Checks under a deadline -/

section Deadline

variable {clock : Nat → Timestamp} {transaction : Option Transaction} {now limitMillis : Nat}
  {resources : Resources}

/-- A check that takes no longer than it may comes to its end. -/
theorem timedValidation_reaches_of_le (clock : Nat → Timestamp)
    (htime : (Consultation.of transaction now resources).millis ≤ limitMillis) :
    (timedValidation clock limitMillis transaction).Reaches
      ⟨now, resources, .start now limitMillis .starting⟩
      ⟨now + (Consultation.of transaction now resources).millis,
        Consultation.left transaction now limitMillis resources,
        ⟨.done ((Consultation.of transaction now resources).ending transaction
            (clock (now + (Consultation.of transaction now resources).millis))),
          now + limitMillis, false⟩⟩ :=
  (validation_reaches clock transaction now limitMillis resources htime).timed
    (Nat.add_le_add_left htime now)

/-- Any other check is cut short when its time is over. -/
theorem timedValidation_reaches_of_lt (clock : Nat → Timestamp)
    (hlate : limitMillis < (Consultation.of transaction now resources).millis) :
    ∃ state, (timedValidation clock limitMillis transaction).Reaches
      ⟨now, resources, .start now limitMillis .starting⟩
      ⟨now + limitMillis, Consultation.left transaction now limitMillis resources,
        ⟨state, now + limitMillis, true⟩⟩ := by
  obtain ⟨time, state, htime, hreaches, hidle⟩ :=
    validation_waits clock transaction now limitMillis resources hlate
  exact ⟨state, (hreaches.timed htime).trans (hidle.elapses htime validationStage limitMillis)⟩

theorem Ending.failure?_ne_ok {α β : Type} (ending : Ending α) (value : β) :
    ending.failure? ≠ some (.returned (.ok value)) := by
  rcases ending with (failure | value) | cause <;> nofun

namespace Consultation

theorem failure?_ne_ok (consultation : Consultation) :
    consultation.failure? ≠ some (.returned (.ok ())) := by
  intro hfailure
  rcases Option.or_eq_some_iff.mp hfailure with hcustomer | ⟨-, hproduct⟩
  · obtain ⟨hearing, -, hending⟩ := Option.bind_eq_some_iff.mp hcustomer
    exact hearing.ending.failure?_ne_ok () hending
  · obtain ⟨hearing, -, hending⟩ := Option.bind_eq_some_iff.mp hproduct
    exact hearing.ending.failure?_ne_ok () hending

theorem ending_eq_ok_iff {consultation : Consultation} {clock : Timestamp} :
    consultation.ending transaction clock = .returned (.ok ()) ↔
      consultation.failure? = none ∧ Rule.Satisfied transaction (consultation.findings clock) := by
  rw [ending, ← Rule.verdict_eq_ok_iff]
  cases hfailure : consultation.failure? with
  | none =>
      rcases Rule.verdict transaction (consultation.findings clock) with violation | ⟨⟩ <;>
        simp [Except.mapError]
  | some ending =>
      refine iff_of_false (fun hending => ?_) fun hnone => Option.some_ne_none _ hnone.1
      dsimp only at hending
      exact consultation.failure?_ne_ok (hending ▸ hfailure)

/-- **A check is passed exactly if its lookups are answered in time and all rules are
satisfied.** -/
theorem timedEnding_eq_ok_iff {consultation : Consultation} :
    consultation.timedEnding transaction clock now limitMillis = .returned (.ok ()) ↔
      consultation.millis ≤ limitMillis ∧ consultation.failure? = none ∧
        Rule.Satisfied transaction
          (consultation.findings (clock (now + consultation.millis))) := by
  rw [timedEnding, ← ending_eq_ok_iff]
  split
  · rename_i htime
    exact (and_iff_right htime).symm
  · rename_i hlate
    exact iff_of_false nofun fun hended => hlate hended.1

end Consultation

/-- A check under a deadline comes to its end, or it is cut short at the end of its time. -/
theorem timedValidation_ends (clock : Nat → Timestamp) (limitMillis now : Nat)
    (resources : Resources) (transaction : Option Transaction) :
    (timedValidation clock limitMillis transaction).ComesTo
      ⟨now, resources, .start now limitMillis .starting⟩
      ((Consultation.of transaction now resources).timedEnding transaction clock now limitMillis)
      (now + min (Consultation.of transaction now resources).millis limitMillis)
      (Consultation.left transaction now limitMillis resources) := by
  unfold Consultation.timedEnding
  by_cases htime : (Consultation.of transaction now resources).millis ≤ limitMillis
  · rw [if_pos htime, Nat.min_eq_left htime]
    refine ⟨_, timedValidation_reaches_of_le clock htime, rfl, ?_⟩
    exact Operation.timed_step?_eq_none (by cases transaction <;> rfl) nofun
  · rw [if_neg htime, Nat.min_eq_right (Nat.le_of_not_le htime)]
    obtain ⟨state, hreaches⟩ := timedValidation_reaches_of_lt clock (Nat.lt_of_not_le htime)
    exact ⟨_, hreaches, rfl, rfl⟩

/-- **What a check under a deadline comes to**, whatever the caches and the store are like: it runs
out of time if the lookups that it needs take longer than the limit; otherwise it ends as the
first lookup that fails, or else it reports the first rule that is broken.  It is passed exactly
if its lookups are answered in time and all rules are satisfied.  The store is asked only for
what the caches do not have, and about the product only if the customer is known. -/
theorem timedValidation_comesTo (clock : Nat → Timestamp) (limitMillis now : Nat)
    (resources : Resources) (transaction : Option Transaction) :
    (∃ after, (timedValidation clock limitMillis transaction).ComesTo
        ⟨now, resources, .start now limitMillis .starting⟩
        ((Consultation.of transaction now resources).timedEnding transaction clock now limitMillis)
        (now + min (Consultation.of transaction now resources).millis limitMillis) after ∧
      Consultation.Leaves transaction now limitMillis resources after) ∧
    ((Consultation.of transaction now resources).timedEnding transaction clock now limitMillis =
        .returned (.ok ()) ↔
      (Consultation.of transaction now resources).millis ≤ limitMillis ∧
        (Consultation.of transaction now resources).failure? = none ∧
          Rule.Satisfied transaction ((Consultation.of transaction now resources).findings
            (clock (now + (Consultation.of transaction now resources).millis)))) ∧
    ∀ purchase ∈ transaction,
      ((Consultation.of transaction now resources).asksCustomer = true ↔
        resources.references.customers.look? now purchase.customer = none) ∧
      ((Consultation.of transaction now resources).asksProduct limitMillis = true ↔
        ∃ customer, (Consultation.of transaction now resources).customer? = some customer ∧
          customer.ending.value? = some true ∧ customer.millis ≤ limitMillis ∧
          resources.references.products.look? (now + customer.millis) purchase.product = none) := by
  refine ⟨⟨_, timedValidation_ends clock limitMillis now resources transaction,
    Consultation.leaves_left transaction now limitMillis resources⟩,
    Consultation.timedEnding_eq_ok_iff, ?_⟩
  rintro purchase ⟨⟩
  exact ⟨Consultation.asksCustomer_iff, Consultation.asksProduct_iff⟩

end Deadline

end Clearing
