import Clearing.Proofs.Transaction.Rules

/-!
# The order of the rules

The rules as a list, each with the violation that breaking it amounts to.  What is said about
a transaction is the violation of the first rule in the list that it breaks (`Rule.verdict`);
nothing is said exactly if all are satisfied (`Rule.verdict_eq_ok_iff`).  The check of the rules
goes by this list (`Rule.checkAgainst_eq`).
-/

namespace Clearing

/-- The rules. -/
inductive Rule where
  | present
  | customerKnown
  | productKnown
  | productActive
  | costWithinCeiling
  | quantityPositive
  | notInPast
  deriving DecidableEq, Repr

/-- What there is to know about a transaction when the rules are checked. -/
structure Findings where
  /-- The customer is known. -/
  known : Bool
  /-- The product, if there is one. -/
  product : Option Product
  /-- The time of day. -/
  clock : Timestamp

namespace Rule

/-- All rules, in their order. -/
def all : List Rule :=
  [present, customerKnown, productKnown, productActive, costWithinCeiling, quantityPositive,
    notInPast]

/-- The violation, if the rule is broken.  A rule about something that is not there is not. -/
def violation? (transaction : Option Transaction) (findings : Findings) :
    Rule → Option Violation
  | present => if transaction.isSome then none else some .missingTransaction
  | customerKnown => transaction.bind fun transaction =>
    if findings.known then none else some (.unknownCustomer transaction.customer)
  | productKnown => transaction.bind fun transaction =>
    if findings.product.isSome then none else some (.unknownProduct transaction.product)
  | productActive => transaction.bind fun transaction => findings.product.bind fun product =>
    if product.isActive then none else some (.inactiveProduct transaction.product)
  | costWithinCeiling => transaction.bind fun transaction => findings.product.bind fun product =>
    match checkCost product.cost transaction.quantity with
    | .ok () => none
    | .error violation => some violation
  | quantityPositive => transaction.bind fun transaction =>
    if 0 < transaction.quantity then none else some .quantityNotPositive
  | notInPast => transaction.bind fun transaction =>
    if isPast findings.clock transaction.time then some .timeInPast else none

/-- The violation of the first rule that is broken. -/
def firstViolation? (transaction : Option Transaction) (findings : Findings) : Option Violation :=
  all.findSome? (violation? transaction findings)

/-- What is said about a transaction. -/
def verdict (transaction : Option Transaction) (findings : Findings) : Except Violation Unit :=
  match firstViolation? transaction findings with
  | none => .ok ()
  | some violation => .error violation

variable {transaction : Transaction} {findings : Findings}

theorem verdict_of_unknown (transaction : Transaction) (hknown : findings.known = false) :
    verdict (some transaction) findings = .error (.unknownCustomer transaction.customer) := by
  simp [verdict, firstViolation?, all, List.findSome?, violation?, hknown]

/-- **The rules are checked in their order**, once the customer is known. -/
theorem checkAgainst_eq (transaction : Transaction) (hknown : findings.known = true) :
    transaction.checkAgainst findings.product findings.clock =
      verdict (some transaction) findings := by
  obtain ⟨known, product, clock⟩ := findings
  dsimp only at hknown ⊢
  subst hknown
  cases product with
  | none => rfl
  | some product =>
      rw [Transaction.checkAgainst_some]
      simp only [verdict, firstViolation?, all, List.findSome?, violation?, Option.isSome_some,
        if_true, Option.bind_some]
      cases product.isActive with
      | false => rfl
      | true =>
          rcases checkCost product.cost transaction.quantity with violation | ⟨⟩
          · rfl
          · by_cases hquantity : transaction.quantity ≤ 0
            · simp [hquantity, Int.not_lt.mpr hquantity]
            · cases isPast clock transaction.time <;>
                simp [hquantity, Int.not_le.mp hquantity]

/-- A transaction satisfies all rules: it is there, its customer is known, its product was found and
is active, its cost does not exceed the ceiling, its quantity is positive, and it has no time or
one that is not before the time of day. -/
structure Satisfied (transaction : Option Transaction) (findings : Findings) : Prop where
  present : transaction.isSome = true
  known : findings.known = true
  active : ∃ product ∈ findings.product, product.isActive = true ∧
    ∀ purchase ∈ transaction, checkCost product.cost purchase.quantity = .ok ()
  quantity : ∀ purchase ∈ transaction, 0 < purchase.quantity
  time : ∀ purchase ∈ transaction, ∀ time ∈ purchase.time, time.before findings.clock = false

/-- **Nothing is said about a transaction exactly if it satisfies all rules.** -/
theorem verdict_eq_ok_iff {transaction : Option Transaction} :
    verdict transaction findings = .ok () ↔ Satisfied transaction findings := by
  cases transaction with
  | none => exact iff_of_false nofun fun hsatisfied => Bool.noConfusion hsatisfied.present
  | some transaction =>
      cases hknown : findings.known with
      | false =>
          rw [verdict_of_unknown transaction hknown]
          refine iff_of_false nofun fun hsatisfied => ?_
          rw [hsatisfied.known] at hknown
          cases hknown
      | true =>
          rw [← checkAgainst_eq transaction hknown]
          cases hproduct : findings.product with
          | none =>
              refine iff_of_false nofun fun hsatisfied => ?_
              obtain ⟨product, hmem, -⟩ := hsatisfied.active
              rw [hproduct] at hmem
              cases hmem
          | some product =>
              rw [Transaction.checkAgainst_some_eq_ok_iff]
              constructor
              · rintro ⟨hactive, hcost, hquantity, hpast⟩
                refine ⟨rfl, hknown, ⟨product, hproduct, hactive, ?_⟩, ?_, ?_⟩
                · rintro purchase ⟨⟩
                  exact hcost
                · rintro purchase ⟨⟩
                  exact hquantity
                · rintro purchase ⟨⟩ time htime
                  rw [isPast, Option.mem_def.mp htime] at hpast
                  exact hpast
              · rintro ⟨-, -, ⟨found, hfound, hactive, hcost⟩, hquantity, htime⟩
                rw [hproduct] at hfound
                cases hfound
                refine ⟨hactive, hcost transaction rfl, hquantity transaction rfl, ?_⟩
                cases htaken : transaction.time with
                | none => rfl
                | some time => exact htime transaction rfl time htaken

end Rule

end Clearing
