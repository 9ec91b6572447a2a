import Clearing.Rules

/-!
# What the rules accept

The rules accept a transaction exactly if its product was found and is active,
what it costs does not exceed the ceiling, its quantity is positive and it does
not lie in the past.  The order in which they are checked decides only which
violation is reported.
-/

namespace Clearing.Transaction

variable {transaction : Transaction} {clock : Timestamp}

/-- The rules about a product that was found, in the order in which they are checked. -/
theorem checkAgainst_some (transaction : Transaction) (product : Product) (clock : Timestamp) :
    transaction.checkAgainst (some product) clock =
      if product.isActive = false then .error (.inactiveProduct transaction.product)
      else
        match checkCost product.cost transaction.quantity with
        | .error violation => .error violation
        | .ok () =>
          if transaction.quantity ≤ 0 then .error .quantityNotPositive
          else if isPast clock transaction.time = true then .error .timeInPast
          else .ok () := by
  simp only [checkAgainst, throw, throwThe, MonadExceptOf.throw, bind, Except.bind, pure,
    Except.pure]
  cases product.isActive with
  | false => rfl
  | true =>
      rcases checkCost product.cost transaction.quantity with violation | ⟨⟩
      · rfl
      · by_cases hquantity : transaction.quantity ≤ 0
        · simp [hquantity]
        · simp [hquantity]

theorem checkAgainst_some_eq_ok_iff {product : Product} :
    transaction.checkAgainst (some product) clock = .ok () ↔
      product.isActive = true ∧ checkCost product.cost transaction.quantity = .ok () ∧
        0 < transaction.quantity ∧ isPast clock transaction.time = false := by
  rw [checkAgainst_some]
  cases product.isActive with
  | false => simp
  | true =>
      rcases checkCost product.cost transaction.quantity with violation | ⟨⟩
      · simp
      · by_cases hquantity : transaction.quantity ≤ 0
        · simp [hquantity, Int.not_lt.mpr hquantity]
        · simp [hquantity, Int.not_le.mp hquantity]

end Clearing.Transaction
