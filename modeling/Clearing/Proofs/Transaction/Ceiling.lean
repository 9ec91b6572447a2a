import Clearing.Rules
import Clearing.Proofs.Number.Amount

/-!
# The ceiling on costs

What a transaction costs must not exceed the ceiling.  What is compared with the
ceiling is the total after it was made to fit, so that the digit which makes the
difference may be gone.  At the height of the ceiling there is room for 25 decimals: a
total with more of them passes if it is above the ceiling by half of the last one or
less, and every other total above the ceiling is turned away (`ceiling_lt_of_times?`).
A total that does not fit at all is turned away, also if it is negative.

`checkCost_eq_error_iff` says exactly which costs are turned away.

## Strategy

A total that was made to fit keeps as many decimals as there is room for.  With fewer
than 25 of them it is so large that rounding does not matter, and with more it is below
the ceiling; in between half of the last decimal decides.
-/

namespace Clearing

open Decimal

@[simp] theorem value_costCeiling : costCeiling.value = 5000 := by
  norm_num [costCeiling, ofInt, value, coefficient, ofParts]

/-- An amount with more than 25 decimals is smaller than the ceiling. -/
theorem value_lt_of_scale {amount : Decimal} (hscale : 25 < amount.scale) :
    amount.value < 5000 := by
  have hmantissa : (amount.mantissa : ℚ) < mantissaBound := by exact_mod_cast amount.mantissa_lt
  have hten : (10 : ℚ) ^ 26 ≤ 10 ^ amount.scale := pow_le_pow_right₀ (by norm_num) hscale
  calc amount.value ≤ |amount.value| := le_abs_self _
    _ = amount.mantissa / 10 ^ amount.scale := amount.abs_value
    _ ≤ amount.mantissa / 10 ^ 26 := div_le_div_of_nonneg_left (by positivity) (by positivity) hten
    _ < mantissaBound / 10 ^ 26 := div_lt_div_of_pos_right hmantissa (by positivity)
    _ < 5000 := by norm_num

/-- What has no room for one more decimal, and no more than 25 of them with it, is far above the
ceiling. -/
theorem lt_of_no_room {exact : ℚ} {kept : Nat} (hkept : kept < 25)
    (hlarge : limit ≤ exact * 10 ^ (kept + 1)) : 5001 < exact := by
  have hpower : (10 : ℚ) ^ (kept + 1) ≤ 10 ^ 25 := pow_le_pow_right₀ (by norm_num) hkept
  by_contra hsmall
  have hbound : exact * 10 ^ (kept + 1) ≤ 5001 * 10 ^ 25 :=
    mul_le_mul (not_lt.mp hsmall) hpower (by positivity) (by norm_num)
  norm_num [limit] at hlarge hbound
  linarith

/-- A positive total that was made to fit exceeds the ceiling exactly if the exact one does, unless
a digit was dropped that made the difference. -/
theorem ceiling_lt_of_fit? {mantissa scale : Nat} {total : Decimal} (hscale : scale ≤ 28)
    (hfit : fit? false mantissa scale = some total) :
    5000 < total.value ↔
      5000 < (mantissa : ℚ) / 10 ^ scale ∧
        (scale ≤ 25 ∨ 5000 + 1 / (2 * 10 ^ 25) < (mantissa : ℚ) / 10 ^ scale) := by
  obtain ⟨kept, hkept, hparts, hroom⟩ := exists_kept_of_fit? hfit
  have hrounded := lt_value_of_rounded 5000 hkept (by decide) hparts
  have htotal : total.scale = kept := scale_of_ofParts? hparts
  rw [Nat.cast_ofNat] at hrounded
  rcases Nat.eq_or_lt_of_le hkept with rfl | hdropped
  · -- No digit was dropped.
    have hexact : total.value = (mantissa : ℚ) / 10 ^ kept := by
      simpa using value_of_ofParts? hparts
    rw [← hexact]
    rcases Nat.lt_or_ge 25 kept with hlong | hshort
    · have hsmall := value_lt_of_scale (htotal ▸ hlong)
      exact iff_of_false hsmall.not_gt fun hlarge => hsmall.not_gt hlarge.1
    · exact ⟨fun hlarge => ⟨hlarge, .inl hshort⟩, And.left⟩
  have hroom := hroom hscale hdropped
  generalize (mantissa : ℚ) / 10 ^ scale = exact at *
  rcases Nat.lt_trichotomy kept 25 with hshort | rfl | hlong
  · have hfar := lt_of_no_room hshort hroom
    have hhalf : 1 / (2 * (10 : ℚ) ^ kept) ≤ 1 := by
      have hone : (1 : ℚ) ≤ 10 ^ kept := one_le_pow₀ (by norm_num)
      rw [div_le_one (by positivity)]
      linarith
    refine iff_of_true (hrounded.mpr (by linarith)) ⟨by linarith, .inr ?_⟩
    norm_num
    linarith
  · rw [hrounded]
    refine ⟨fun hlarge => ⟨lt_trans ?_ hlarge, .inr hlarge⟩,
      fun hlarge => hlarge.2.resolve_left (by omega)⟩
    norm_num
  · have hsmall := value_lt_of_scale (htotal ▸ hlong)
    refine iff_of_false hsmall.not_gt fun hlarge => ?_
    have hlarge := hlarge.2.resolve_left (by omega)
    have hpower : (10 : ℚ) ^ 25 ≤ 10 ^ kept := pow_le_pow_right₀ (by norm_num) hlong.le
    have hhalf : 1 / (2 * (10 : ℚ) ^ kept) ≤ 1 / (2 * 10 ^ 25) :=
      div_le_div_of_nonneg_left (by norm_num) (by positivity) (by linarith)
    exact hsmall.not_gt (hrounded.mpr (by linarith))

/-- A total that fits exceeds the ceiling exactly if the exact one does, unless a digit was dropped
that made the difference. -/
theorem ceiling_lt_of_times? {cost total : Decimal} {quantity : Int}
    (htotal : cost.times? quantity = some total) :
    5000 < total.value ↔
      5000 < cost.value * quantity ∧
        (cost.scale ≤ 25 ∨ 5000 + 1 / (2 * 10 ^ 25) < cost.value * quantity) := by
  unfold times? at htotal
  split at htotal
  · rename_i hnothing
    obtain rfl := Option.some.inj htotal
    have hzero : cost.value * quantity = 0 := by
      rcases hnothing with hmantissa | rfl
      · rw [value_eq_zero_of_mantissa hmantissa, zero_mul]
      · simp
    rw [hzero, value_zero]
    norm_num
  · rw [value_mul_int]
    cases hsign : cost.negative != decide (quantity < 0) with
    | false =>
        rw [hsign] at htotal
        simpa using ceiling_lt_of_fit? cost.scale_le htotal
    | true =>
        rw [hsign] at htotal
        obtain ⟨kept, -, hparts, -⟩ := exists_kept_of_fit? htotal
        rw [value_of_ofParts? hparts, if_pos rfl, if_pos rfl, neg_div, neg_div]
        -- Neither of the two is positive.
        have hnegative (mantissa scale : Nat) : ¬ 5000 < -((mantissa : ℚ) / 10 ^ scale) := by
          have hpositive : 0 ≤ (mantissa : ℚ) / 10 ^ scale := by positivity
          linarith
        exact iff_of_false (hnegative _ _) fun hlarge => hnegative _ _ hlarge.1

/-- **When a cost is turned away**: it exceeds the ceiling, and if it has more than 25 decimals by
more than half of the 25th; or it is so far below zero that it does not fit. -/
theorem checkCost_eq_error_iff (cost : Decimal) (quantity : Int) :
    (∃ violation, checkCost cost quantity = .error violation) ↔
      5000 < cost.value * quantity ∧
          (cost.scale ≤ 25 ∨ 5000 + 1 / (2 * 10 ^ 25) < cost.value * quantity) ∨
        cost.value * quantity ≤ -limit := by
  unfold checkCost
  cases htotal : cost.times? quantity with
  | none =>
      have hlarge := times?_eq_none_iff.mp htotal
      refine iff_of_true ⟨_, rfl⟩ ?_
      rcases le_abs.mp hlarge with hpositive | hnegative
      · norm_num [limit] at hpositive
        refine .inl ⟨by linarith, .inr ?_⟩
        norm_num
        linarith
      · exact .inr (by linarith)
  | some total =>
      have hfits : ¬ limit ≤ |cost.value * quantity| := by
        rw [← times?_eq_none_iff, htotal]
        exact Option.some_ne_none _
      have habove : ¬ cost.value * quantity ≤ -limit := fun hbelow =>
        hfits (le_abs.mpr (.inr (by linarith)))
      rw [or_iff_left habove, ← ceiling_lt_of_times? htotal, ← value_costCeiling,
        ← lt_iff_value_lt]
      dsimp only
      cases costCeiling.lt total <;> simp

/-- Exactly what exceeds the ceiling is turned away. -/
def IsExactCeiling (cost : Decimal) (quantity : Int) : Prop :=
  (∃ violation, checkCost cost quantity = .error violation) ↔ 5000 < cost.value * quantity

/-- Seven hundred of these exceed the ceiling in the 26th decimal. -/
def slightlyTooMuch : Decimal :=
  .ofParts false 71428571428571428571428571429 28 (by decide) (by decide)

/-- A total above the ceiling passes after its last three digits were dropped. -/
theorem not_isExactCeiling_of_rounded : ¬ IsExactCeiling slightlyTooMuch 700 := by
  have hvalue : 5000 < slightlyTooMuch.value * (700 : Int) := by
    norm_num [slightlyTooMuch, value, coefficient, ofParts]
  have hpasses : checkCost slightlyTooMuch 700 = .ok () := by decide +kernel
  intro hexact
  obtain ⟨violation, herror⟩ := hexact.mpr hvalue
  rw [hpasses] at herror
  cases herror

end Clearing
