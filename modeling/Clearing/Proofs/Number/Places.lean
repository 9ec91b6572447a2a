import Mathlib.Order.Bounds.Basic
import Clearing.Proofs.Number.Amount

/-!
# Amounts with more decimals

An amount is shown with two decimals or more.  Zeros are put behind it for that, one at a
time, and each makes the mantissa ten times as large; the last one that there is room for
may be the first or none at all.  The amount never changes, and it has two decimals unless it
is so large that there is no room for them (`normalizeMoney_shows`).

## Strategy

How much room there is for an amount does not depend on how many zeros were put behind it
already (`Decimal.fits_iff_of_value_eq`).  So where the zeros end for want of room, no more
decimals would have fitted the amount as it was.
-/

namespace Clearing

namespace Decimal

variable {amount other : Decimal} {places : Nat}

/-- There is room for so many decimals.  For fewer than the amount has there always is. -/
def Fits (amount : Decimal) (places : Nat) : Prop :=
  amount.mantissa * tenTo (places - amount.scale) < mantissaBound

instance (amount : Decimal) (places : Nat) : Decidable (amount.Fits places) :=
  inferInstanceAs (Decidable (_ < _))

theorem fits_of_le_scale (hplaces : places ≤ amount.scale) : amount.Fits places := by
  rw [Fits, Nat.sub_eq_zero_of_le hplaces, tenTo_zero, Nat.mul_one]
  exact amount.mantissa_lt

/-- With more decimals the mantissa of what is worth the same is longer. -/
theorem mantissa_of_value_eq (hvalue : other.value = amount.value)
    (hscale : amount.scale ≤ other.scale) :
    other.mantissa = amount.mantissa * tenTo (other.scale - amount.scale) := by
  have hsize := congrArg abs hvalue
  rw [abs_value, abs_value, div_eq_div_iff (by positivity) (by positivity),
    ← Nat.sub_add_cancel hscale, pow_add, ← mul_assoc] at hsize
  have hcancel := mul_right_cancel₀ (by positivity) hsize
  rw [← Nat.cast_inj (R := ℚ), Nat.cast_mul, cast_tenTo, hcancel]

/-- There is the same room for an amount, however many of the decimals it has already. -/
theorem fits_iff_of_value_eq (hvalue : other.value = amount.value)
    (hscale : amount.scale ≤ other.scale) (hplaces : other.scale ≤ places) :
    other.Fits places ↔ amount.Fits places := by
  have hsplit : places - amount.scale =
      (other.scale - amount.scale) + (places - other.scale) := by omega
  rw [Fits, Fits, mantissa_of_value_eq hvalue hscale, hsplit, tenTo_add, Nat.mul_assoc]

/-- If what is worth the same has no room for another decimal, it has all that there is room for. -/
theorem le_scale_of_full (hvalue : other.value = amount.value)
    (hscale : amount.scale ≤ other.scale) (hfull : ¬other.mantissa * 10 < mantissaBound)
    (hfits : amount.Fits places) : places ≤ other.scale := by
  by_contra hmore
  have hroom : other.Fits places := (fits_iff_of_value_eq hvalue hscale (by omega)).mpr hfits
  obtain ⟨beyond, hbeyond⟩ : ∃ beyond, places - other.scale = beyond + 1 :=
    ⟨places - other.scale - 1, by omega⟩
  have hten : other.mantissa * 10 ≤ other.mantissa * tenTo (places - other.scale) := by
    rw [hbeyond, tenTo_succ]
    exact Nat.mul_le_mul_left _ (Nat.le_mul_of_pos_left 10 (tenTo_pos beyond))
  exact hfull (hten.trans_lt hroom)

/-! ## One decimal at a time -/

/-- Another decimal is added if there is room for it, and then the mantissa is ten times as
large. -/
theorem extend_succ_cases (amount : Decimal) (count : Nat) :
    (∃ longer : Decimal, longer.mantissa = amount.mantissa * 10 ∧
        longer.scale = amount.scale + 1 ∧
        amount.extend (count + 1) = longer.extend count) ∨
      ¬(amount.mantissa * 10 < mantissaBound ∧ amount.scale + 1 ≤ 28) ∧
        amount.extend (count + 1) = amount := by
  rw [extend]
  split
  · rename_i longer hlonger
    obtain ⟨hfits, hparts⟩ := Option.dite_none_right_eq_some.mp hlonger
    obtain rfl := Option.some.inj hparts
    exact .inl ⟨_, rfl, rfl, rfl⟩
  · rename_i hnone
    exact .inr ⟨ofParts?_eq_none_iff.mp hnone, rfl⟩

/-- Decimals are added, and either all that were asked for or as many as there is room for. -/
theorem scale_extend (amount : Decimal) {count : Nat} (hscale : amount.scale + count ≤ 28) :
    (amount.extend count).scale = amount.scale + count ∨
      (amount.extend count).scale < amount.scale + count ∧
        ¬(amount.extend count).mantissa * 10 < mantissaBound := by
  induction count generalizing amount with
  | zero => exact .inl rfl
  | succ count ih =>
      rcases amount.extend_succ_cases count with ⟨longer, -, hlonger, hextend⟩ | ⟨hfull, hextend⟩
      · rw [hextend]
        have hrest := ih longer (by omega)
        rw [hlonger] at hrest
        omega
      · rw [hextend]
        exact .inr ⟨by omega, fun hfits => hfull ⟨hfits, by omega⟩⟩

theorem scale_le_scale_extend (amount : Decimal) (count : Nat) :
    amount.scale ≤ (amount.extend count).scale := by
  induction count generalizing amount with
  | zero => exact le_rfl
  | succ count ih =>
      rcases amount.extend_succ_cases count with ⟨longer, -, hlonger, hextend⟩ | ⟨-, hextend⟩
      · rw [hextend]
        have hrest := ih longer
        omega
      · rw [hextend]

/-- An amount without room for another decimal is not extended. -/
theorem extend_of_full (hfull : ¬amount.mantissa * 10 < mantissaBound) (count : Nat) :
    amount.extend count = amount := by
  cases count with
  | zero => rfl
  | succ count =>
      rcases amount.extend_succ_cases count with ⟨longer, hmantissa, -, -⟩ | ⟨-, hextend⟩
      · exact absurd (hmantissa ▸ longer.mantissa_lt) hfull
      · exact hextend

/-- An amount that has the decimals is left as it is. -/
theorem withPlaces_of_le_scale (hplaces : places ≤ amount.scale) :
    amount.withPlaces places = amount := by
  rw [withPlaces, Nat.sub_eq_zero_of_le hplaces, extend]

/-- An amount gets the decimals that it lacks, or as many of them as there is room for. -/
theorem scale_withPlaces (amount : Decimal) (hplaces : places ≤ maxScale) :
    (amount.withPlaces places).scale = max places amount.scale ∨
      (amount.withPlaces places).scale < places ∧
        ¬(amount.withPlaces places).mantissa * 10 < mantissaBound := by
  rcases Nat.le_total places amount.scale with henough | hlacking
  · rw [withPlaces_of_le_scale henough, Nat.max_eq_right henough]
    exact .inl rfl
  · have htotal : amount.scale + (places - amount.scale) = places := by omega
    rw [Nat.max_eq_left hlacking]
    have hextend := amount.scale_extend (htotal.trans_le hplaces)
    rwa [htotal] at hextend

end Decimal

open Decimal

/-- **An amount is shown as it is**, with two decimals or all that it has if these are more.  If
there is no room for two it is shown with as many of them as there is room for.  To show it
again changes nothing. -/
theorem normalizeMoney_shows (amount : Decimal) :
    (normalizeMoney amount).value = amount.value ∧
      amount.scale ≤ (normalizeMoney amount).scale ∧
      (amount.Fits 2 → (normalizeMoney amount).scale = max 2 amount.scale) ∧
      (¬amount.Fits 2 →
        IsGreatest {places | places ≤ 2 ∧ amount.Fits places} (normalizeMoney amount).scale) ∧
      normalizeMoney (normalizeMoney amount) = normalizeMoney amount := by
  have hvalue := value_normalizeMoney amount
  have hscale : amount.scale ≤ (normalizeMoney amount).scale := scale_le_scale_extend ..
  have hcases := amount.scale_withPlaces (show moneyPlaces ≤ maxScale by decide)
  change (normalizeMoney amount).scale = max 2 amount.scale ∨
    (normalizeMoney amount).scale < 2 ∧ ¬(normalizeMoney amount).mantissa * 10 < mantissaBound
    at hcases
  refine ⟨hvalue, hscale, ?_, ?_, ?_⟩
  · intro hfits
    refine hcases.resolve_right fun ⟨hfewer, hfull⟩ => ?_
    exact absurd (le_scale_of_full hvalue hscale hfull hfits) (Nat.not_le_of_lt hfewer)
  · intro hlarge
    have hfits : amount.Fits (normalizeMoney amount).scale :=
      (fits_iff_of_value_eq hvalue hscale le_rfl).mp (fits_of_le_scale le_rfl)
    rcases hcases with hall | ⟨hfewer, hfull⟩
    · -- It has two decimals by itself, or two after all.
      rcases Nat.le_total 2 amount.scale with henough | hlacking
      · exact absurd (fits_of_le_scale henough) hlarge
      · rw [Nat.max_eq_left hlacking] at hall
        exact absurd (hall ▸ hfits) hlarge
    · exact ⟨⟨hfewer.le, hfits⟩, fun _ hplaces => le_scale_of_full hvalue hscale hfull hplaces.2⟩
  · rcases hcases with hall | ⟨-, hfull⟩
    · exact withPlaces_of_le_scale (hall ▸ Nat.le_max_left ..)
    · exact extend_of_full hfull _

/-- No whole amount on this side of zero is larger and has room for two decimals. -/
private def lastWithTwo : Decimal :=
  .ofInt (-792281625142643375935439503) (by decide)

/-- The next one has room for one decimal. -/
private def firstWithOne : Decimal :=
  .ofInt (-792281625142643375935439504) (by decide)

theorem normalizeMoney_shows_atBound :
    (lastWithTwo.Fits 2 ∧ (normalizeMoney lastWithTwo).scale = 2) ∧
      ¬firstWithOne.Fits 2 ∧ firstWithOne.Fits 1 ∧ (normalizeMoney firstWithOne).scale = 1 := by
  have htwo : lastWithTwo.Fits 2 := by decide
  have hnot : ¬firstWithOne.Fits 2 := by decide
  have hone : firstWithOne.Fits 1 := by decide
  have hgreatest := (normalizeMoney_shows firstWithOne).2.2.2.1 hnot
  refine ⟨⟨htwo, (normalizeMoney_shows lastWithTwo).2.2.1 htwo⟩, hnot, hone, ?_⟩
  have hleast : 1 ≤ (normalizeMoney firstWithOne).scale := hgreatest.2 ⟨by decide, hone⟩
  have hmost : (normalizeMoney firstWithOne).scale ≠ 2 := fun htwo => hnot (htwo ▸ hgreatest.1.2)
  have hlimit := hgreatest.1.1
  omega

end Clearing
