import Mathlib.Algebra.Order.Field.Power
import Mathlib.Data.Rat.Floor
import Mathlib.Tactic.FieldSimp
import Mathlib.Tactic.Linarith
import Mathlib.Tactic.NormNum
import Mathlib.Tactic.Positivity
import Mathlib.Tactic.Ring
import Clearing.Proofs.Number.Nearest
import Clearing.Summary

/-!
# Amounts as numbers

What an amount is worth is a rational number (`Decimal.value`).  A multiple of an
amount, or a sum of two, overflows exactly if what it is worth lies half a unit
below the bound of mantissas or further out (`times?_eq_none_iff`,
`add?_eq_none_iff`): digits behind the point can always be dropped, and what is
nearer to zero than that is then rounded to an integer that fits.  What fits keeps
as many decimals as there is room for (`exists_kept_of_fit?`) and is worth at most
half a unit more than it should be (`abs_value_of_times?`, `abs_value_of_add?`), and
zeros behind the point make no difference (`value_normalizeMoney`).
-/

namespace Clearing

/-! ## Rounding at an even bound -/

/-- An integer that rounds to an even bound or more lies half a unit below it or above. -/
theorem le_divNearestEven_iff {bound dividend divisor : Nat} (heven : bound % 2 = 0)
    (hbound : 0 < bound) (hdivisor : 0 < divisor) :
    bound ≤ divNearestEven dividend divisor ↔ (2 * bound - 1) * divisor ≤ 2 * dividend := by
  have hsplit := Nat.div_add_mod dividend divisor
  have hrest := Nat.mod_lt dividend hdivisor
  unfold divNearestEven
  dsimp only
  generalize dividend / divisor = quotient at hsplit ⊢
  generalize dividend % divisor = rest at hsplit hrest ⊢
  subst hsplit
  obtain ⟨half, rfl⟩ : ∃ half, bound = 2 * half := ⟨bound / 2, by omega⟩
  -- The quotient reaches the bound, is the one below it, or is smaller than that.
  have hfar (hmore : 2 * half ≤ quotient) :
      (2 * (2 * half) - 1) * divisor ≤ 2 * (divisor * quotient + rest) := by
    calc (2 * (2 * half) - 1) * divisor ≤ (2 * quotient) * divisor :=
          Nat.mul_le_mul_right _ (by omega)
      _ = 2 * (divisor * quotient) := by ring
      _ ≤ 2 * (divisor * quotient + rest) := by omega
  have hnear (hless : quotient + 1 < 2 * half) :
      2 * (divisor * quotient + rest) < (2 * (2 * half) - 1) * divisor := by
    calc 2 * (divisor * quotient + rest) < 2 * (divisor * quotient + divisor) := by omega
      _ = (2 * quotient + 2) * divisor := by ring
      _ ≤ (2 * (2 * half) - 1) * divisor := Nat.mul_le_mul_right _ (by omega)
  have hlast (hlast : quotient + 1 = 2 * half) :
      (2 * (2 * half) - 1) * divisor = 2 * (divisor * quotient) + divisor := by
    have hcount : 2 * (2 * half) - 1 = 2 * quotient + 1 := by omega
    rw [hcount]
    ring
  split
  · rcases Nat.lt_trichotomy (quotient + 1) (2 * half) with hless | hsame | hmore
    · have := hnear hless
      omega
    · have := hlast hsame
      omega
    · have := hfar (by omega)
      omega
  · split
    · rcases Nat.lt_trichotomy (quotient + 1) (2 * half) with hless | hsame | hmore
      · have := hnear hless
        omega
      · have := hlast hsame
        omega
      · have := hfar (by omega)
        omega
    · rcases Nat.lt_trichotomy (quotient + 1) (2 * half) with hless | hsame | hmore
      · have := hnear hless
        omega
      · have := hlast hsame
        omega
      · have := hfar (by omega)
        omega

/-- An integer that rounds to more than an even bound lies more than half a unit above it. -/
theorem lt_divNearestEven_iff {bound divisor : Nat} (dividend : Nat) (heven : bound % 2 = 0)
    (hdivisor : 0 < divisor) :
    bound < divNearestEven dividend divisor ↔ (2 * bound + 1) * divisor < 2 * dividend := by
  have hsplit := Nat.div_add_mod dividend divisor
  have hrest := Nat.mod_lt dividend hdivisor
  unfold divNearestEven
  dsimp only
  generalize dividend / divisor = quotient at hsplit ⊢
  generalize dividend % divisor = rest at hsplit hrest ⊢
  subst hsplit
  -- The quotient is past the bound, is the bound, or is smaller than that.
  rcases Nat.lt_trichotomy bound quotient with hmore | rfl | hless
  · have hfar : (2 * bound + 1) * divisor < 2 * (divisor * quotient + rest) := by
      calc (2 * bound + 1) * divisor < (2 * bound + 2) * divisor :=
            Nat.mul_lt_mul_of_pos_right (Nat.lt_succ_self _) hdivisor
        _ ≤ 2 * quotient * divisor := Nat.mul_le_mul_right _ (by omega)
        _ = 2 * (divisor * quotient) := by ring
        _ ≤ 2 * (divisor * quotient + rest) := by omega
    refine iff_of_true ?_ hfar
    split
    · exact hmore
    · split <;> omega
  · have hhalf : (2 * bound + 1) * divisor = 2 * (divisor * bound) + divisor := by ring
    rw [hhalf, heven]
    split
    · omega
    · split <;> omega
  · have hnear : 2 * (divisor * quotient + rest) < (2 * bound + 1) * divisor := by
      calc 2 * (divisor * quotient + rest) < 2 * (divisor * quotient + divisor) := by omega
        _ = 2 * (quotient + 1) * divisor := by ring
        _ ≤ (2 * bound + 1) * divisor := Nat.mul_le_mul_right _ (by omega)
    refine iff_of_false ?_ (Nat.not_lt.mpr hnear.le)
    have hodd := Nat.mod_lt quotient (y := 2) (by decide)
    split
    · omega
    · split <;> omega

/-- Rounding goes up by half a unit at most. -/
theorem divNearestEven_mul_le (dividend divisor : Nat) :
    2 * (divNearestEven dividend divisor * divisor) ≤ 2 * dividend + divisor := by
  have hsplit := Nat.div_add_mod dividend divisor
  unfold divNearestEven
  dsimp only
  generalize dividend / divisor = quotient at hsplit ⊢
  generalize dividend % divisor = rest at hsplit ⊢
  have hdown : quotient * divisor = divisor * quotient := Nat.mul_comm ..
  have hup : (quotient + 1) * divisor = divisor * quotient + divisor := by ring
  split
  · omega
  · split
    · omega
    · rcases Nat.mod_two_eq_zero_or_one quotient with heven | hodd
      · rw [heven, Nat.add_zero]
        omega
      · rw [hodd]
        omega

namespace Decimal

/-- What an amount is worth. -/
def value (amount : Decimal) : ℚ :=
  amount.coefficient / 10 ^ amount.scale

/-- Half a unit below the bound of mantissas: from there on nothing fits. -/
def limit : ℚ := mantissaBound - 1 / 2

@[simp] theorem value_zero : zero.value = 0 := by
  simp [value, zero, coefficient, ofParts]

theorem natAbs_coefficient (amount : Decimal) : amount.coefficient.natAbs = amount.mantissa := by
  unfold coefficient
  split <;> simp

/-- What fits nowhere does not fit without decimals. -/
theorem fitWithin_eq_none_iff {negative : Bool} {mantissa scale kept : Nat} :
    fitWithin negative mantissa scale kept = none ↔
      (2 * mantissaBound - 1) * tenTo scale ≤ 2 * mantissa := by
  have hfits (kept : Nat) :
      mantissaBound ≤ divNearestEven mantissa (tenTo (scale - kept)) ↔
        (2 * mantissaBound - 1) * tenTo (scale - kept) ≤ 2 * mantissa :=
    le_divNearestEven_iff (by decide) (by decide) (tenTo_pos _)
  -- With more decimals the mantissa is only longer, so what fits somewhere is not that large.
  have hsmall {kept : Nat} {amount : Decimal}
      (hparts : ofParts? negative (divNearestEven mantissa (tenTo (scale - kept))) kept =
        some amount) : ¬ (2 * mantissaBound - 1) * tenTo scale ≤ 2 * mantissa := by
    intro hlarge
    have hlonger : (2 * mantissaBound - 1) * tenTo (scale - kept) ≤
        (2 * mantissaBound - 1) * tenTo scale :=
      Nat.mul_le_mul_left _ (Nat.pow_le_pow_right (by decide) (Nat.sub_le ..))
    have hbound := (hfits kept).mpr (hlonger.trans hlarge)
    rw [ofParts?_eq_none_iff.mpr fun hfit => absurd hfit.1 (Nat.not_lt.mpr hbound)] at hparts
    cases hparts
  induction kept with
  | zero =>
      unfold fitWithin
      dsimp only
      split
      · rename_i hparts
        exact iff_of_false nofun (hsmall hparts)
      · rename_i hparts
        refine iff_of_true rfl ((hfits 0).mp ?_)
        have hlarge := ofParts?_eq_none_iff.mp hparts
        omega
  | succ fewer ih =>
      unfold fitWithin
      dsimp only
      split
      · rename_i hparts
        exact iff_of_false nofun (hsmall hparts)
      · exact ih

/-- A quotient does not fit exactly if it is not below the limit. -/
theorem fit?_eq_none_iff {negative : Bool} {mantissa scale : Nat} :
    fit? negative mantissa scale = none ↔ limit ≤ (mantissa : ℚ) / 10 ^ scale := by
  rw [fit?, fitWithin_eq_none_iff, le_div_iff₀ (by positivity), limit]
  have hcast : ((2 * mantissaBound - 1 : Nat) : ℚ) = 2 * mantissaBound - 1 := by norm_num
  rw [← Nat.cast_le (α := ℚ), Nat.cast_mul, Nat.cast_mul, cast_tenTo, hcast]
  constructor <;> intro h <;> push_cast at h ⊢ <;> linarith

/-- A power of ten is split where digits are dropped. -/
private theorem ten_pow_split {kept scale : Nat} (hkept : kept ≤ scale) :
    (10 : ℚ) ^ scale = 10 ^ (scale - kept) * 10 ^ kept := by
  rw [← pow_add, Nat.sub_add_cancel hkept]

theorem abs_value (amount : Decimal) : |amount.value| = amount.mantissa / 10 ^ amount.scale := by
  rw [value, abs_div, abs_of_pos (by positivity : (0 : ℚ) < 10 ^ amount.scale),
    ← natAbs_coefficient, Nat.cast_natAbs, Int.cast_abs]

/-- Every amount is below the limit. -/
theorem abs_value_lt (amount : Decimal) : |amount.value| < limit := by
  have hmantissa : (amount.mantissa : ℚ) ≤ mantissaBound - 1 := by
    have hle : amount.mantissa + 1 ≤ mantissaBound := amount.mantissa_lt
    have hcast : ((amount.mantissa + 1 : Nat) : ℚ) ≤ mantissaBound := by exact_mod_cast hle
    push_cast at hcast ⊢
    linarith
  have hscale : (1 : ℚ) ≤ 10 ^ amount.scale := one_le_pow₀ (by norm_num)
  calc |amount.value| = amount.mantissa / 10 ^ amount.scale := amount.abs_value
    _ ≤ amount.mantissa := div_le_self (by positivity) hscale
    _ ≤ mantissaBound - 1 := hmantissa
    _ < limit := by norm_num [limit]

theorem value_eq_zero_of_mantissa {amount : Decimal} (hzero : amount.mantissa = 0) :
    amount.value = 0 := by
  rw [← abs_eq_zero, abs_value, hzero]
  simp

/-- What an amount is worth that is made of parts. -/
theorem value_of_ofParts? {negative : Bool} {mantissa scale : Nat} {amount : Decimal}
    (hparts : ofParts? negative mantissa scale = some amount) :
    amount.value = (if negative then -(mantissa : ℚ) else mantissa) / 10 ^ scale := by
  obtain ⟨hfits, hamount⟩ := Option.dite_none_right_eq_some.mp hparts
  obtain rfl := Option.some.inj hamount
  by_cases hzero : mantissa = 0
  · subst hzero
    rw [value_eq_zero_of_mantissa rfl]
    simp
  · cases negative <;> simp [value, coefficient, ofParts, hzero]

theorem scale_of_ofParts? {negative : Bool} {mantissa scale : Nat} {amount : Decimal}
    (hparts : ofParts? negative mantissa scale = some amount) : amount.scale = scale := by
  obtain ⟨hfits, hamount⟩ := Option.dite_none_right_eq_some.mp hparts
  rw [← Option.some.inj hamount, scale_ofParts]

/-- Amounts are compared by what they are worth. -/
theorem lt_iff_value_lt {a b : Decimal} : a.lt b = true ↔ a.value < b.value := by
  rw [lt, decide_eq_true_eq, value, value, div_lt_div_iff₀ (by positivity) (by positivity),
    ← cast_tenTo, ← cast_tenTo]
  exact_mod_cast Iff.rfl

/-- **When a multiple overflows.** -/
theorem times?_eq_none_iff {amount : Decimal} {n : Int} :
    amount.times? n = none ↔ limit ≤ |amount.value * n| := by
  unfold times?
  split
  · rename_i hnothing
    refine iff_of_false nofun ?_
    have hzero : amount.value * n = 0 := by
      rcases hnothing with hmantissa | rfl
      · rw [value_eq_zero_of_mantissa hmantissa, zero_mul]
      · simp
    rw [hzero]
    norm_num [limit]
  · rw [fit?_eq_none_iff, abs_mul, abs_value, ← Int.cast_abs, Int.abs_eq_natAbs, Nat.cast_mul,
      div_mul_eq_mul_div]
    rfl

/-- The exact sum, with the larger of the two scales. -/
private theorem natAbs_sum (a b : Decimal) :
    ((a.coefficient * tenTo (max a.scale b.scale - a.scale) +
        b.coefficient * tenTo (max a.scale b.scale - b.scale)).natAbs : ℚ) /
      10 ^ max a.scale b.scale = |a.value + b.value| := by
  have hterm (amount : Decimal) {scale : Nat} (hle : amount.scale ≤ scale) :
      (((amount.coefficient * tenTo (scale - amount.scale) : Int)) : ℚ) / 10 ^ scale =
        amount.value := by
    push_cast
    rw [cast_tenTo, ten_pow_split hle, value]
    field_simp
  rw [Nat.cast_natAbs, Int.cast_abs,
    ← abs_of_pos (by positivity : (0 : ℚ) < 10 ^ (max a.scale b.scale)), ← abs_div,
    Int.cast_add, add_div, hterm a (Nat.le_max_left ..), hterm b (Nat.le_max_right ..)]

/-- **When a sum overflows.** -/
theorem add?_eq_none_iff {a b : Decimal} :
    a.add? b = none ↔ limit ≤ |a.value + b.value| := by
  unfold add?
  split
  · rename_i hzero
    rw [value_eq_zero_of_mantissa hzero, zero_add]
    exact iff_of_false nofun (not_le.mpr b.abs_value_lt)
  · split
    · rename_i hzero
      rw [value_eq_zero_of_mantissa hzero, add_zero]
      exact iff_of_false nofun (not_le.mpr a.abs_value_lt)
    · dsimp only
      rw [fit?_eq_none_iff, natAbs_sum]

/-! ## What rounding adds -/

/-- What is made to fit keeps as many decimals as it can: with one more it would not fit. -/
theorem exists_kept_of_fit? {negative : Bool} {mantissa scale : Nat} {amount : Decimal}
    (hfit : fit? negative mantissa scale = some amount) :
    ∃ kept ≤ scale,
      ofParts? negative (divNearestEven mantissa (tenTo (scale - kept))) kept = some amount ∧
        (scale ≤ 28 → kept < scale → limit ≤ (mantissa : ℚ) / 10 ^ scale * 10 ^ (kept + 1)) := by
  have hlarge {kept : Nat} (hkept : kept ≤ scale) (hscale : scale ≤ 28)
      (hnone : ofParts? negative (divNearestEven mantissa (tenTo (scale - kept))) kept = none) :
      limit ≤ (mantissa : ℚ) / 10 ^ scale * 10 ^ kept := by
    have hbound : mantissaBound ≤ divNearestEven mantissa (tenTo (scale - kept)) := by
      have hparts := ofParts?_eq_none_iff.mp hnone
      omega
    have hmantissa : ((2 * mantissaBound - 1 : Nat) : ℚ) * 10 ^ (scale - kept) ≤ 2 * mantissa := by
      rw [← cast_tenTo]
      exact_mod_cast (le_divNearestEven_iff (by decide) (by decide) (tenTo_pos _)).mp hbound
    have hcast : ((2 * mantissaBound - 1 : Nat) : ℚ) = 2 * mantissaBound - 1 := by norm_num
    rw [hcast] at hmantissa
    rw [ten_pow_split hkept, ← div_div, div_mul_cancel₀ _ (by positivity), limit,
      le_div_iff₀ (by positivity)]
    push_cast at hmantissa ⊢
    linarith
  have hwithin : ∀ most ≤ scale, fitWithin negative mantissa scale most = some amount →
      ∃ kept ≤ most,
        ofParts? negative (divNearestEven mantissa (tenTo (scale - kept))) kept = some amount ∧
          (scale ≤ 28 → kept < most →
            limit ≤ (mantissa : ℚ) / 10 ^ scale * 10 ^ (kept + 1)) := by
    intro most
    induction most with
    | zero =>
        intro _ hamount
        unfold fitWithin at hamount
        dsimp only at hamount
        split at hamount
        · rename_i hparts
          exact ⟨0, le_rfl, hparts.trans hamount, nofun⟩
        · cases hamount
    | succ fewer ih =>
        intro hmost hamount
        unfold fitWithin at hamount
        dsimp only at hamount
        split at hamount
        · rename_i hparts
          exact ⟨fewer + 1, le_rfl, hparts.trans hamount,
            fun _ hless => absurd hless (Nat.lt_irrefl _)⟩
        · rename_i hnone
          obtain ⟨kept, hkept, hparts, hmore⟩ := ih (Nat.le_of_succ_le hmost) hamount
          refine ⟨kept, Nat.le_succ_of_le hkept, hparts, fun hscale _ => ?_⟩
          rcases Nat.eq_or_lt_of_le hkept with rfl | hless
          · exact hlarge hmost hscale hnone
          · exact hmore hscale hless
  exact hwithin scale le_rfl hfit

/-- If a positive amount was rounded to some decimals, it is worth more than an even bound exactly
if it was by more than half of the last one. -/
theorem lt_value_of_rounded {mantissa scale kept : Nat} (bound : Nat) {amount : Decimal}
    (hkept : kept ≤ scale) (heven : bound % 2 = 0)
    (hparts : ofParts? false (divNearestEven mantissa (tenTo (scale - kept))) kept =
      some amount) :
    (bound : ℚ) < amount.value ↔
      bound + 1 / (2 * 10 ^ kept) < (mantissa : ℚ) / 10 ^ scale := by
  have hscaled : bound * tenTo kept % 2 = 0 := by
    rw [Nat.mul_mod, heven, Nat.zero_mul, Nat.zero_mod]
  have hrounded := lt_divNearestEven_iff mantissa hscaled (tenTo_pos (scale - kept))
  rw [← Nat.cast_lt (α := ℚ), ← Nat.cast_lt (α := ℚ)] at hrounded
  push_cast [cast_tenTo] at hrounded
  rw [value_of_ofParts? hparts, if_neg (by simp), lt_div_iff₀ (by positivity), hrounded,
    ten_pow_split hkept, lt_div_iff₀ (by positivity)]
  have hsame : ((bound : ℚ) + 1 / (2 * 10 ^ kept)) * (10 ^ (scale - kept) * 10 ^ kept) =
      (2 * (bound * 10 ^ kept) + 1) * 10 ^ (scale - kept) / 2 := by
    field_simp
  rw [hsame, div_lt_iff₀ (by norm_num), mul_comm (mantissa : ℚ)]

private theorem abs_value_of_rounded {negative : Bool} {mantissa scale kept : Nat}
    {amount : Decimal} (hkept : kept ≤ scale)
    (hparts : ofParts? negative (divNearestEven mantissa (tenTo (scale - kept))) kept =
      some amount) :
    |amount.value| ≤ (mantissa : ℚ) / 10 ^ scale + 1 / 2 := by
  obtain ⟨hfits, hamount⟩ := Option.dite_none_right_eq_some.mp hparts
  obtain rfl := Option.some.inj hamount
  have hrounded : (2 : ℚ) * ((divNearestEven mantissa (tenTo (scale - kept)) : ℚ) *
      10 ^ (scale - kept)) ≤ 2 * mantissa + 10 ^ (scale - kept) := by
    rw [← cast_tenTo]
    exact_mod_cast divNearestEven_mul_le mantissa (tenTo (scale - kept))
  have hdropped : (0 : ℚ) < 10 ^ (scale - kept) := by positivity
  have hone : (1 : ℚ) ≤ 10 ^ kept := one_le_pow₀ (by norm_num)
  rw [abs_value, mantissa_ofParts, scale_ofParts, ten_pow_split hkept]
  generalize (divNearestEven mantissa (tenTo (scale - kept)) : ℚ) = rounded at hrounded ⊢
  generalize (10 : ℚ) ^ (scale - kept) = dropped at *
  generalize (10 : ℚ) ^ kept = factor at *
  have hnear : rounded ≤ mantissa / dropped + 1 / 2 := by
    rw [← sub_le_iff_le_add, le_div_iff₀ hdropped]
    linarith
  calc rounded / factor ≤ (mantissa / dropped + 1 / 2) / factor :=
        div_le_div_of_nonneg_right hnear (by linarith)
    _ = mantissa / (dropped * factor) + 1 / 2 / factor := by rw [add_div, div_div]
    _ ≤ mantissa / (dropped * factor) + 1 / 2 :=
        add_le_add_right (div_le_self (by norm_num) hone) _

/-- What is made to fit is worth at most half a unit more. -/
theorem abs_value_of_fit? {negative : Bool} {mantissa scale : Nat} {amount : Decimal}
    (hfit : fit? negative mantissa scale = some amount) :
    |amount.value| ≤ (mantissa : ℚ) / 10 ^ scale + 1 / 2 := by
  obtain ⟨kept, hkept, hparts, -⟩ := exists_kept_of_fit? hfit
  exact abs_value_of_rounded hkept hparts

theorem abs_value_of_times? {amount product : Decimal} {n : Int}
    (hproduct : amount.times? n = some product) : |product.value| ≤ |amount.value * n| + 1 / 2 := by
  unfold times? at hproduct
  split at hproduct
  · obtain rfl := Option.some.inj hproduct
    rw [value_zero, abs_zero]
    positivity
  · refine (abs_value_of_fit? hproduct).trans (le_of_eq ?_)
    rw [abs_mul, abs_value, ← Int.cast_abs, Int.abs_eq_natAbs, Nat.cast_mul, div_mul_eq_mul_div]
    rfl

theorem abs_value_of_add? {a b sum : Decimal} (hsum : a.add? b = some sum) :
    |sum.value| ≤ |a.value + b.value| + 1 / 2 := by
  unfold add? at hsum
  split at hsum
  · rename_i hzero
    obtain rfl := Option.some.inj hsum
    rw [value_eq_zero_of_mantissa hzero, zero_add]
    linarith
  · split at hsum
    · rename_i hzero
      obtain rfl := Option.some.inj hsum
      rw [value_eq_zero_of_mantissa hzero, add_zero]
      linarith
    · exact (abs_value_of_fit? hsum).trans (le_of_eq (by rw [natAbs_sum]))

/-- A multiple is worth the integer that is made to fit, with its sign. -/
theorem value_mul_int (amount : Decimal) (n : Int) :
    amount.value * n =
      (if amount.negative != decide (n < 0) then -((amount.mantissa * n.natAbs : Nat) : ℚ)
        else (amount.mantissa * n.natAbs : Nat)) / 10 ^ amount.scale := by
  have hsign : (n : ℚ) = if n < 0 then -(n.natAbs : ℚ) else n.natAbs := by
    split
    · rename_i hnegative
      rw [← Int.cast_natCast, Int.ofNat_natAbs_of_nonpos hnegative.le]
      simp
    · rename_i hpositive
      rw [← Int.cast_natCast, Int.natAbs_of_nonneg (not_lt.mp hpositive)]
  rw [value, coefficient, hsign, div_mul_eq_mul_div]
  by_cases hnegative : n < 0 <;> cases amount.negative <;> simp [hnegative]

/-! ## More decimals -/

/-- An amount with more decimals is worth the same. -/
theorem value_extend (amount : Decimal) (count : Nat) :
    (amount.extend count).value = amount.value := by
  induction count generalizing amount with
  | zero => rfl
  | succ count ih =>
      unfold extend
      split
      · rename_i longer hlonger
        rw [ih]
        unfold ofParts? at hlonger
        obtain ⟨hfits, hparts⟩ := Option.dite_none_right_eq_some.mp hlonger
        cases hparts
        by_cases hzero : amount.mantissa = 0
        · rw [value_eq_zero_of_mantissa hzero, value_eq_zero_of_mantissa (by simp [hzero])]
        · have hcoefficient : (ofParts amount.negative (amount.mantissa * 10) (amount.scale + 1)
              hfits.1 hfits.2).coefficient = amount.coefficient * 10 := by
            have hnegative : (ofParts amount.negative (amount.mantissa * 10) (amount.scale + 1)
                hfits.1 hfits.2).negative = amount.negative := by
              simp [ofParts, hzero]
            unfold coefficient
            rw [hnegative, mantissa_ofParts]
            split <;> push_cast <;> ring
          rw [value, value, hcoefficient, scale_ofParts, pow_succ]
          push_cast
          field_simp
      · rfl

end Decimal

/-- An amount is worth as much as it is shown. -/
@[simp] theorem value_normalizeMoney (amount : Decimal) :
    (normalizeMoney amount).value = amount.value :=
  amount.value_extend _

end Clearing
