import Clearing.Proofs.Number.Nearest

/-!
# Doubles in order

Rounding keeps the order of numbers (`roundedMagnitude_mono`), and the magnitude of a
double grows with its bits (`value_mono`).  Products and quotients of doubles that are
finite and not negative are therefore in the order of their first operands
(`magnitudeBits_mul_mono`, `magnitudeBits_div_mono`).

A count that is shorter than a significand is a double as it is (`value_ofNat`).
-/

namespace Clearing

/-! ## Nearest integers -/

theorem near_nearestEven {r : ℚ} (hr : 0 ≤ r) :
    r ≤ nearestEven r + 1 / 2 ∧ (nearestEven r : ℚ) ≤ r + 1 / 2 := by
  have hden : (0 : ℚ) < r.den := Nat.cast_pos.mpr r.den_pos
  have hnum := cast_num_toNat hr
  obtain ⟨hupper, hlower⟩ := near_divNearestEven r.num.toNat r.den_pos
  constructor
  · have hle : 2 * (r.num.toNat : ℚ) ≤ (2 * nearestEven r + 1) * r.den := by
      exact_mod_cast hupper
    rw [hnum] at hle
    nlinarith
  · have hle : 2 * (nearestEven r : ℚ) * r.den ≤ 2 * (r.num.toNat : ℚ) + r.den := by
      exact_mod_cast hlower
    rw [hnum] at hle
    nlinarith

theorem nearestEven_mono {r s : ℚ} (hr : 0 ≤ r) (hle : r ≤ s) :
    nearestEven r ≤ nearestEven s := by
  by_contra hmore
  have hnext : (nearestEven s : ℚ) + 1 ≤ nearestEven r := by
    exact_mod_cast Nat.lt_of_not_le hmore
  have hfirst := (near_nearestEven hr).2
  have hsecond := (near_nearestEven (hr.trans hle)).1
  -- Both lie half way between the same integers.
  obtain rfl : r = s := by linarith
  exact hmore (Nat.le_refl _)

theorem nearestEven_natCast (n : Nat) : nearestEven n = n :=
  nearestEven_eq_of_abs_lt (Nat.cast_nonneg n) (by norm_num)

namespace Binary64

/-! ## Rounding -/

/-- A number is shorter than 2 ^ 53 units in its last place, and it has 2 ^ 52 of them unless the
unit is the least. -/
private theorem bounds_of_unit {w : ℚ} (hpos : 0 < w) {power : Int}
    (hpower : max (Int.log 2 w - 52) (-1074) = power) :
    w < 2 ^ (53 : Nat) * 2 ^ power ∧
      (-1074 < power → (2 : ℚ) ^ (52 : Nat) * 2 ^ power ≤ w) := by
  constructor
  · have hless : w < ((2 : Nat) : ℚ) ^ (power + (53 : Nat)) :=
      (Int.lt_zpow_iff_log_lt (by decide) hpos).mpr (by omega)
    rwa [two_zpow_add] at hless
  · intro hnormal
    have hle : ((2 : Nat) : ℚ) ^ (power + (52 : Nat)) ≤ w :=
      (Int.zpow_le_iff_le_log (by decide) hpos).mpr (by omega)
    rwa [two_zpow_add] at hle

/-- **Rounding keeps the order.** -/
theorem roundedMagnitude_mono {w v : ℚ} (hpos : 0 < w) (hle : w ≤ v) :
    roundedMagnitude w ≤ roundedMagnitude v := by
  unfold roundedMagnitude
  dsimp only
  have hlog : Int.log 2 w ≤ Int.log 2 v := Int.log_mono_right hpos hle
  have hbelow := bounds_of_unit hpos rfl
  have habove := bounds_of_unit (hpos.trans_le hle) rfl
  generalize hpower : max (Int.log 2 w - 52) (-1074) = power at hbelow ⊢
  generalize hpower' : max (Int.log 2 v - 52) (-1074) = power' at habove ⊢
  have hunit : (0 : ℚ) < 2 ^ power := by positivity
  have hunit' : (0 : ℚ) < 2 ^ power' := by positivity
  refine Nat.le_min.mpr ⟨(Nat.min_le_left ..).trans ?_, Nat.min_le_right ..⟩
  rcases (show power ≤ power' by omega).eq_or_lt with rfl | hless
  · gcongr
    exact nearestEven_mono (by positivity) (by gcongr)
  · -- The significand on the left ends where the one on the right begins.
    have hsmall : nearestEven (w / 2 ^ power) ≤ 2 ^ 53 := by
      rw [← nearestEven_natCast (2 ^ 53)]
      refine nearestEven_mono (by positivity) ?_
      rw [div_le_iff₀ hunit]
      exact_mod_cast hbelow.1.le
    have hlarge : 2 ^ 52 ≤ nearestEven (v / 2 ^ power') := by
      rw [← nearestEven_natCast (2 ^ 52)]
      refine nearestEven_mono (by positivity) ?_
      rw [le_div_iff₀ hunit']
      exact_mod_cast habove.2 (by omega)
    have hfield : (power + 1074).toNat + 1 ≤ (power' + 1074).toNat := by omega
    have hmul := Nat.mul_le_mul_right (twoTo 52) hfield
    have htwo : twoTo 52 = 2 ^ 52 := rfl
    rw [htwo] at hmul ⊢
    omega

/-! ## Doubles that are not negative -/

/-- Finite and not negative. -/
structure Plain (x : Binary64) : Prop where
  finite : x.isFinite
  unsigned : x.negative = false

variable {x y z : Binary64}

theorem Plain.isNaN_eq (hplain : x.Plain) : x.isNaN = false := by
  have hfinite := hplain.finite
  simp only [isFinite, decide_eq_true_eq] at hfinite
  simp only [isNaN, decide_eq_false_iff_not]
  omega

theorem negative_ofMagnitude {magnitude : Nat} (hmagnitude : magnitude ≤ infinityBits) :
    (ofMagnitude false magnitude).negative = false := by
  have hsmall : magnitude < 9223372036854775808 := Nat.lt_of_le_of_lt hmagnitude (by decide)
  simp [negative, ofMagnitude, twoTo]
  omega

theorem negative_ofRatio (num den : Nat) : (ofRatio false num den).negative = false := by
  unfold ofRatio
  split
  · exact negative_ofMagnitude (Nat.zero_le _)
  · exact negative_ofMagnitude (Nat.min_le_right ..)

theorem magnitudeBits_ofRatio {num den : Nat} (hnum : 0 < num) (hden : 0 < den) :
    (ofRatio false num den).magnitudeBits = roundedMagnitude ((num : ℚ) / den) := by
  rw [ofRatio_eq false hnum hden, magnitudeBits_ofMagnitude _ (roundedMagnitude_le _)]

theorem magnitudeBits_ofRatio_mono {num den num' den' : Nat} (hden : 0 < den) (hden' : 0 < den')
    (hle : (num : ℚ) / den ≤ (num' : ℚ) / den') :
    (ofRatio false num den).magnitudeBits ≤ (ofRatio false num' den').magnitudeBits := by
  have hcast : (0 : ℚ) < den := Nat.cast_pos.mpr hden
  have hcast' : (0 : ℚ) < den' := Nat.cast_pos.mpr hden'
  rcases Nat.eq_zero_or_pos num with rfl | hnum
  · rw [ofRatio, if_pos rfl, zero, magnitudeBits_ofMagnitude _ (Nat.zero_le _)]
    exact Nat.zero_le _
  · have hpos : (0 : ℚ) < (num : ℚ) / den := by positivity
    have hnum' : 0 < num' := by
      rw [← Nat.cast_pos (α := ℚ)]
      exact (div_pos_iff_of_pos_right hcast').mp (hpos.trans_le hle)
    rw [magnitudeBits_ofRatio hnum hden, magnitudeBits_ofRatio hnum' hden']
    exact roundedMagnitude_mono hpos hle

theorem value_eq_zero (hzero : x.isZero = true) : x.value = 0 := by
  have hbits : x.magnitudeBits = 0 := of_decide_eq_true hzero
  have hexponent : x.exponentField = 0 := by rw [exponentField, hbits, Nat.zero_div]
  have hfraction : x.fractionField = 0 := by rw [fractionField, hbits, Nat.zero_mod]
  rw [value, significand, if_pos hexponent, hfraction, Nat.cast_zero, zero_mul]

theorem value_nonneg (x : Binary64) : 0 ≤ x.value := by
  unfold value
  positivity

/-- The magnitude grows with the bits. -/
theorem value_mono (hx : x.isFinite) (hy : y.isFinite) (hle : x.magnitudeBits ≤ y.magnitudeBits) :
    x.value ≤ y.value := by
  by_cases hzero : x.isZero = true
  · rw [value_eq_zero hzero]
    exact value_nonneg y
  · have hpartsX := parts hx (Bool.eq_false_iff.mpr hzero)
    have hpos := hpartsX.magnitudeBits_pos
    have hpartsY := parts hy (by simp only [isZero, decide_eq_false_iff_not]; omega)
    have hnext : twoTo 53 = 2 * twoTo 52 := rfl
    have hltX := hpartsX.lt
    have hltY := hpartsY.lt
    have hleastX := hpartsX.least
    have hleastY := hpartsY.least
    rw [hpartsX.magnitudeBits_eq, hpartsY.magnitudeBits_eq] at hle
    unfold value
    rcases lt_trichotomy x.power y.power with hless | hsame | hmore
    · -- The significand on the left is shorter than two of those on the right.
      have hlong := hpartsY.long (by omega)
      have hdouble : (x.significand : ℚ) ≤ 2 * y.significand := by
        exact_mod_cast (show x.significand ≤ 2 * y.significand by omega)
      have hunit : (2 : ℚ) * 2 ^ x.power ≤ 2 ^ y.power := by
        rw [mul_comm, ← zpow_add_one₀ (by norm_num)]
        exact zpow_le_zpow_right₀ (by norm_num) (by omega)
      calc (x.significand : ℚ) * 2 ^ x.power ≤ 2 * y.significand * 2 ^ x.power := by gcongr
        _ = y.significand * (2 * 2 ^ x.power) := by ring
        _ ≤ y.significand * 2 ^ y.power := by gcongr
    · rw [hsame] at hle ⊢
      gcongr
      omega
    · have hlong := hpartsX.long (by omega)
      have hfield : (y.power + 1074).toNat + 1 ≤ (x.power + 1074).toNat := by omega
      have hmul := Nat.mul_le_mul_right (twoTo 52) hfield
      rw [Nat.add_one_mul] at hmul
      omega

/-! ## Products and quotients -/

theorem Plain.mul_eq (hx : x.Plain) (hy : y.Plain) :
    x.mul y = ofRatio false (x.ratio.1 * y.ratio.1) (x.ratio.2 * y.ratio.2) := by
  simp [mul, hx.isNaN_eq, hy.isNaN_eq, hx.finite, hy.finite, hx.unsigned, hy.unsigned]

theorem Plain.div_eq (hx : x.Plain) (hy : y.Plain) (hzero : y.isZero = false) :
    x.div y = ofRatio false (x.ratio.1 * y.ratio.2) (x.ratio.2 * y.ratio.1) := by
  simp [div, hx.isNaN_eq, hy.isNaN_eq, hx.finite, hy.finite, hx.unsigned, hy.unsigned, hzero]

theorem ratio_mul (x y : Binary64) :
    ((x.ratio.1 * y.ratio.1 : Nat) : ℚ) / (x.ratio.2 * y.ratio.2 : Nat) = x.value * y.value := by
  rw [Nat.cast_mul, Nat.cast_mul, mul_div_mul_comm, ratio_eq_value, ratio_eq_value]

theorem ratio_div (x y : Binary64) :
    ((x.ratio.1 * y.ratio.2 : Nat) : ℚ) / (x.ratio.2 * y.ratio.1 : Nat) = x.value / y.value := by
  rw [Nat.cast_mul, Nat.cast_mul, mul_div_mul_comm, ratio_eq_value, ← ratio_eq_value y,
    div_eq_mul_inv x.value, inv_div]

/-- A larger number makes a larger product. -/
theorem magnitudeBits_mul_mono (hx : x.Plain) (hy : y.Plain) (hz : z.Plain)
    (hle : x.magnitudeBits ≤ y.magnitudeBits) :
    (x.mul z).magnitudeBits ≤ (y.mul z).magnitudeBits := by
  rw [hx.mul_eq hz, hy.mul_eq hz]
  refine magnitudeBits_ofRatio_mono (Nat.mul_pos x.ratio_den_pos z.ratio_den_pos)
    (Nat.mul_pos y.ratio_den_pos z.ratio_den_pos) ?_
  rw [ratio_mul, ratio_mul]
  exact mul_le_mul_of_nonneg_right (value_mono hx.finite hy.finite hle) z.value_nonneg

/-- A larger number makes a larger quotient. -/
theorem magnitudeBits_div_mono (hx : x.Plain) (hy : y.Plain) (hz : z.Plain)
    (hzero : z.isZero = false) (hle : x.magnitudeBits ≤ y.magnitudeBits) :
    (x.div z).magnitudeBits ≤ (y.div z).magnitudeBits := by
  have hpos := ratio_num_pos (parts hz.finite hzero)
  rw [hx.div_eq hz hzero, hy.div_eq hz hzero]
  refine magnitudeBits_ofRatio_mono (Nat.mul_pos x.ratio_den_pos hpos)
    (Nat.mul_pos y.ratio_den_pos hpos) ?_
  rw [ratio_div, ratio_div]
  exact div_le_div_of_nonneg_right (value_mono hx.finite hy.finite hle) z.value_nonneg

/-! ## Counts -/

theorem plain_ofNat {n : Nat} (hword : n < 18446744073709551616) : (ofNat n).Plain := by
  refine ⟨?_, negative_ofRatio n 1⟩
  rcases Nat.eq_zero_or_pos n with rfl | hpos
  · decide +kernel
  · exact isFinite_ofNat hpos hword

theorem magnitudeBits_ofNat_mono {m n : Nat} (hle : m ≤ n) :
    (ofNat m).magnitudeBits ≤ (ofNat n).magnitudeBits :=
  magnitudeBits_ofRatio_mono Nat.one_pos Nat.one_pos (by simpa using hle)

section Grid

variable {significand : Nat} {power : Int} (hlong : twoTo 52 ≤ significand)
  (hshort : significand < twoTo 53) (hleast : -1074 ≤ power)

include hlong hshort hleast

/-- What is a multiple of its unit in the last place is not rounded. -/
theorem roundedMagnitude_of_grid (hgreatest : power ≤ 971) :
    roundedMagnitude (significand * 2 ^ power) =
      (power + 1074).toNat * twoTo 52 + significand := by
  have hunit : (0 : ℚ) < 2 ^ power := by positivity
  have hlower : (2 : ℚ) ^ 52 ≤ significand := by exact_mod_cast hlong
  have hupper : (significand : ℚ) < 2 ^ 53 := by exact_mod_cast hshort
  have hlog : Int.log 2 ((significand : ℚ) * 2 ^ power) = power + (52 : Nat) := by
    refine log_eq_of_bounds (by decide) (by positivity) ?_ ?_
    · rw [two_zpow_add]
      gcongr
    · rw [add_assoc, show ((52 : Nat) : Int) + 1 = (53 : Nat) from rfl, two_zpow_add]
      gcongr
  unfold roundedMagnitude
  dsimp only
  rw [hlog, show max (power + (52 : Nat) - 52) (-1074) = power by omega,
    mul_div_cancel_right₀ _ hunit.ne', nearestEven_natCast]
  have hinfinity : infinityBits = 2047 * twoTo 52 := rfl
  have hnext : twoTo 53 = 2 * twoTo 52 := rfl
  have hfield : (power + 1074).toNat ≤ 2045 := by omega
  have hmul := Nat.mul_le_mul_right (twoTo 52) hfield
  omega

/-- A double is given by its unit in the last place and its significand. -/
theorem value_of_magnitudeBits
    (hbits : x.magnitudeBits = (power + 1074).toNat * twoTo 52 + significand) :
    x.value = significand * 2 ^ power := by
  have htwo : twoTo 52 = 4503599627370496 := rfl
  have hnext : twoTo 53 = 9007199254740992 := rfl
  rw [htwo] at hbits hlong
  have hexponent : x.exponentField = (power + 1074).toNat + 1 := by
    rw [exponentField, hbits, htwo]
    omega
  have hfraction : x.fractionField = significand - 4503599627370496 := by
    rw [fractionField, hbits, htwo]
    omega
  have hfield : x.exponentField ≠ 0 := by omega
  rw [value, Binary64.significand, Binary64.power, if_neg hfield, if_neg hfield, hexponent,
    hfraction, htwo, Nat.sub_add_cancel hlong,
    show (((power + 1074).toNat + 1 : Nat) : Int) - 1075 = power by omega]

end Grid

/-- A count that is shorter than a significand is not rounded. -/
theorem value_ofNat {n : Nat} (hpos : 0 < n) (hshort : n < twoTo 53) : (ofNat n).value = n := by
  have hlog : n.log2 ≤ 52 := by
    have hless := (Nat.log2_lt hpos.ne').mpr (show n < 2 ^ 53 from hshort)
    omega
  have hsplit : (n : ℚ) = (n * twoTo (52 - n.log2) : Nat) * 2 ^ ((n.log2 : Int) - 52) := by
    rw [Nat.cast_mul, cast_twoTo, mul_assoc, ← zpow_natCast, ← zpow_add₀ (by norm_num),
      show ((52 - n.log2 : Nat) : Int) + ((n.log2 : Int) - 52) = 0 by omega, zpow_zero, mul_one]
  have hlong : twoTo 52 ≤ n * twoTo (52 - n.log2) := by
    calc twoTo 52 = twoTo n.log2 * twoTo (52 - n.log2) := by
          rw [← twoTo_add, Nat.add_sub_cancel' hlog]
      _ ≤ n * twoTo (52 - n.log2) := Nat.mul_le_mul_right _ (Nat.log2_self_le hpos.ne')
  have hless : n * twoTo (52 - n.log2) < twoTo 53 := by
    calc n * twoTo (52 - n.log2) < twoTo (n.log2 + 1) * twoTo (52 - n.log2) :=
          Nat.mul_lt_mul_of_pos_right lt_twoTo_log2 (twoTo_pos _)
      _ = twoTo 53 := by
          rw [← twoTo_add]
          congr 1
          omega
  rw [value_of_magnitudeBits hlong hless (by omega : -1074 ≤ (n.log2 : Int) - 52), ← hsplit]
  rw [ofNat, magnitudeBits_ofRatio hpos Nat.one_pos, Nat.cast_one, div_one, hsplit]
  exact roundedMagnitude_of_grid hlong hless (by omega) (by omega)

end Binary64

end Clearing
