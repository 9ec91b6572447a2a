import Clearing.Proofs.Guard.Breaker
import Clearing.Proofs.Number.Order
import Clearing.Settings.Check

/-!
# Rates of failures

The rate of failures is a double, rounded twice.  More failures among as many calls
still give no lower rate (`le_percent_mono`), and no failures do not reach a threshold
(`not_le_percent_zero`).

If all calls are failures the rate is a hundred percent as long as a hundred times their
number can be written exactly (`percent_self`).  Beyond that it may fall short of it.
-/

namespace Clearing

namespace Breaker

open Binary64

variable {part more whole : Nat} {threshold : Binary64}

theorem plain_mul_hundred (hpart : part < 18446744073709551616) :
    ((Binary64.ofNat part).mul (.ofNat 100)).Plain := by
  have hhundred : (Binary64.ofNat 100).Plain := plain_ofNat (by decide)
  have hplain := plain_ofNat hpart
  have hlargest : (Binary64.ofNat 18446744073709551615).Plain := plain_ofNat (by decide)
  refine ⟨?_, ?_⟩
  · have hmono := magnitudeBits_mul_mono hplain hlargest hhundred
      (magnitudeBits_ofNat_mono (by omega))
    exact decide_eq_true (hmono.trans_lt (by decide +kernel))
  · rw [hplain.mul_eq hhundred]
    exact negative_ofRatio ..

theorem magnitudeBits_percent_mono (hle : part ≤ more) (hmore : more < 18446744073709551616)
    (hpos : 0 < whole) (hwhole : whole < 18446744073709551616) :
    (percent part whole).magnitudeBits ≤ (percent more whole).magnitudeBits := by
  have hpart : part < 18446744073709551616 := by omega
  exact magnitudeBits_div_mono (plain_mul_hundred hpart) (plain_mul_hundred hmore)
    (plain_ofNat hwhole) (isZero_ofNat hpos hwhole) <|
      magnitudeBits_mul_mono (plain_ofNat hpart) (plain_ofNat hmore) (plain_ofNat (by decide))
        (magnitudeBits_ofNat_mono hle)

theorem key_percent (hpart : part < 18446744073709551616) (hpos : 0 < whole)
    (hwhole : whole < 18446744073709551616) :
    (percent part whole).key = (percent part whole).magnitudeBits := by
  have hunsigned : (percent part whole).negative = false := by
    rw [percent, (plain_mul_hundred hpart).div_eq (plain_ofNat hwhole) (isZero_ofNat hpos hwhole)]
    exact negative_ofRatio ..
  exact if_neg (Bool.eq_false_iff.mp hunsigned)

/-- More failures give no lower rate. -/
theorem le_percent_mono (hle : part ≤ more) (hmore : more < 18446744073709551616)
    (hpos : 0 < whole) (hwhole : whole < 18446744073709551616)
    (hreached : threshold.le (percent part whole)) : threshold.le (percent more whole) := by
  have hmono := magnitudeBits_percent_mono hle hmore hpos hwhole
  simp only [Binary64.le, Bool.and_eq_true, Bool.not_eq_true', decide_eq_true_eq,
    key_percent (hle.trans_lt hmore) hpos hwhole] at hreached
  simp only [Binary64.le, Bool.and_eq_true, Bool.not_eq_true', decide_eq_true_eq,
    key_percent hmore hpos hwhole]
  exact ⟨⟨hreached.1.1, isNaN_percent more hpos hwhole⟩, by omega⟩

/-- Without failures no threshold is reached. -/
theorem not_le_percent_zero (hthreshold : Settings.isThreshold threshold = true) (hpos : 0 < whole)
    (hwhole : whole < 18446744073709551616) : ¬ threshold.le (percent 0 whole) := by
  have hzero : (percent 0 whole).key = 0 := by
    have hnum : ((Binary64.ofNat 0).mul (.ofNat 100)).ratio.1 = 0 := by decide +kernel
    rw [percent, (plain_mul_hundred (by decide)).div_eq (plain_ofNat hwhole)
      (isZero_ofNat hpos hwhole), hnum, Nat.zero_mul, ofRatio, if_pos rfl]
    decide +kernel
  have hleast : (Binary64.ofNat 0).key = 0 := by decide +kernel
  intro hreached
  simp only [Settings.isThreshold, Binary64.lt, Binary64.le, Bool.and_eq_true,
    decide_eq_true_eq] at hthreshold hreached
  omega

/-- If all calls are failures the rate is a hundred percent. -/
theorem percent_self {calls : Nat} (hpos : 0 < calls) (hexact : calls * 100 < twoTo 53) :
    percent calls calls = .ofNat 100 := by
  have hbound : twoTo 53 < 18446744073709551616 := by decide
  have hcalls : (Binary64.ofNat calls).Plain := plain_ofNat (by omega)
  have hhundred : (Binary64.ofNat 100).Plain := plain_ofNat (by decide)
  have hall : (Binary64.ofNat (calls * 100)).Plain := plain_ofNat (by omega)
  have hcallsZero := isZero_ofNat hpos (by omega)
  have hallZero : (Binary64.ofNat (calls * 100)).isZero = false :=
    isZero_ofNat (by omega) (by omega)
  have hcallsPos := ratio_num_pos (parts hcalls.finite hcallsZero)
  have hcallsValue : (Binary64.ofNat calls).value = calls := value_ofNat hpos (by omega)
  have hproduct : (Binary64.ofNat calls).mul (.ofNat 100) = .ofNat (calls * 100) := by
    rw [hcalls.mul_eq hhundred, ofRatio_eq false
      (Nat.mul_pos hcallsPos (ratio_num_pos (parts hhundred.finite (by decide +kernel))))
      (Nat.mul_pos (ratio_den_pos _) (ratio_den_pos _)), ratio_mul, hcallsValue,
      value_ofNat (by decide) (by decide), Binary64.ofNat, ofRatio_eq false (by omega) Nat.one_pos,
      Nat.cast_mul, Nat.cast_one, div_one]
  have hquotient : (calls * 100 : Nat) / (calls : ℚ) = (100 : Nat) / (1 : Nat) := by
    rw [Nat.cast_mul, Nat.cast_one, div_one,
      mul_div_cancel_left₀ _ (Nat.cast_ne_zero.mpr hpos.ne')]
  rw [percent, hproduct, hall.div_eq hcalls hcallsZero, ofRatio_eq false
    (Nat.mul_pos (ratio_num_pos (parts hall.finite hallZero)) (ratio_den_pos _))
    (Nat.mul_pos (ratio_den_pos _) hcallsPos), ratio_div, hcallsValue,
    value_ofNat (by omega) hexact, hquotient, ← ofRatio_eq false (by decide) Nat.one_pos]
  rfl

end Breaker

end Clearing
