import Mathlib.Algebra.Order.Field.Power
import Mathlib.Data.Int.Log
import Mathlib.Data.Rat.Floor
import Mathlib.Tactic.FieldSimp
import Mathlib.Tactic.Linarith
import Mathlib.Tactic.NormNum
import Mathlib.Tactic.Positivity
import Mathlib.Tactic.Ring
import Clearing.Number.Shortest
import Clearing.Proofs.Number.Binary64

/-!
# Rounding to the nearest double

A double is built from a quotient of integers, and a quotient can be given in many ways.
What is built depends on its value alone: `roundedMagnitude` is the pattern, without the
sign, of the double nearest to a positive rational number, and both ways to build a double
follow it (`ofRatio_eq`, `ofDecimal_eq`).

A rational number that is nearer to a double than half the way to the next one is rounded
to it (`roundedMagnitude_of_near`).  Just below a power of two the next one is nearer by
half.
-/

namespace Clearing

theorem cast_twoTo (n : Nat) : ((twoTo n : Nat) : ℚ) = 2 ^ n :=
  Nat.cast_pow 2 n

theorem cast_tenTo (n : Nat) : ((tenTo n : Nat) : ℚ) = 10 ^ n :=
  Nat.cast_pow 10 n

/-! ## Nearest integers -/

/-- What is nearer to an integer than a half is rounded to it. -/
theorem divNearestEven_eq_of_lt {dividend divisor n : Nat}
    (hupper : 2 * dividend < (2 * n + 1) * divisor)
    (hlower : 2 * n * divisor < 2 * dividend + divisor) : divNearestEven dividend divisor = n := by
  have hdivisor : 0 < divisor := by
    rcases Nat.eq_zero_or_pos divisor with rfl | hpos
    · simp at hupper
    · exact hpos
  have hsplit := Nat.div_add_mod dividend divisor
  have hrest := Nat.mod_lt dividend hdivisor
  unfold divNearestEven
  dsimp only
  generalize dividend / divisor = quotient at hsplit ⊢
  generalize dividend % divisor = rest at hsplit hrest ⊢
  subst hsplit
  -- The integer is the quotient or the next one.
  have hleast : quotient ≤ n := by
    by_contra hless
    have hmul := Nat.mul_le_mul_right divisor (show 2 * n + 2 ≤ 2 * quotient by omega)
    nlinarith
  have hgreatest : n ≤ quotient + 1 := by
    by_contra hmore
    have hmul := Nat.mul_le_mul_right divisor (show 2 * quotient + 4 ≤ 2 * n by omega)
    nlinarith
  rcases Nat.eq_or_lt_of_le hleast with rfl | hnext
  · rw [if_pos (by nlinarith)]
  · obtain rfl : n = quotient + 1 := by omega
    have hmore : divisor < 2 * rest := by nlinarith
    rw [if_neg (by omega), if_pos hmore]

/-- The nearest integer is at most a half away. -/
theorem near_divNearestEven (dividend : Nat) {divisor : Nat} (hdivisor : 0 < divisor) :
    2 * dividend ≤ (2 * divNearestEven dividend divisor + 1) * divisor ∧
      2 * divNearestEven dividend divisor * divisor ≤ 2 * dividend + divisor := by
  have hsplit := Nat.div_add_mod dividend divisor
  have hrest := Nat.mod_lt dividend hdivisor
  unfold divNearestEven
  dsimp only
  generalize dividend / divisor = quotient at hsplit ⊢
  generalize dividend % divisor = rest at hsplit hrest ⊢
  subst hsplit
  split
  · constructor <;> nlinarith
  · split
    · constructor <;> nlinarith
    · obtain hparity | hparity := Nat.mod_two_eq_zero_or_one quotient <;> rw [hparity] <;>
        constructor <;> nlinarith

/-- The integer nearest to a rational number that is not negative. -/
def nearestEven (r : ℚ) : Nat :=
  divNearestEven r.num.toNat r.den

theorem divNearestEven_mul_right (dividend divisor : Nat) {factor : Nat} (hfactor : 0 < factor) :
    divNearestEven (dividend * factor) (divisor * factor) = divNearestEven dividend divisor := by
  have hless : ∀ m n : Nat, 2 * (m * factor) < n * factor ↔ 2 * m < n := fun m n => by
    rw [← Nat.mul_assoc]
    exact Nat.mul_lt_mul_right hfactor
  have hmore : ∀ m n : Nat, n * factor < 2 * (m * factor) ↔ n < 2 * m := fun m n => by
    rw [← Nat.mul_assoc]
    exact Nat.mul_lt_mul_right hfactor
  simp only [divNearestEven, Nat.mul_div_mul_right _ _ hfactor, Nat.mul_mod_mul_right, hless, hmore]

/-- How a quotient is given does not matter. -/
theorem divNearestEven_eq (dividend : Nat) {divisor : Nat} (hdivisor : 0 < divisor) :
    divNearestEven dividend divisor = nearestEven ((dividend : ℚ) / divisor) := by
  have hpos : (0 : ℚ) < divisor := Nat.cast_pos.mpr hdivisor
  generalize hr : (dividend : ℚ) / divisor = r
  have hnonneg : 0 ≤ r.num := Rat.num_nonneg.mpr (hr ▸ by positivity)
  have hcross : dividend * r.den = r.num.toNat * divisor := by
    have hvalue : (r.num.toNat : ℚ) / r.den = r := by
      rw [show (r.num.toNat : ℚ) = (r.num : ℚ) by exact_mod_cast Int.toNat_of_nonneg hnonneg]
      exact Rat.num_div_den r
    have hden : (r.den : ℚ) ≠ 0 := by exact_mod_cast r.den_nz
    have hmul := (div_eq_div_iff hden hpos.ne').mp (hvalue.trans hr.symm)
    exact_mod_cast hmul.symm
  rw [nearestEven, ← divNearestEven_mul_right dividend divisor r.den_pos, hcross,
    Nat.mul_comm divisor, divNearestEven_mul_right _ _ hdivisor]

theorem cast_num_toNat {r : ℚ} (hr : 0 ≤ r) : (r.num.toNat : ℚ) = r * r.den := by
  rw [show (r.num.toNat : ℚ) = (r.num : ℚ) by
    exact_mod_cast Int.toNat_of_nonneg (Rat.num_nonneg.mpr hr)]
  exact (Rat.mul_den_eq_num r).symm

theorem nearestEven_eq_of_abs_lt {r : ℚ} {n : Nat} (hr : 0 ≤ r) (hnear : |r - n| < 1 / 2) :
    nearestEven r = n := by
  have hden : (0 : ℚ) < r.den := Nat.cast_pos.mpr r.den_pos
  have hnum := cast_num_toNat hr
  obtain ⟨hlower, hupper⟩ := abs_lt.mp hnear
  apply divNearestEven_eq_of_lt
  · have hless : 2 * (r.num.toNat : ℚ) < (2 * n + 1) * r.den := by
      rw [hnum]
      nlinarith
    exact_mod_cast hless
  · have hless : 2 * (n : ℚ) * r.den < 2 * (r.num.toNat : ℚ) + r.den := by
      rw [hnum]
      nlinarith
    exact_mod_cast hless

namespace Binary64

/-! ## Logarithms -/

/-- The logarithm of a quotient is that of the dividend less that of the divisor, or one less. -/
theorem log_div_bounds (base : Nat) {m n a b : Nat} (hbase : 1 < base) (hn : 0 < n)
    (hm : base ^ a ≤ m ∧ m < base ^ (a + 1)) (hb : base ^ b ≤ n ∧ n < base ^ (b + 1)) :
    (base : ℚ) ^ ((a : Int) - b - 1) < (m : ℚ) / n ∧
      (m : ℚ) / n < (base : ℚ) ^ ((a : Int) - b + 1) := by
  have hbase : (0 : ℚ) < base := by exact_mod_cast Nat.zero_lt_of_lt hbase
  have hn : (0 : ℚ) < n := Nat.cast_pos.mpr hn
  have hmlower : (base : ℚ) ^ a ≤ m := by exact_mod_cast hm.1
  have hmupper : (m : ℚ) < (base : ℚ) ^ (a + 1) := by exact_mod_cast hm.2
  have hblower : (base : ℚ) ^ b ≤ n := by exact_mod_cast hb.1
  have hbupper : (n : ℚ) < (base : ℚ) ^ (b + 1) := by exact_mod_cast hb.2
  have hleast : (base : ℚ) ^ ((a : Int) - b - 1) = (base : ℚ) ^ a / (base : ℚ) ^ (b + 1) := by
    rw [show (a : Int) - b - 1 = (a : Int) - ((b + 1 : Nat) : Int) by push_cast; ring,
      zpow_sub₀ hbase.ne', zpow_natCast, zpow_natCast]
  have hgreatest : (base : ℚ) ^ ((a : Int) - b + 1) = (base : ℚ) ^ (a + 1) / (base : ℚ) ^ b := by
    rw [show (a : Int) - b + 1 = ((a + 1 : Nat) : Int) - (b : Int) by push_cast; ring,
      zpow_sub₀ hbase.ne', zpow_natCast, zpow_natCast]
  rw [hleast, hgreatest, div_lt_div_iff₀ (by positivity) hn, div_lt_div_iff₀ hn (by positivity)]
  constructor
  · calc (base : ℚ) ^ a * n ≤ m * n := by gcongr
      _ < m * (base : ℚ) ^ (b + 1) := by
        have hmpos : (0 : ℚ) < m := lt_of_lt_of_le (by positivity) hmlower
        gcongr
  · calc (m : ℚ) * (base : ℚ) ^ b ≤ m * n := by gcongr
      _ < (base : ℚ) ^ (a + 1) * n := by gcongr

theorem log_eq_of_bounds {base : Nat} (hbase : 1 < base) {r : ℚ} (hr : 0 < r) {exponent : Int}
    (hlower : (base : ℚ) ^ exponent ≤ r) (hupper : r < (base : ℚ) ^ (exponent + 1)) :
    Int.log base r = exponent := by
  have hleast := (Int.zpow_le_iff_le_log hbase hr).mp hlower
  have hgreatest := (Int.lt_zpow_iff_log_lt hbase hr).mp hupper
  omega

/-- Whether a quotient reaches a power can be asked without fractions. -/
theorem reached_iff (base : Nat) (powerOf : Nat → Nat) (hbase : 0 < base)
    (hpower : ∀ n, powerOf n = base ^ n) (num : Nat) {den : Nat} (hden : 0 < den)
    (exponent : Int) :
    (if 0 ≤ exponent then den * powerOf exponent.toNat ≤ num
      else den ≤ num * powerOf (-exponent).toNat) ↔ (base : ℚ) ^ exponent ≤ (num : ℚ) / den := by
  have hbase : (0 : ℚ) < base := Nat.cast_pos.mpr hbase
  have hden : (0 : ℚ) < den := Nat.cast_pos.mpr hden
  rw [le_div_iff₀ hden]
  split
  · rename_i hexponent
    obtain ⟨n, rfl⟩ := Int.eq_ofNat_of_zero_le hexponent
    rw [hpower, Int.toNat_natCast, zpow_natCast, mul_comm]
    exact_mod_cast Iff.rfl
  · rename_i hexponent
    obtain ⟨n, rfl⟩ : ∃ n : Nat, exponent = -(n : Int) := ⟨(-exponent).toNat, by omega⟩
    rw [hpower, neg_neg, Int.toNat_natCast, zpow_neg, zpow_natCast, ← div_eq_inv_mul,
      div_le_iff₀ (by positivity)]
    exact_mod_cast Iff.rfl

/-- A guess at a logarithm that is right or one too large is put right. -/
theorem corrected_eq_log (base : Nat) (powerOf : Nat → Nat) (hbase : 1 < base)
    (hpower : ∀ n, powerOf n = base ^ n) {num den : Nat} (hnum : 0 < num) (hden : 0 < den)
    {guess : Int}
    (hbounds : (base : ℚ) ^ (guess - 1) < (num : ℚ) / den ∧
      (num : ℚ) / den < (base : ℚ) ^ (guess + 1)) :
    (if (if 0 ≤ guess then den * powerOf guess.toNat ≤ num
        else den ≤ num * powerOf (-guess).toNat) then guess else guess - 1) =
      Int.log base ((num : ℚ) / den) := by
  have hpos : (0 : ℚ) < (num : ℚ) / den := by positivity
  have hreached := reached_iff base powerOf (Nat.zero_lt_of_lt hbase) hpower num hden guess
  by_cases hreach : (base : ℚ) ^ guess ≤ (num : ℚ) / den
  · rw [if_pos (hreached.mpr hreach)]
    exact (log_eq_of_bounds hbase hpos hreach hbounds.2).symm
  · rw [if_neg fun hreach' => hreach (hreached.mp hreach')]
    refine (log_eq_of_bounds hbase hpos hbounds.1.le ?_).symm
    rw [sub_add_cancel]
    exact lt_of_not_ge hreach

theorem floorLog2_eq {num den : Nat} (hnum : 0 < num) (hden : 0 < den) :
    floorLog2 num den = Int.log 2 ((num : ℚ) / den) :=
  corrected_eq_log 2 twoTo (by decide) (fun _ => rfl) hnum hden <|
    log_div_bounds 2 (by decide) hden ⟨Nat.log2_self_le hnum.ne', Nat.lt_log2_self⟩
      ⟨Nat.log2_self_le hden.ne', Nat.lt_log2_self⟩

theorem digitCount_bounds {n : Nat} (hn : 0 < n) :
    10 ^ (digitCount n - 1) ≤ n ∧ n < 10 ^ (digitCount n - 1 + 1) := by
  have hcount : 0 < digitCount n := List.length_pos_of_ne_nil Nat.toDigits_ne_nil
  rw [Nat.sub_add_cancel hcount]
  have hle := fun k hk => Nat.length_toDigits_le_iff (b := 10) (n := n) (k := k) (by decide) hk
  refine ⟨?_, (hle _ hcount).mp (Nat.le_refl _)⟩
  rcases Nat.eq_or_lt_of_le hcount with hone | hmore
  · rw [← hone]
    exact hn
  · by_contra hless
    have hshort := (hle (digitCount n - 1) (by omega)).mpr (Nat.lt_of_not_le hless)
    exact absurd hshort (by unfold digitCount at hcount ⊢; omega)

theorem floorLog10_eq {num den : Nat} (hnum : 0 < num) (hden : 0 < den) :
    floorLog10 num den = Int.log 10 ((num : ℚ) / den) := by
  have hguess : ((digitCount num : Int) - digitCount den) =
      ((digitCount num - 1 : Nat) : Int) - ((digitCount den - 1 : Nat) : Int) := by
    have hnumCount : 0 < digitCount num := List.length_pos_of_ne_nil Nat.toDigits_ne_nil
    have hdenCount : 0 < digitCount den := List.length_pos_of_ne_nil Nat.toDigits_ne_nil
    omega
  have hbounds := log_div_bounds 10 (by decide) hden (digitCount_bounds hnum)
    (digitCount_bounds hden)
  rw [← hguess] at hbounds
  exact corrected_eq_log 10 tenTo (by decide) (fun _ => rfl) hnum hden hbounds

/-! ## Building doubles -/

/-- The pattern, without the sign, of the double nearest to a positive rational number. -/
def roundedMagnitude (w : ℚ) : Nat :=
  let power := max (Int.log 2 w - 52) (-1074)
  min ((power + 1074).toNat * twoTo 52 + nearestEven (w / 2 ^ power)) infinityBits

theorem roundedMagnitude_le (w : ℚ) : roundedMagnitude w ≤ infinityBits :=
  Nat.min_le_right ..

theorem ofRatio_eq (negative : Bool) {num den : Nat} (hnum : 0 < num) (hden : 0 < den) :
    ofRatio negative num den = ofMagnitude negative (roundedMagnitude ((num : ℚ) / den)) := by
  unfold ofRatio roundedMagnitude
  rw [if_neg hnum.ne', floorLog2_eq hnum hden]
  dsimp only
  generalize max (Int.log 2 ((num : ℚ) / den) - 52) (-1074) = power
  have hcast : (0 : ℚ) < den := Nat.cast_pos.mpr hden
  have hrounded :
      (if 0 ≤ power then divNearestEven num (den * twoTo power.toNat)
        else divNearestEven (num * twoTo (-power).toNat) den) =
          nearestEven ((num : ℚ) / den / 2 ^ power) := by
    split
    · rename_i hpower
      obtain ⟨n, rfl⟩ := Int.eq_ofNat_of_zero_le hpower
      rw [Int.toNat_natCast, divNearestEven_eq num (Nat.mul_pos hden (twoTo_pos n)), Nat.cast_mul,
        cast_twoTo, zpow_natCast, div_div]
    · rename_i hpower
      obtain ⟨n, rfl⟩ : ∃ n : Nat, power = -(n : Int) := ⟨(-power).toNat, by omega⟩
      rw [neg_neg, Int.toNat_natCast, divNearestEven_eq _ hden, Nat.cast_mul, cast_twoTo, zpow_neg,
        zpow_natCast, div_inv_eq_mul, div_mul_eq_mul_div]
  rw [hrounded]

theorem two_zpow_lt_ten_zpow : (2 : ℚ) ^ (1100 : Int) < 10 ^ (400 : Int) := by
  calc (2 : ℚ) ^ (1100 : Int) = (2 ^ (11 : Int)) ^ (100 : Int) := (zpow_mul 2 11 100)
    _ < (10 ^ (4 : Int)) ^ (100 : Int) := zpow_lt_zpow_left₀ (by decide) (by norm_num) (by norm_num)
    _ = 10 ^ (400 : Int) := (zpow_mul 10 4 100).symm

/-- What is too large is rounded to infinity. -/
theorem roundedMagnitude_of_large {w : ℚ} (hlarge : (10 : ℚ) ^ (401 : Int) ≤ w) :
    roundedMagnitude w = infinityBits := by
  have hpos : 0 < w := lt_of_lt_of_le (by positivity) hlarge
  have hlog : (1100 : Int) ≤ Int.log 2 w := by
    refine (Int.zpow_le_iff_le_log (by decide) hpos).mp (le_trans ?_ hlarge)
    exact two_zpow_lt_ten_zpow.le.trans (zpow_le_zpow_right₀ (by norm_num) (by norm_num))
  unfold roundedMagnitude
  dsimp only
  refine Nat.min_eq_right ?_
  have hpower : 2047 ≤ (max (Int.log 2 w - 52) (-1074) + 1074).toNat := by omega
  calc infinityBits = 2047 * twoTo 52 := rfl
    _ ≤ (max (Int.log 2 w - 52) (-1074) + 1074).toNat * twoTo 52 := Nat.mul_le_mul_right _ hpower
    _ ≤ _ := Nat.le_add_right ..

/-- What is too small is rounded to zero. -/
theorem roundedMagnitude_of_small {w : ℚ} (hpos : 0 < w) (hsmall : w < (10 : ℚ) ^ (-400 : Int)) :
    roundedMagnitude w = 0 := by
  have hless : w < (2 : ℚ) ^ (-1100 : Int) := by
    refine hsmall.trans ?_
    rw [zpow_neg, zpow_neg]
    exact inv_strictAnti₀ (by positivity) two_zpow_lt_ten_zpow
  have hlog : Int.log 2 w < -1100 := (Int.lt_zpow_iff_log_lt (by decide) hpos).mp hless
  have hpower : max (Int.log 2 w - 52) (-1074) = -1074 := by omega
  have hquotient : w / 2 ^ (-1074 : Int) < 1 / 2 := by
    rw [div_lt_iff₀ (by positivity)]
    calc w < (2 : ℚ) ^ (-1100 : Int) := hless
      _ ≤ 2 ^ (-1 + -1074 : Int) := zpow_le_zpow_right₀ (by norm_num) (by norm_num)
      _ = 1 / 2 * 2 ^ (-1074 : Int) := by rw [zpow_add₀ (by norm_num), zpow_neg_one, one_div]
  have hrounded : nearestEven (w / 2 ^ (-1074 : Int)) = 0 := by
    refine nearestEven_eq_of_abs_lt (by positivity) ?_
    rw [Nat.cast_zero, sub_zero, abs_of_pos (by positivity)]
    exact hquotient
  unfold roundedMagnitude
  dsimp only
  rw [hpower, hrounded]
  rfl

/-- A coefficient has no more decimal digits than a third of its binary ones. -/
theorem lt_tenTo_log2 (coefficient : Nat) : coefficient < 10 ^ (coefficient.log2 / 3 + 1) := by
  calc coefficient < 2 ^ (coefficient.log2 + 1) := Nat.lt_log2_self
    _ ≤ 2 ^ (3 * (coefficient.log2 / 3 + 1)) := Nat.pow_le_pow_right (by decide) (by omega)
    _ = 8 ^ (coefficient.log2 / 3 + 1) := Nat.pow_mul 2 3 _
    _ ≤ 10 ^ (coefficient.log2 / 3 + 1) := Nat.pow_le_pow_left (by decide) _

theorem ofDecimal_eq (negative : Bool) {coefficient : Nat} (hcoefficient : 0 < coefficient)
    (exponent : Int) : ofDecimal negative coefficient exponent =
      ofMagnitude negative (roundedMagnitude (coefficient * 10 ^ exponent)) := by
  have hone : (1 : ℚ) ≤ coefficient := by exact_mod_cast hcoefficient
  have hpower : (0 : ℚ) < 10 ^ exponent := by positivity
  unfold ofDecimal
  rw [if_neg hcoefficient.ne']
  dsimp only
  split
  · rename_i hlarge
    rw [roundedMagnitude_of_large]
    · rfl
    · calc (10 : ℚ) ^ (401 : Int) ≤ 10 ^ exponent :=
            zpow_le_zpow_right₀ (by norm_num) (by omega)
        _ ≤ coefficient * 10 ^ exponent := le_mul_of_one_le_left hpower.le hone
  · split
    · rename_i hsmall
      rw [roundedMagnitude_of_small (by positivity)]
      · rfl
      · have hdigits : (coefficient : ℚ) < 10 ^ (coefficient.log2 / 3 + 1) := by
          exact_mod_cast lt_tenTo_log2 coefficient
        calc (coefficient : ℚ) * 10 ^ exponent
            < 10 ^ (coefficient.log2 / 3 + 1) * 10 ^ exponent := by gcongr
          _ = 10 ^ (((coefficient.log2 / 3 + 1 : Nat) : Int) + exponent) := by
              rw [zpow_add₀ (by norm_num), zpow_natCast]
          _ ≤ 10 ^ (-400 : Int) := zpow_le_zpow_right₀ (by norm_num) (by push_cast; omega)
    · split
      · rename_i hexponent
        obtain ⟨n, rfl⟩ := Int.eq_ofNat_of_zero_le hexponent
        rw [Int.toNat_natCast, ofRatio_eq _ (Nat.mul_pos hcoefficient (tenTo_pos n)) (by decide),
          Nat.cast_mul, cast_tenTo, zpow_natCast, Nat.cast_one, div_one]
      · rename_i hexponent
        obtain ⟨n, rfl⟩ : ∃ n : Nat, exponent = -(n : Int) := ⟨(-exponent).toNat, by omega⟩
        rw [neg_neg, Int.toNat_natCast, ofRatio_eq _ hcoefficient (tenTo_pos n), cast_tenTo,
          zpow_neg, zpow_natCast, div_eq_mul_inv]

/-! ## Doubles -/

/-- The magnitude of a finite double. -/
def value (x : Binary64) : ℚ :=
  x.significand * 2 ^ x.power

theorem ratio_eq_value (x : Binary64) : (x.ratio.1 : ℚ) / x.ratio.2 = x.value := by
  unfold ratio value
  split
  · rename_i hpower
    obtain ⟨n, hn⟩ := Int.eq_ofNat_of_zero_le hpower
    rw [hn, Int.toNat_natCast, Nat.cast_mul, cast_twoTo, zpow_natCast, Nat.cast_one, div_one]
  · rename_i hpower
    obtain ⟨n, hn⟩ : ∃ n : Nat, x.power = -(n : Int) := ⟨(-x.power).toNat, by omega⟩
    rw [hn, neg_neg, Int.toNat_natCast, cast_twoTo, zpow_neg, zpow_natCast, div_eq_mul_inv]

theorem ratio_den_pos (x : Binary64) : 0 < x.ratio.2 := by
  unfold ratio
  split
  · exact Nat.one_pos
  · exact twoTo_pos _

/-- The parts of a finite double that is not zero. -/
structure Parts (x : Binary64) : Prop where
  pos : 0 < x.significand
  lt : x.significand < twoTo 53
  least : -1074 ≤ x.power
  greatest : x.power ≤ 971
  /-- Only the doubles of the least power have a short significand. -/
  long : -1074 < x.power → twoTo 52 ≤ x.significand
  magnitudeBits_eq : x.magnitudeBits = (x.power + 1074).toNat * twoTo 52 + x.significand

theorem parts {x : Binary64} (hfinite : x.isFinite) (hzero : x.isZero = false) : x.Parts := by
  have hbits : x.magnitudeBits = twoTo 52 * x.exponentField + x.fractionField :=
    (Nat.div_add_mod ..).symm
  have hfraction : x.fractionField < twoTo 52 := Nat.mod_lt _ (twoTo_pos 52)
  have hlarge : x.magnitudeBits < 2047 * twoTo 52 := of_decide_eq_true hfinite
  have hnonzero : x.magnitudeBits ≠ 0 := of_decide_eq_false hzero
  have hpower : twoTo 52 = 4503599627370496 := rfl
  have hnext : twoTo 53 = 9007199254740992 := rfl
  rw [hpower] at hbits hfraction hlarge
  rcases Nat.eq_zero_or_pos x.exponentField with hfield | hfield
  · have hsignificand : x.significand = x.fractionField := if_pos hfield
    have hexponent : x.power = -1074 := if_pos hfield
    refine ⟨by omega, by omega, by omega, by omega, by omega, ?_⟩
    rw [hpower]
    omega
  · have hsignificand : x.significand = x.fractionField + twoTo 52 := if_neg hfield.ne'
    have hexponent : x.power = (x.exponentField : Int) - 1075 := if_neg hfield.ne'
    refine ⟨by omega, by omega, by omega, by omega, by omega, ?_⟩
    rw [hpower]
    omega

theorem value_pos {x : Binary64} (hparts : x.Parts) : 0 < x.value := by
  have hpos : (0 : ℚ) < x.significand := Nat.cast_pos.mpr hparts.pos
  unfold value
  positivity

theorem ratio_num_pos {x : Binary64} (hparts : x.Parts) : 0 < x.ratio.1 := by
  have hpos := value_pos hparts
  rw [← ratio_eq_value] at hpos
  refine Nat.pos_of_ne_zero fun hzero => ?_
  rw [hzero, Nat.cast_zero, zero_div] at hpos
  exact lt_irrefl _ hpos

theorem Parts.magnitudeBits_pos {x : Binary64} (hparts : x.Parts) : 0 < x.magnitudeBits :=
  hparts.magnitudeBits_eq ▸ Nat.lt_of_lt_of_le hparts.pos (Nat.le_add_left ..)

theorem Parts.magnitudeBits_le {x : Binary64} (hparts : x.Parts) :
    x.magnitudeBits ≤ infinityBits := by
  have hbits := hparts.magnitudeBits_eq
  have hlt := hparts.lt
  have hgreatest := hparts.greatest
  have hinfinity : infinityBits = 2047 * twoTo 52 := rfl
  have hnext : twoTo 53 = 2 * twoTo 52 := rfl
  have hfield : (x.power + 1074).toNat ≤ 2045 := by omega
  have hmul := Nat.mul_le_mul_right (twoTo 52) hfield
  omega

theorem two_zpow_add (power : Int) (n : Nat) :
    ((2 : Nat) : ℚ) ^ (power + n) = 2 ^ n * 2 ^ power := by
  rw [add_comm, zpow_add₀ (by norm_num), zpow_natCast]
  norm_num

section Near

variable {x : Binary64} (hparts : x.Parts) {w : ℚ} (hpos : 0 < w)

include hparts hpos

/-- A number with the same unit in the last place is rounded to a double near it. -/
theorem roundedMagnitude_of_power (hpower : max (Int.log 2 w - 52) (-1074) = x.power)
    (hscaled : |w / 2 ^ x.power - x.significand| < 1 / 2) :
    roundedMagnitude w = x.magnitudeBits := by
  unfold roundedMagnitude
  dsimp only
  rw [hpower, nearestEven_eq_of_abs_lt (by positivity) hscaled, ← hparts.magnitudeBits_eq]
  exact Nat.min_eq_left hparts.magnitudeBits_le

/-- Just below a power of two the unit in the last place is half as large, and a number that is
near enough is rounded up to the power. -/
theorem roundedMagnitude_below_power (hsignificand : x.significand = twoTo 52)
    (hnormal : -1074 < x.power) (hless : w / 2 ^ x.power < 2 ^ 52)
    (hmore : 2 ^ 52 - 1 / 4 < w / 2 ^ x.power) : roundedMagnitude w = x.magnitudeBits := by
  have hunit : (0 : ℚ) < 2 ^ x.power := by positivity
  have hlogGreatest : Int.log 2 w < x.power + (52 : Nat) := by
    refine (Int.lt_zpow_iff_log_lt (by decide) hpos).mp ?_
    rw [two_zpow_add]
    exact (div_lt_iff₀ hunit).mp hless
  have hlogLeast : x.power + (51 : Nat) ≤ Int.log 2 w := by
    refine (Int.zpow_le_iff_le_log (by decide) hpos).mp ?_
    rw [two_zpow_add]
    exact (le_div_iff₀ hunit).mp (by linarith)
  have hpower : max (Int.log 2 w - 52) (-1074) = x.power - 1 := by omega
  have hdouble : w / 2 ^ (x.power - 1) = 2 * (w / 2 ^ x.power) := by
    rw [zpow_sub_one₀ (by norm_num), div_mul_eq_div_div, div_inv_eq_mul, mul_comm]
  have hrounded : nearestEven (w / 2 ^ (x.power - 1)) = twoTo 53 := by
    refine nearestEven_eq_of_abs_lt (by positivity) ?_
    rw [hdouble, cast_twoTo, abs_lt]
    constructor <;> linarith
  have hnext : twoTo 53 = twoTo 52 + twoTo 52 := rfl
  have hfield : (x.power + 1074).toNat = (x.power - 1 + 1074).toNat + 1 := by omega
  have hsame : (x.power - 1 + 1074).toNat * twoTo 52 + twoTo 53 = x.magnitudeBits := by
    rw [hparts.magnitudeBits_eq, hsignificand, hfield, hnext, Nat.add_one_mul, Nat.add_assoc]
  unfold roundedMagnitude
  dsimp only
  rw [hpower, hrounded, hsame]
  exact Nat.min_eq_left hparts.magnitudeBits_le

/-- **What is near a double is rounded to it**: nearer than half the way to the next double, which
below a power of two is half as far away. -/
theorem roundedMagnitude_of_near (hnear : |w - x.value| < 2 ^ x.power / 2)
    (hbelow : x.significand = twoTo 52 → x.value - 2 ^ x.power / 4 < w) :
    roundedMagnitude w = x.magnitudeBits := by
  have hunit : (0 : ℚ) < 2 ^ x.power := by positivity
  -- In units of the last place the number is near the significand.
  have hscaled : |w / 2 ^ x.power - x.significand| < 1 / 2 := by
    have hsame : w / 2 ^ x.power - x.significand = (w - x.value) / 2 ^ x.power := by
      rw [value, sub_div, mul_div_cancel_right₀ _ hunit.ne']
    rw [hsame, abs_div, abs_of_pos hunit, div_lt_iff₀ hunit]
    linarith
  obtain ⟨hlower, hupper⟩ := abs_lt.mp hscaled
  have hlog : Int.log 2 w < x.power + (53 : Nat) := by
    have hsignificand : (x.significand : ℚ) + 1 ≤ 2 ^ 53 := by
      exact_mod_cast hparts.lt
    refine (Int.lt_zpow_iff_log_lt (by decide) hpos).mp ?_
    rw [two_zpow_add]
    exact (div_lt_iff₀ hunit).mp (by linarith)
  have hleast := hparts.least
  by_cases hbinade : x.power + (52 : Nat) ≤ Int.log 2 w ∨ x.power = -1074
  · exact roundedMagnitude_of_power hparts hpos (by omega) hscaled
  · obtain ⟨hshort, hnormal⟩ := not_or.mp hbinade
    have hless : w / 2 ^ x.power < 2 ^ 52 := by
      have hpowerLess := (Int.lt_zpow_iff_log_lt (by decide) hpos).mpr (Int.lt_of_not_ge hshort)
      rw [two_zpow_add] at hpowerLess
      exact (div_lt_iff₀ hunit).mpr hpowerLess
    have hsignificand : x.significand = twoTo 52 := by
      refine Nat.le_antisymm (Nat.le_of_lt_succ ?_) (hparts.long (by omega))
      have hcast : (x.significand : ℚ) < (2 ^ 52 + 1 : Nat) := by
        push_cast
        linarith
      exact_mod_cast hcast
    have hmore : 2 ^ 52 - 1 / 4 < w / 2 ^ x.power := by
      have hbelow := hbelow hsignificand
      rw [value, hsignificand, cast_twoTo] at hbelow
      rw [lt_div_iff₀ hunit]
      linarith
    exact roundedMagnitude_below_power hparts hpos hsignificand (by omega) hless hmore

end Near

end Binary64

end Clearing
