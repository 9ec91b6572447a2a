import Clearing.Number.Binary64

/-!
# Doubles that are numbers

A NaN is neither below nor above anything, so a comparison that fails says which of
two doubles is larger only if both are numbers (`lt_of_not_le`).  Products and
quotients of counts are: rounding stops at infinity (`magnitudeBits_ofRatio_le`),
and a count that fits a machine word stays finite and does not become zero
(`isFinite_ofNat`, `isZero_ofNat`).
-/

namespace Clearing

namespace Binary64

/-! ## Magnitudes -/

private theorem twoTo_52 : twoTo 52 = 4503599627370496 := by decide

private theorem twoTo_53 : twoTo 53 = 9007199254740992 := by decide

private theorem infinityBits_eq : infinityBits = 9218868437227405312 := by decide

theorem magnitudeBits_ofMagnitude (negative : Bool) {magnitude : Nat}
    (hmagnitude : magnitude ≤ infinityBits) :
    (ofMagnitude negative magnitude).magnitudeBits = magnitude := by
  have hsmall : magnitude < 9223372036854775808 := Nat.lt_of_le_of_lt hmagnitude (by decide)
  cases negative <;>
    simp [magnitudeBits, ofMagnitude, twoTo] <;> omega

theorem magnitudeBits_ofRatio_le (negative : Bool) (num den : Nat) :
    (ofRatio negative num den).magnitudeBits ≤ infinityBits := by
  unfold ofRatio
  split
  · rw [zero, magnitudeBits_ofMagnitude _ (Nat.zero_le _)]
    exact Nat.zero_le _
  · dsimp only
    rw [magnitudeBits_ofMagnitude _ (Nat.min_le_right ..)]
    exact Nat.min_le_right ..

/-- A quotient of integers is rounded to a number or to infinity. -/
theorem isNaN_ofRatio (negative : Bool) (num den : Nat) :
    (ofRatio negative num den).isNaN = false := by
  simpa [isNaN] using magnitudeBits_ofRatio_le negative num den

theorem isNaN_infinity (negative : Bool) : (infinity negative).isNaN = false := by
  simp [isNaN, infinity, magnitudeBits_ofMagnitude]

/-! ## Counts -/

section Count

variable {n : Nat}

theorem lt_twoTo_log2 : n < twoTo (n.log2 + 1) :=
  Nat.lt_log2_self

/-- A count that is too long for a significand is divided down to one. -/
theorem divNearestEven_le_twoTo (hlong : 52 ≤ n.log2) :
    divNearestEven n (twoTo (n.log2 - 52)) ≤ twoTo 53 := by
  have hsplit : twoTo (n.log2 + 1) = twoTo 53 * twoTo (n.log2 - 52) := by
    rw [← twoTo_add]
    congr 1
    omega
  have hquotient : n / twoTo (n.log2 - 52) < twoTo 53 :=
    (Nat.div_lt_iff_lt_mul (twoTo_pos _)).mpr (hsplit ▸ lt_twoTo_log2)
  have hrounded := divNearestEven_le n (twoTo (n.log2 - 52))
  omega

/-- A count that is shorter than a significand is filled up to one. -/
theorem mul_twoTo_le (hshort : n.log2 < 52) : n * twoTo (52 - n.log2) ≤ twoTo 53 := by
  have hsplit : twoTo 53 = twoTo (n.log2 + 1) * twoTo (52 - n.log2) := by
    rw [← twoTo_add]
    congr 1
    omega
  rw [hsplit]
  exact Nat.mul_le_mul_right _ (Nat.le_of_lt lt_twoTo_log2)

variable (hpos : 0 < n)

include hpos

theorem floorLog2_one : floorLog2 n 1 = n.log2 := by
  have hreached : twoTo n.log2 ≤ n := Nat.log2_self_le (by omega)
  have hone : Nat.log2 1 = 0 := by decide
  simp [floorLog2, hone, hreached]

variable (hword : n < 18446744073709551616)

include hword

/-- The magnitude of a count that fits a machine word is given by its leading power of two. -/
theorem magnitudeBits_ofNat :
    ∃ rounded ≤ twoTo 53, (ofNat n).magnitudeBits = (n.log2 + 1022) * twoTo 52 + rounded := by
  have hlog : n.log2 < 64 := (Nat.log2_lt (by omega)).mpr hword
  have hpower : max ((n.log2 : Int) - 52) (-1074) = (n.log2 : Int) - 52 := by omega
  have hexponent : ((n.log2 : Int) - 52 + 1074).toNat = n.log2 + 1022 := by omega
  have hfinite {rounded : Nat} (hrounded : rounded ≤ twoTo 53) :
      (n.log2 + 1022) * twoTo 52 + rounded ≤ infinityBits := by
    rw [twoTo_52, infinityBits_eq]
    rw [twoTo_53] at hrounded
    omega
  unfold ofNat ofRatio
  rw [if_neg (by omega : n ≠ 0), floorLog2_one hpos]
  dsimp only
  rw [hpower, hexponent]
  by_cases hlong : 52 ≤ n.log2
  · have hshift : ((n.log2 : Int) - 52).toNat = n.log2 - 52 := by omega
    have hrounded := divNearestEven_le_twoTo hlong
    rw [if_pos (by omega), hshift, Nat.one_mul, Nat.min_eq_left (hfinite hrounded),
      magnitudeBits_ofMagnitude _ (hfinite hrounded)]
    exact ⟨_, hrounded, rfl⟩
  · have hshift : (-((n.log2 : Int) - 52)).toNat = 52 - n.log2 := by omega
    have hrounded := mul_twoTo_le (Nat.not_le.mp hlong)
    rw [if_neg (by omega), hshift, divNearestEven_one, Nat.min_eq_left (hfinite hrounded),
      magnitudeBits_ofMagnitude _ (hfinite hrounded)]
    exact ⟨_, hrounded, rfl⟩

theorem isFinite_ofNat : (ofNat n).isFinite := by
  have hlog : n.log2 < 64 := (Nat.log2_lt (by omega)).mpr hword
  obtain ⟨rounded, hrounded, hmagnitude⟩ := magnitudeBits_ofNat hpos hword
  rw [twoTo_53] at hrounded
  rw [twoTo_52] at hmagnitude
  simp only [isFinite, infinityBits_eq, decide_eq_true_eq]
  omega

theorem isZero_ofNat : (ofNat n).isZero = false := by
  obtain ⟨rounded, hrounded, hmagnitude⟩ := magnitudeBits_ofNat hpos hword
  rw [twoTo_52] at hmagnitude
  simp only [isZero, decide_eq_false_iff_not]
  omega

end Count

/-! ## Arithmetic -/

variable {x y : Binary64}

theorem isNaN_mul (hx : x.isNaN = false) (hy : y.isNaN = false) (hfinite : y.isFinite)
    (hzero : y.isZero = false) : (x.mul y).isNaN = false := by
  unfold mul
  dsimp only
  rw [hx, hy, hfinite, hzero, Bool.and_true, Bool.or_false, if_neg (by simp)]
  split
  · exact isNaN_ofRatio ..
  · rename_i hinfinite
    have hnonzero : x.isZero = false := by
      simp only [isFinite, infinityBits_eq, decide_eq_true_eq] at hinfinite
      simp only [isZero, decide_eq_false_iff_not]
      omega
    rw [hnonzero, if_neg (by simp)]
    exact isNaN_infinity _

theorem isNaN_div (hx : x.isNaN = false) (hy : y.isNaN = false) (hfinite : y.isFinite)
    (hzero : y.isZero = false) : (x.div y).isNaN = false := by
  unfold div
  dsimp only
  rw [hx, hy, hfinite, hzero]
  simp only [Bool.or_self, Bool.false_eq_true, if_false, Bool.not_true, if_true]
  split
  · exact isNaN_infinity _
  · exact isNaN_ofRatio ..

/-- Of two numbers one is at most the other or larger. -/
theorem lt_of_not_le (hx : x.isNaN = false) (hy : y.isNaN = false) (hle : x.le y = false) :
    y.lt x := by
  simp only [le, lt, hx, hy, Bool.not_false, Bool.true_and, decide_eq_true_eq,
    decide_eq_false_iff_not] at hle ⊢
  omega

end Binary64

end Clearing
