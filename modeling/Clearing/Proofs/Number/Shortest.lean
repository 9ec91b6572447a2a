import Clearing.Proofs.Number.Nearest

/-!
# Shortest digits can be read back

The digits of a double are looked for on finer and finer decimal grids until some of them
are read back as the double.  The search ends on the grid of seventeen digits at the
latest (`isSome_onGrid?`): its points are nearer to each other than two doubles are, also
just below a power of two.

How the digits are written then does not matter.  Whatever coefficient and exponent have
the same value are read as the same double (`ofDecimal_of_value_eq`).
-/

namespace Clearing.Binary64

variable {x : Binary64}

/-! ## Grids -/

theorem inUnits_eq (num : Nat) {den : Nat} (hden : 0 < den) (exponent : Int) :
    0 < (inUnits num den exponent).2 ∧
      ((inUnits num den exponent).1 : ℚ) / (inUnits num den exponent).2 =
        (num : ℚ) / den / 10 ^ exponent := by
  unfold inUnits
  split
  · rename_i hexponent
    obtain ⟨n, rfl⟩ := Int.eq_ofNat_of_zero_le hexponent
    refine ⟨Nat.mul_pos hden (tenTo_pos _), ?_⟩
    rw [Int.toNat_natCast, Nat.cast_mul, cast_tenTo, zpow_natCast, div_div]
  · rename_i hexponent
    obtain ⟨n, rfl⟩ : ∃ n : Nat, exponent = -(n : Int) := ⟨(-exponent).toNat, by omega⟩
    refine ⟨hden, ?_⟩
    rw [neg_neg, Int.toNat_natCast, Nat.cast_mul, cast_tenTo, zpow_neg, zpow_natCast,
      div_inv_eq_mul, div_mul_eq_mul_div]

theorem divNearestEven_eq_or (dividend divisor : Nat) :
    divNearestEven dividend divisor = dividend / divisor ∨
      divNearestEven dividend divisor = dividend / divisor + 1 := by
  have hleast := le_divNearestEven dividend divisor
  have hgreatest := divNearestEven_le dividend divisor
  omega

/-- What is found on a grid is read back. -/
theorem ofDecimal_of_onGrid? {exponent : Int} {digits : Digits}
    (hfound : x.onGrid? exponent = some digits) :
    ofDecimal false digits.coefficient digits.exponent = ofMagnitude false x.magnitudeBits := by
  unfold onGrid? at hfound
  dsimp only at hfound
  split at hfound
  · rename_i hlow hnext
    cases hfound
    rcases divNearestEven_eq_or (inUnits x.ratio.1 x.ratio.2 exponent).1
      (inUnits x.ratio.1 x.ratio.2 exponent).2 with hsame | hsame <;> rw [hsame]
    · exact of_decide_eq_true hlow
    · exact of_decide_eq_true hnext
  · rename_i hlow hnext
    cases hfound
    exact of_decide_eq_true hlow
  · rename_i hlow hnext
    cases hfound
    exact of_decide_eq_true hnext
  · cases hfound

/-- If the nearest point of a grid is read back, something is found on it. -/
theorem isSome_onGrid?_of_nearest {exponent : Int}
    (hreads : ofDecimal false (divNearestEven (inUnits x.ratio.1 x.ratio.2 exponent).1
      (inUnits x.ratio.1 x.ratio.2 exponent).2) exponent = ofMagnitude false x.magnitudeBits) :
    (x.onGrid? exponent).isSome := by
  unfold onGrid?
  dsimp only
  split
  · rfl
  · rfl
  · rfl
  · rename_i hlow hnext
    rcases divNearestEven_eq_or (inUnits x.ratio.1 x.ratio.2 exponent).1
      (inUnits x.ratio.1 x.ratio.2 exponent).2 with hsame | hsame <;> rw [hsame] at hreads
    · exact absurd hreads (of_decide_eq_false hlow)
    · exact absurd hreads (of_decide_eq_false hnext)

/-- The nearest integer to a quotient is at most a half away from it. -/
theorem abs_sub_divNearestEven_le (dividend : Nat) {divisor : Nat} (hdivisor : 0 < divisor) :
    |(divNearestEven dividend divisor : ℚ) - dividend / divisor| ≤ 1 / 2 := by
  have hpos : (0 : ℚ) < divisor := Nat.cast_pos.mpr hdivisor
  obtain ⟨hbelow, habove⟩ := near_divNearestEven dividend hdivisor
  have hbelow : 2 * (dividend : ℚ) ≤ (2 * divNearestEven dividend divisor + 1) * divisor := by
    exact_mod_cast hbelow
  have habove : 2 * (divNearestEven dividend divisor : ℚ) * divisor ≤ 2 * dividend + divisor := by
    exact_mod_cast habove
  have hquotient : (dividend : ℚ) = dividend / divisor * divisor := by
    rw [div_mul_cancel₀ _ hpos.ne']
  rw [abs_le]
  constructor <;> nlinarith

/-- The nearest point of a grid is at most half a step away. -/
theorem abs_nearest_sub_value_le (x : Binary64) (exponent : Int) :
    |(divNearestEven (inUnits x.ratio.1 x.ratio.2 exponent).1
      (inUnits x.ratio.1 x.ratio.2 exponent).2 : ℚ) * 10 ^ exponent - x.value| ≤
        10 ^ exponent / 2 := by
  have hstep : (0 : ℚ) < 10 ^ exponent := by positivity
  obtain ⟨hden, hquotient⟩ := inUnits_eq x.ratio.1 x.ratio_den_pos exponent
  have hnearest := abs_sub_divNearestEven_le (inUnits x.ratio.1 x.ratio.2 exponent).1 hden
  rw [hquotient, ratio_eq_value] at hnearest
  generalize divNearestEven (inUnits x.ratio.1 x.ratio.2 exponent).1
    (inUnits x.ratio.1 x.ratio.2 exponent).2 = nearest at hnearest ⊢
  have hsame : (nearest : ℚ) * 10 ^ exponent - x.value =
      (nearest - x.value / 10 ^ exponent) * 10 ^ exponent := by
    rw [sub_mul, div_mul_cancel₀ _ hstep.ne']
  rw [hsame, abs_mul, abs_of_pos hstep]
  linarith [mul_le_mul_of_nonneg_right hnearest hstep.le]

/-- On a grid with seventeen digits a point that is nearest to a double is read as the double: a
step is less than the way from one double to the next. -/
theorem ofDecimal_of_near_on_grid (hparts : x.Parts) {coefficient : Nat} {exponent : Int}
    (hfine : (10 : ℚ) ^ exponent * 10 ^ 16 ≤ x.value)
    (hnear : |(coefficient : ℚ) * 10 ^ exponent - x.value| ≤ 10 ^ exponent / 2) :
    ofDecimal false coefficient exponent = ofMagnitude false x.magnitudeBits := by
  have hunit : (0 : ℚ) < 2 ^ x.power := by positivity
  have hstep : (0 : ℚ) < 10 ^ exponent := by positivity
  generalize hgrid : (10 : ℚ) ^ exponent = step at hfine hnear hstep
  have hlower := (abs_le.mp hnear).1
  have hcoefficient : 0 < coefficient := by
    have hpos : (0 : ℚ) < coefficient * step := by linarith
    exact Nat.cast_pos.mp (pos_of_mul_pos_left hpos hstep.le)
  have hless : step < 2 ^ x.power := by
    have hsignificand : (x.significand : ℚ) + 1 ≤ 2 ^ 53 := by
      exact_mod_cast hparts.lt
    rw [value] at hfine
    nlinarith
  rw [ofDecimal_eq false hcoefficient, hgrid, roundedMagnitude_of_near hparts]
  · positivity
  · exact lt_of_le_of_lt hnear (by linarith)
  · intro hpowerOfTwo
    have hhalf : step / 2 < 2 ^ x.power / 4 := by
      rw [value, hpowerOfTwo, cast_twoTo] at hfine
      linarith
    linarith

/-- **Seventeen digits suffice**: on their grid something is read as the double. -/
theorem isSome_onGrid? (hparts : x.Parts) : (x.onGrid? (Int.log 10 x.value - 16)).isSome := by
  have hfine : (10 : ℚ) ^ (Int.log 10 x.value - 16) * 10 ^ 16 ≤ x.value := by
    have hlog := Int.zpow_log_le_self (b := 10) (by decide) (value_pos hparts)
    refine le_trans (le_of_eq ?_) hlog
    rw [← zpow_natCast, ← zpow_add₀ (by norm_num)]
    norm_num
  exact isSome_onGrid?_of_nearest
    (ofDecimal_of_near_on_grid hparts hfine (abs_nearest_sub_value_le x _))

/-! ## The shortest digits -/

/-- A double is its sign and the bits below it. -/
theorem ofMagnitude_magnitudeBits (x : Binary64) :
    ofMagnitude x.negative x.magnitudeBits = x := by
  have hbits := x.bits.toNat_lt
  have hsign : twoTo 63 = 9223372036854775808 := rfl
  rw [ofMagnitude, negative, magnitudeBits, hsign]
  have hsum : x.bits.toNat % 9223372036854775808 +
      (if decide (9223372036854775808 ≤ x.bits.toNat) = true then 9223372036854775808 else 0) =
        x.bits.toNat := by
    simp only [decide_eq_true_eq]
    split <;> omega
  rw [hsum, UInt64.ofNat_toNat]

theorem ofMagnitude_inj {a b : Nat} (ha : a ≤ infinityBits) (hb : b ≤ infinityBits)
    (hsame : ofMagnitude false a = ofMagnitude false b) : a = b := by
  have hbits := congrArg magnitudeBits hsame
  rwa [magnitudeBits_ofMagnitude _ ha, magnitudeBits_ofMagnitude _ hb] at hbits

theorem ofDecimal_shortest (hparts : x.Parts) :
    ofDecimal false x.shortest.coefficient x.shortest.exponent =
      ofMagnitude false x.magnitudeBits := by
  have hlog : floorLog10 x.ratio.1 x.ratio.2 = Int.log 10 x.value := by
    rw [floorLog10_eq (ratio_num_pos hparts) x.ratio_den_pos, ratio_eq_value]
  unfold shortest
  dsimp only
  rw [hlog]
  generalize hgrids : (List.range 17).map
    (fun (count : Nat) => Int.log 10 x.value - (count : Int)) = grids
  have hgrid : Int.log 10 x.value - 16 ∈ grids := by
    rw [← hgrids]
    exact List.mem_map.mpr ⟨16, by decide, rfl⟩
  have hsome : (grids.findSome? x.onGrid?).isSome :=
    List.findSome?_isSome_iff.mpr ⟨_, hgrid, isSome_onGrid? hparts⟩
  obtain ⟨digits, hdigits⟩ := Option.isSome_iff_exists.mp hsome
  obtain ⟨exponent, -, hfound⟩ := List.exists_of_findSome?_eq_some hdigits
  rw [hdigits, Option.getD_some]
  exact ofDecimal_of_onGrid? hfound

/-- To leave out zeros at the end does not change the value. -/
theorem value_normalized (digits : Digits) (bound : Nat) :
    ((digits.normalized bound).coefficient : ℚ) * 10 ^ (digits.normalized bound).exponent =
      digits.coefficient * 10 ^ digits.exponent := by
  induction bound generalizing digits with
  | zero => rfl
  | succ bound ih =>
      rw [Digits.normalized]
      split
      · rename_i hzero
        have hwhole : digits.coefficient = digits.coefficient / 10 * 10 := by omega
        rw [ih, zpow_add_one₀ (by norm_num)]
        dsimp only
        conv_rhs => rw [hwhole]
        push_cast
        ring
      · rfl

theorem coefficient_shortest_pos (hparts : x.Parts) : 0 < x.shortest.coefficient := by
  refine Nat.pos_of_ne_zero fun hzero => ?_
  have hshortest := ofDecimal_shortest hparts
  rw [hzero] at hshortest
  have hnone : 0 = x.magnitudeBits :=
    ofMagnitude_inj (Nat.zero_le _) hparts.magnitudeBits_le hshortest
  exact absurd hparts.magnitudeBits_pos (by omega)

theorem coefficient_normalized_pos (hparts : x.Parts) (bound : Nat) :
    0 < (x.shortest.normalized bound).coefficient := by
  have hvalue := value_normalized x.shortest bound
  have hshortest : (0 : ℚ) < x.shortest.coefficient :=
    Nat.cast_pos.mpr (coefficient_shortest_pos hparts)
  have hpos : (0 : ℚ) < x.shortest.coefficient * 10 ^ x.shortest.exponent := by positivity
  rw [← hvalue] at hpos
  exact Nat.cast_pos.mp (pos_of_mul_pos_left hpos (by positivity))

/-- **Whatever has the value of the shortest digits is read as the double**, with its sign. -/
theorem ofDecimal_of_value_eq (hparts : x.Parts) (negative : Bool) (bound : Nat)
    {coefficient : Nat} {exponent : Int}
    (hvalue : (coefficient : ℚ) * 10 ^ exponent = (x.shortest.normalized bound).coefficient *
      10 ^ (x.shortest.normalized bound).exponent) :
    ofDecimal negative coefficient exponent = ofMagnitude negative x.magnitudeBits := by
  have hshortest := ofDecimal_shortest hparts
  rw [ofDecimal_eq false (coefficient_shortest_pos hparts)] at hshortest
  have hrounded :=
    ofMagnitude_inj (roundedMagnitude_le _) hparts.magnitudeBits_le hshortest
  have hcoefficient : 0 < coefficient := by
    have hnormalized : (0 : ℚ) < (x.shortest.normalized bound).coefficient :=
      Nat.cast_pos.mpr (coefficient_normalized_pos hparts bound)
    have hpos : (0 : ℚ) < (x.shortest.normalized bound).coefficient *
        10 ^ (x.shortest.normalized bound).exponent := by
      positivity
    rw [← hvalue] at hpos
    exact Nat.cast_pos.mp (pos_of_mul_pos_left hpos (by positivity))
  rw [ofDecimal_eq negative hcoefficient, hvalue, value_normalized, hrounded]

end Clearing.Binary64
