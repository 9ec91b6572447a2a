/-!
# Rounding a quotient

Every number in the library that is not exact is exact once: an operation is
carried out on integers and its quotient is then rounded to the nearest integer,
a half going to the even neighbour.
-/

namespace Clearing

/-- The integer nearest to `dividend / divisor`; of two equally near ones the even one. -/
def divNearestEven (dividend divisor : Nat) : Nat :=
  let quotient := dividend / divisor
  let twice := 2 * (dividend % divisor)
  if twice < divisor then quotient
  else if divisor < twice then quotient + 1
  else quotient + quotient % 2

@[simp] theorem divNearestEven_one (dividend : Nat) : divNearestEven dividend 1 = dividend := by
  simp [divNearestEven, Nat.mod_one]

theorem le_divNearestEven (dividend divisor : Nat) :
    dividend / divisor ≤ divNearestEven dividend divisor := by
  simp only [divNearestEven]
  split
  · exact Nat.le_refl _
  · split
    · exact Nat.le_succ _
    · exact Nat.le_add_right _ _

theorem divNearestEven_le (dividend divisor : Nat) :
    divNearestEven dividend divisor ≤ dividend / divisor + 1 := by
  simp only [divNearestEven]
  split
  · exact Nat.le_succ _
  · split
    · exact Nat.le_refl _
    · have := Nat.mod_lt (dividend / divisor) (y := 2) (by decide)
      omega

example : divNearestEven 5 2 = 2 ∧ divNearestEven 7 2 = 4 ∧ divNearestEven 8 3 = 3 := by decide

end Clearing
