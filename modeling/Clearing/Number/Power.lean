/-!
# Powers and sums of natural numbers

Powers of ten scale amounts and decimal numerals; powers of two scale
floating-point numbers and bound integers of a fixed width.  Sums are taken over
lists of counts.
-/

namespace Clearing

/-- A power of ten. -/
def tenTo (exponent : Nat) : Nat := Nat.pow 10 exponent

@[simp] theorem tenTo_zero : tenTo 0 = 1 := rfl

theorem tenTo_succ (exponent : Nat) : tenTo (exponent + 1) = tenTo exponent * 10 := rfl

theorem tenTo_add (m n : Nat) : tenTo (m + n) = tenTo m * tenTo n :=
  Nat.pow_add 10 m n

theorem tenTo_pos (exponent : Nat) : 0 < tenTo exponent :=
  Nat.pow_pos (by decide)

/-- A power of two. -/
def twoTo (exponent : Nat) : Nat := Nat.pow 2 exponent

@[simp] theorem twoTo_zero : twoTo 0 = 1 := rfl

theorem twoTo_add (m n : Nat) : twoTo (m + n) = twoTo m * twoTo n :=
  Nat.pow_add 2 m n

theorem twoTo_pos (exponent : Nat) : 0 < twoTo exponent :=
  Nat.pow_pos (by decide)

/-- The sum of some numbers. -/
def sumOf (numbers : List Nat) : Nat := numbers.foldr (· + ·) 0

@[simp] theorem sumOf_nil : sumOf [] = 0 := rfl

@[simp] theorem sumOf_cons (n : Nat) (numbers : List Nat) : sumOf (n :: numbers) = n + sumOf numbers :=
  rfl

end Clearing
