import Clearing.Number.Numeral
import Clearing.Number.Power
import Clearing.Number.Rounding

/-!
# Double-precision numbers

A `Binary64` is the bit pattern of a floating-point number with 53 significant
bits.  Arithmetic is defined on exact integers and rounds once, at the end, by
`ofRatio`; the same function reads a numeral.

A finite pattern stands for `± significand * 2 ^ power`.  The patterns are laid
out so that the magnitude of a nonnegative finite number grows with its bits:
`ofRatio` therefore adds the rounded significand to the exponent field, and a
significand that rounds up to the next power of two carries into the exponent
by itself.
-/

namespace Clearing

/-- A double-precision number, given by its bits. -/
structure Binary64 where
  bits : UInt64
  deriving DecidableEq, Repr

namespace Binary64

/-! ## Fields -/

/-- The sign bit is set. -/
def negative (x : Binary64) : Bool :=
  twoTo 63 ≤ x.bits.toNat

/-- The bits without the sign. -/
def magnitudeBits (x : Binary64) : Nat :=
  x.bits.toNat % twoTo 63

/-- The exponent field. -/
def exponentField (x : Binary64) : Nat :=
  x.magnitudeBits / twoTo 52

/-- The fraction field. -/
def fractionField (x : Binary64) : Nat :=
  x.magnitudeBits % twoTo 52

/-- The pattern of infinity, without the sign. -/
def infinityBits : Nat := 2047 * twoTo 52

/-- Neither an infinity nor a NaN. -/
def isFinite (x : Binary64) : Bool :=
  x.magnitudeBits < infinityBits

/-- Not a number. -/
def isNaN (x : Binary64) : Bool :=
  infinityBits < x.magnitudeBits

/-- Positive or negative zero. -/
def isZero (x : Binary64) : Bool :=
  x.magnitudeBits = 0

/-- The integer factor of a finite number. -/
def significand (x : Binary64) : Nat :=
  if x.exponentField = 0 then x.fractionField else x.fractionField + twoTo 52

/-- The power of two that scales the significand of a finite number. -/
def power (x : Binary64) : Int :=
  if x.exponentField = 0 then -1074 else (x.exponentField : Int) - 1075

/-- The magnitude of a finite number as a quotient of integers. -/
def ratio (x : Binary64) : Nat × Nat :=
  if 0 ≤ x.power then (x.significand * twoTo x.power.toNat, 1)
  else (x.significand, twoTo (-x.power).toNat)

/-! ## Building -/

/-- The number with a given sign and given bits below the sign. -/
def ofMagnitude (negative : Bool) (magnitude : Nat) : Binary64 :=
  ⟨UInt64.ofNat (magnitude + if negative then twoTo 63 else 0)⟩

/-- Zero of either sign. -/
def zero (negative : Bool) : Binary64 :=
  ofMagnitude negative 0

/-- Infinity of either sign. -/
def infinity (negative : Bool) : Binary64 :=
  ofMagnitude negative infinityBits

/-- The quiet NaN without payload. -/
def nan : Binary64 :=
  ofMagnitude false (infinityBits + twoTo 51)

/-- The largest power of two, as an exponent, that does not exceed a positive quotient. -/
def floorLog2 (num den : Nat) : Int :=
  let guess := (num.log2 : Int) - den.log2
  let reached := if 0 ≤ guess then den * twoTo guess.toNat ≤ num else den ≤ num * twoTo (-guess).toNat
  if reached then guess else guess - 1

/-- The number nearest to `± num / den`; of two equally near ones the one with an even
significand, and infinity beyond the largest finite number. -/
def ofRatio (negative : Bool) (num den : Nat) : Binary64 :=
  if num = 0 then zero negative
  else
    let power := max (floorLog2 num den - 52) (-1074)
    let rounded :=
      if 0 ≤ power then divNearestEven num (den * twoTo power.toNat)
      else divNearestEven (num * twoTo (-power).toNat) den
    ofMagnitude negative (min ((power + 1074).toNat * twoTo 52 + rounded) infinityBits)

/-- The number nearest to a natural number. -/
def ofNat (n : Nat) : Binary64 :=
  ofRatio false n 1

/-- The number nearest to an integer. -/
def ofInt (n : Int) : Binary64 :=
  ofRatio (n < 0) n.natAbs 1

/-- The number nearest to `± coefficient * 10 ^ exponent`.  Exponents far outside the range of the
format are decided without computing the power: `digits` bounds the length of the coefficient. -/
def ofDecimal (negative : Bool) (coefficient : Nat) (exponent : Int) : Binary64 :=
  if coefficient = 0 then zero negative
  else
    let digits : Int := coefficient.log2 / 3 + 1
    if 400 < exponent then infinity negative
    else if exponent + digits < -400 then zero negative
    else if 0 ≤ exponent then ofRatio negative (coefficient * tenTo exponent.toNat) 1
    else ofRatio negative coefficient (tenTo (-exponent).toNat)

/-- The number nearest to a numeral. -/
def ofNumeral (numeral : Numeral) : Binary64 :=
  ofDecimal numeral.negative numeral.coefficient numeral.exponent

/-! ## Comparison -/

/-- The position of a number in the order of the reals; both zeros share one position. -/
def key (x : Binary64) : Int :=
  if x.negative then -(x.magnitudeBits : Int) else x.magnitudeBits

/-- Numerically at most; false if either side is NaN. -/
def le (x y : Binary64) : Bool :=
  !x.isNaN && !y.isNaN && x.key ≤ y.key

/-- Numerically less; false if either side is NaN. -/
def lt (x y : Binary64) : Bool :=
  !x.isNaN && !y.isNaN && x.key < y.key

/-- Numerically equal: the two zeros are equal, NaN equals nothing. -/
def same (x y : Binary64) : Bool :=
  !x.isNaN && !y.isNaN && x.key == y.key

/-! ## Arithmetic -/

/-- The product, rounded once. -/
def mul (x y : Binary64) : Binary64 :=
  let sign := x.negative != y.negative
  if x.isNaN || y.isNaN then nan
  else if x.isFinite && y.isFinite then
    ofRatio sign (x.ratio.1 * y.ratio.1) (x.ratio.2 * y.ratio.2)
  else if x.isZero || y.isZero then nan
  else infinity sign

/-- The quotient, rounded once. -/
def div (x y : Binary64) : Binary64 :=
  let sign := x.negative != y.negative
  if x.isNaN || y.isNaN then nan
  else if !x.isFinite then if y.isFinite then infinity sign else nan
  else if !y.isFinite then zero sign
  else if y.isZero then if x.isZero then nan else infinity sign
  else ofRatio sign (x.ratio.1 * y.ratio.2) (x.ratio.2 * y.ratio.1)

/-- The sum of two finite nonnegative numbers, rounded once. -/
def addMagnitudes (x y : Binary64) : Binary64 :=
  ofRatio false (x.ratio.1 * y.ratio.2 + y.ratio.1 * x.ratio.2) (x.ratio.2 * y.ratio.2)

/-- Repeated squaring: `acc * base ^ n`, where every product is rounded. -/
def powFrom (acc base : Binary64) (n : Nat) : Binary64 :=
  if n = 0 then acc
  else
    let acc := if n % 2 = 1 then acc.mul base else acc
    if n / 2 = 0 then acc else powFrom acc (base.mul base) (n / 2)
termination_by n
decreasing_by omega

/-- A power with a natural exponent, by repeated squaring; the zeroth power of anything is one. -/
def pow (base : Binary64) (n : Nat) : Binary64 :=
  powFrom (ofNat 1) base n

example : (ofNat 1).bits = 0x3FF0000000000000 ∧ (ofRatio true 1 2).bits = 0xBFE0000000000000 := by
  decide +kernel

example : (ofDecimal false 5 (-324)).bits = 1 ∧ (ofDecimal false 2 (-324)).bits = 0 ∧
    (ofDecimal false 17 307).isFinite = true ∧ (ofDecimal false 18 307).isFinite = false := by
  decide +kernel

end Binary64

end Clearing
