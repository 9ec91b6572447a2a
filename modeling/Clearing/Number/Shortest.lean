import Clearing.Number.Binary64
import Clearing.Number.Power

/-!
# The shortest decimal text of a floating-point number

A positive finite number is written with the fewest digits that read back to
it.  For each count of digits the two neighbours of the number on that decimal
grid are tried in exact arithmetic; the first grid with a hit wins, and of two
hits the nearer one, the even one when both are equally near.

Where the digits are put relative to the point is a separate decision: a
`Layout` says which exponents are written positionally and whether a whole
number keeps a fraction.
-/

namespace Clearing

namespace Binary64

/-! ## Digits -/

/-- The digits of a number: `coefficient * 10 ^ exponent`. -/
structure Digits where
  coefficient : Nat
  exponent : Int
  deriving DecidableEq, Repr

/-- The number of decimal digits. -/
def digitCount (n : Nat) : Nat :=
  (Nat.toDigits 10 n).length

/-- The largest power of ten, as an exponent, that does not exceed a positive quotient. -/
def floorLog10 (num den : Nat) : Int :=
  let guess := (digitCount num : Int) - digitCount den
  let reached := if 0 ≤ guess then den * tenTo guess.toNat ≤ num else den ≤ num * tenTo (-guess).toNat
  if reached then guess else guess - 1

/-- The quotient `num / den` in units of `10 ^ exponent`, again as a quotient. -/
def inUnits (num den : Nat) (exponent : Int) : Nat × Nat :=
  if 0 ≤ exponent then (num, den * tenTo exponent.toNat)
  else (num * tenTo (-exponent).toNat, den)

/-- Digits that read back to `x`, on the grid of the given exponent. -/
def onGrid? (x : Binary64) (exponent : Int) : Option Digits :=
  let (num, den) := inUnits x.ratio.1 x.ratio.2 exponent
  let low := num / den
  let readsBack (coefficient : Nat) : Bool :=
    ofDecimal false coefficient exponent = ofMagnitude false x.magnitudeBits
  match readsBack low, readsBack (low + 1) with
  | true, true => some ⟨divNearestEven num den, exponent⟩
  | true, false => some ⟨low, exponent⟩
  | false, true => some ⟨low + 1, exponent⟩
  | false, false => none

/-- The shortest digits of a positive finite number. -/
def shortest (x : Binary64) : Digits :=
  let top := floorLog10 x.ratio.1 x.ratio.2
  let grids := (List.range 17).map fun (count : Nat) => top - (count : Int)
  (grids.findSome? x.onGrid?).getD ⟨x.significand, x.power⟩

/-- The same digits without trailing zeros. -/
def Digits.normalized (digits : Digits) : Nat → Digits
  | 0 => digits
  | bound + 1 =>
    if digits.coefficient % 10 = 0 ∧ digits.coefficient ≠ 0 then
      Digits.normalized ⟨digits.coefficient / 10, digits.exponent + 1⟩ bound
    else digits

end Binary64

/-! ## Layout -/

/-- How digits are laid out. -/
structure Layout where
  /-- The decimal exponents that are written positionally; all of them if absent. -/
  positional : Option (Int × Int)
  /-- A whole number is written with a fraction of one zero. -/
  keepsFraction : Bool

namespace Layout

/-- Payloads and numbers named in messages: positional from `0.00001` up to below `10 ^ 16`, always
with a fraction. -/
def payload : Layout := ⟨some (-5, 15), true⟩

/-- Settings and amounts of waiting: positional at any size, without an empty fraction. -/
def plain : Layout := ⟨none, false⟩

/-- Positional text: digits, point, digits. -/
def positionalText (layout : Layout) (digits : List Char) (exponent : Int) : List Char :=
  if 0 ≤ exponent then
    digits ++ List.replicate exponent.toNat '0' ++ if layout.keepsFraction then ['.', '0'] else []
  else
    let decimals := (-exponent).toNat
    let padded := List.replicate (decimals + 1 - digits.length) '0' ++ digits
    padded.take (padded.length - decimals) ++ '.' :: padded.drop (padded.length - decimals)

/-- Scientific text: one digit before the point and a signed exponent. -/
def scientificText (digits : List Char) (exponent : Int) : List Char :=
  let scale := exponent + digits.length - 1
  let sign := if 0 ≤ scale then '+' else '-'
  let fraction := if digits.length ≤ 1 then [] else '.' :: digits.drop 1
  digits.take 1 ++ fraction ++ 'e' :: sign :: Nat.toDigits 10 scale.natAbs

/-- The digits of a nonnegative finite number, laid out. -/
def magnitudeText (layout : Layout) (x : Binary64) : List Char :=
  if x.isZero then layout.positionalText ['0'] 0
  else
    let shortest := x.shortest.normalized 20
    let digits := Nat.toDigits 10 shortest.coefficient
    let scale := shortest.exponent + digits.length - 1
    let positional := match layout.positional with
      | none => true
      | some (least, greatest) => least ≤ scale && scale ≤ greatest
    if positional then layout.positionalText digits shortest.exponent
    else scientificText digits shortest.exponent

/-- The text of a number.  A minus stands before every number with the sign bit, zero included. -/
def text (layout : Layout) (x : Binary64) : String :=
  if x.isNaN then "NaN"
  else
    let sign := if x.negative then ['-'] else []
    let magnitude := if x.isFinite then layout.magnitudeText x else ['i', 'n', 'f']
    String.ofList (sign ++ magnitude)

end Layout

section Examples

private def sample (negative : Bool) (coefficient : Nat) (exponent : Int) : List String :=
  let x := Binary64.ofDecimal negative coefficient exponent
  [Layout.payload.text x, Layout.plain.text x]

example : sample false 15 (-1) = ["1.5", "1.5"] := by decide +kernel
example : sample true 0 0 = ["-0.0", "-0"] := by decide +kernel
example : sample false 1 16 = ["1e+16", "10000000000000000"] := by decide +kernel
example : sample false 1 15 = ["1000000000000000.0", "1000000000000000"] := by
  decide +kernel
example : sample false 1 (-6) = ["1e-6", "0.000001"] := by decide +kernel
example : (sample false 5 (-324)).head? = some "5e-324" := by decide +kernel
example : (sample false 15 299).head? = some "1.5e+300" := by decide +kernel

end Examples

end Clearing
