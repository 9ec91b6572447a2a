import Clearing.Number.Power
import Clearing.Number.Rounding

/-!
# Decimal amounts

A `Decimal` is `± mantissa / 10 ^ scale` with a mantissa of 96 bits and a
scale of at most 28.  The scale is part of the value: `1.50` and `1.5` are equal
as numbers and different as amounts.  Zero has no sign.

Multiples and sums are exact integers first.  An exact result that does not fit
drops as few digits as possible, a half going to the even neighbour, and
overflows if it does not even fit without decimals.
-/

namespace Clearing

/-- The bound that every mantissa stays below: the power of two with 96 as exponent. -/
abbrev Decimal.mantissaBound : Nat := 79228162514264337593543950336

/-- A decimal amount. -/
structure Decimal where
  negative : Bool
  mantissa : Nat
  scale : Nat
  mantissa_lt : mantissa < Decimal.mantissaBound
  scale_le : scale ≤ 28
  zero_unsigned : mantissa = 0 → negative = false
  deriving DecidableEq

namespace Decimal

/-- The largest number of decimals. -/
def maxScale : Nat := 28

/-- The amount with these parts; a zero loses its sign. -/
def ofParts (negative : Bool) (mantissa scale : Nat) (hmantissa : mantissa < mantissaBound)
    (hscale : scale ≤ 28) : Decimal :=
  ⟨negative && mantissa != 0, mantissa, scale, hmantissa, hscale, by
    intro hzero
    simp [hzero]⟩

/-- The amount with these parts, if they are in range. -/
def ofParts? (negative : Bool) (mantissa scale : Nat) : Option Decimal :=
  if h : mantissa < mantissaBound ∧ scale ≤ 28 then some (ofParts negative mantissa scale h.1 h.2)
  else none

/-- Nothing. -/
def zero : Decimal := ofParts false 0 0 (by decide) (by decide)

/-- A whole amount below the bound. -/
def ofInt (n : Int) (h : n.natAbs < mantissaBound) : Decimal :=
  ofParts (n < 0) n.natAbs 0 h (by decide)

/-- The signed mantissa. -/
def coefficient (amount : Decimal) : Int :=
  if amount.negative then -(amount.mantissa : Int) else amount.mantissa

/-! ## Order -/

/-- Numerically less. -/
def lt (a b : Decimal) : Bool :=
  a.coefficient * tenTo b.scale < b.coefficient * tenTo a.scale

/-! ## Exact results made to fit -/

/-- The amount `± mantissa / 10 ^ scale` with at most `kept` decimals, dropping as few digits as
possible. -/
def fitWithin (negative : Bool) (mantissa scale : Nat) (kept : Nat) : Option Decimal :=
  let rounded := divNearestEven mantissa (tenTo (scale - kept))
  match ofParts? negative rounded kept with
  | some amount => some amount
  | none =>
    match kept with
    | 0 => none
    | fewer + 1 => fitWithin negative mantissa scale fewer

/-- The amount nearest to `± mantissa / 10 ^ scale` that fits, if one does. -/
def fit? (negative : Bool) (mantissa scale : Nat) : Option Decimal :=
  fitWithin negative mantissa scale scale

/-- A whole number of times an amount.  No times anything, and any times nothing, has no
decimals. -/
def times? (amount : Decimal) (n : Int) : Option Decimal :=
  if amount.mantissa = 0 ∨ n = 0 then some zero
  else fit? (amount.negative != decide (n < 0)) (amount.mantissa * n.natAbs) amount.scale

/-- The sum, with the larger of the two scales if it fits.  Adding zero changes nothing. -/
def add? (a b : Decimal) : Option Decimal :=
  if a.mantissa = 0 then some b
  else if b.mantissa = 0 then some a
  else
    let scale := max a.scale b.scale
    let sum := a.coefficient * tenTo (scale - a.scale) + b.coefficient * tenTo (scale - b.scale)
    fit? (sum < 0) sum.natAbs scale

/-! ## More decimals -/

/-- The amount with `count` more decimals, or as many of them as fit. -/
def extend (amount : Decimal) : Nat → Decimal
  | 0 => amount
  | count + 1 =>
    match ofParts? amount.negative (amount.mantissa * 10) (amount.scale + 1) with
    | some longer => longer.extend count
    | none => amount

/-- The amount with at least `places` decimals, or as many of them as fit. -/
def withPlaces (amount : Decimal) (places : Nat) : Decimal :=
  amount.extend (places - amount.scale)

/-! ## Text -/

/-- The digits with the point in place. -/
def magnitudeChars (amount : Decimal) : List Char :=
  let digits := Nat.toDigits 10 amount.mantissa
  if amount.scale = 0 then digits
  else
    let padded := List.replicate (amount.scale + 1 - digits.length) '0' ++ digits
    padded.take (padded.length - amount.scale) ++ '.' :: padded.drop (padded.length - amount.scale)

/-- The amount as text: all decimals are written, trailing zeros included. -/
def text (amount : Decimal) : String :=
  String.ofList (if amount.negative then '-' :: amount.magnitudeChars else amount.magnitudeChars)

@[simp] theorem scale_ofParts (negative : Bool) (mantissa scale : Nat) (h₁ h₂) :
    (ofParts negative mantissa scale h₁ h₂).scale = scale := rfl

@[simp] theorem mantissa_ofParts (negative : Bool) (mantissa scale : Nat) (h₁ h₂) :
    (ofParts negative mantissa scale h₁ h₂).mantissa = mantissa := rfl

theorem ofParts?_eq_none_iff {negative : Bool} {mantissa scale : Nat} :
    ofParts? negative mantissa scale = none ↔ ¬(mantissa < mantissaBound ∧ scale ≤ 28) := by
  rw [ofParts?]
  split
  · case isTrue h => exact iff_of_false nofun (not_not_intro h)
  · case isFalse h => exact iff_of_true rfl h

end Decimal

end Clearing
