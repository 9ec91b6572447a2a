import Clearing.Text.Bytes

/-!
# Numerals

A numeral is a number as it was written: a sign, a coefficient and a power of
ten, together with whether a fraction or an exponent was written at all.  The
value is `± coefficient * 10 ^ exponent`; what the number becomes is decided by
whoever reads the numeral.

The grammar is the one of JSON: an optional minus, a whole part without
superfluous zeros, an optional fraction, an optional exponent.
-/

namespace Clearing

/-- A number as it was written. -/
structure Numeral where
  /-- A minus sign was written. -/
  negative : Bool
  /-- All digits of the whole part and the fraction, read as one number. -/
  coefficient : Nat
  /-- The power of ten that the coefficient is scaled by. -/
  exponent : Int
  /-- Neither a fraction nor an exponent was written. -/
  plain : Bool
  deriving DecidableEq, Repr

namespace Numeral

/-- The value of an ASCII digit. -/
def digit? (byte : UInt8) : Option Nat :=
  if 48 ≤ byte.toNat ∧ byte.toNat ≤ 57 then some (byte.toNat - 48) else none

/-- An ASCII digit. -/
def isDigit (byte : UInt8) : Bool :=
  48 ≤ byte.toNat && byte.toNat ≤ 57

/-- The number that a row of digits stands for, after digits that stand for `start`. -/
def valueFrom (start : Nat) (digits : Bytes) : Nat :=
  digits.foldl (fun value byte => 10 * value + (byte.toNat - 48)) start

/-- The number that a row of digits stands for. -/
def value (digits : Bytes) : Nat :=
  valueFrom 0 digits

/-- The digits at the front, and what follows them. -/
def takeDigits (bytes : Bytes) : Bytes × Bytes :=
  (bytes.takeWhile isDigit, bytes.dropWhile isDigit)

/-- An optional exponent and then nothing. -/
def exponent? : Bytes → Option (Option Int)
  | [] => some none
  | mark :: rest =>
    if mark = 101 ∨ mark = 69 then
      let (negative, digits) := match rest with
        | 45 :: digits => (true, digits)
        | 43 :: digits => (false, digits)
        | digits => (false, digits)
      if digits.isEmpty ∨ !digits.all isDigit then none
      else some (some (if negative then -(value digits : Int) else value digits))
    else none

/-- An optional fraction: its digits, and what follows. -/
def fraction? : Bytes → Option (Option Bytes × Bytes)
  | 46 :: rest =>
    let (digits, after) := takeDigits rest
    if digits.isEmpty then none else some (some digits, after)
  | bytes => some (none, bytes)

/-- The numeral that a whole byte string writes. -/
def ofBytes? (bytes : Bytes) : Option Numeral := do
  let (negative, unsigned) := match bytes with
    | 45 :: rest => (true, rest)
    | _ => (false, bytes)
  let (whole, afterWhole) := takeDigits unsigned
  if whole.isEmpty ∨ (1 < whole.length ∧ whole.head? = some 48) then none
  let (fraction, afterFraction) ← fraction? afterWhole
  let exponent ← exponent? afterFraction
  let decimals := fraction.getD []
  pure
    { negative
      coefficient := valueFrom (value whole) decimals
      exponent := exponent.getD 0 - decimals.length
      plain := fraction.isNone && exponent.isNone }

/-- The integer that a numeral without fraction and exponent stands for. -/
def toInt (numeral : Numeral) : Int :=
  if numeral.negative then -(numeral.coefficient : Int) else numeral.coefficient

example : ofBytes? (Text.encode "-12.50e+3") = some ⟨true, 1250, 1, false⟩ := by decide +kernel
example : ofBytes? (Text.encode "01") = none ∧ ofBytes? (Text.encode "1.") = none ∧
    ofBytes? (Text.encode "1e") = none ∧ ofBytes? (Text.encode "-") = none := by decide +kernel

end Numeral

end Clearing
