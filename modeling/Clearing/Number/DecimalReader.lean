import Clearing.Number.Decimal
import Clearing.Number.Power
import Clearing.Number.Shortest

/-!
# Reading decimal amounts

Amounts are written with an optional sign, digits and at most one point.  From
the first digit on, underscores may separate digits.  A point without digits
before it or after it is fine, a text without any digit is not.

An amount has at most 28 decimals and 96 bits.  Decimals beyond that are dropped
after rounding at the first digit dropped, a half going up; only digits and
underscores may follow that digit.  Too many digits before the point are refused.

An amount can also be written in scientific notation.  A negative exponent of at
most 28 always fits: decimals that would be the 29th or later are rounded away.
-/

namespace Clearing.Decimal

/-- What was read of an amount. -/
structure Reading where
  /-- The digits read so far, as a number. -/
  mantissa : Nat
  /-- The number of decimals read so far. -/
  scale : Nat
  /-- The point was read. -/
  point : Bool
  /-- A digit was read. -/
  digit : Bool

/-- The value of an ASCII digit. -/
def digitValue? (c : Char) : Option Nat :=
  if '0' ≤ c ∧ c ≤ '9' then some (c.toNat - 48) else none

/-- The amount whose decimals end before a digit that is only used to round. -/
def roundAt? (negative : Bool) (mantissa scale digit : Nat) : Option Decimal :=
  if digit < 5 then ofParts? negative mantissa scale
  else if mantissa + 1 < mantissaBound then ofParts? negative (mantissa + 1) scale
  else if scale = 0 then none
  else ofParts? negative ((mantissa + 5) / 10) (scale - 1)

/-- These characters may follow the digit used to round. -/
def isTail (chars : List Char) : Bool :=
  chars.all fun c => c = '_' || (digitValue? c).isSome

/-- The amount that characters beyond the last decimal round: underscores and digits, or a point
that counts as the digit zero. -/
def roundBy? (negative : Bool) (mantissa scale : Nat) (chars : List Char) : Option Decimal :=
  let found := match chars with
    | '.' :: tail => some (0, tail)
    | _ =>
      match chars.dropWhile (· = '_') with
      | [] => some (0, [])
      | c :: tail => (digitValue? c).map fun digit => (digit, tail)
  match found with
  | none => none
  | some (digit, tail) => if isTail tail then roundAt? negative mantissa scale digit else none

/-- The amount that the rest of a text completes. -/
def readFrom (negative : Bool) (reading : Reading) : List Char → Option Decimal
  | [] => if reading.digit then ofParts? negative reading.mantissa reading.scale else none
  | c :: rest =>
    if reading.point ∧ maxScale ≤ reading.scale then
      roundBy? negative reading.mantissa reading.scale (c :: rest)
    else
      match digitValue? c with
      | some digit =>
        let mantissa := 10 * reading.mantissa + digit
        if mantissa < mantissaBound then
          let scale := if reading.point then reading.scale + 1 else 0
          readFrom negative ⟨mantissa, scale, reading.point, true⟩ rest
        else if reading.point then roundBy? negative reading.mantissa reading.scale (c :: rest)
        else none
      | none =>
        if c = '.' ∧ !reading.point then readFrom negative { reading with point := true } rest
        else if c = '_' ∧ reading.digit then readFrom negative reading rest
        else none

/-- The amount that characters write in positional notation. -/
def ofPositional? (chars : List Char) : Option Decimal :=
  match chars with
  | '-' :: rest => readFrom true ⟨0, 0, false, false⟩ rest
  | '+' :: rest => readFrom false ⟨0, 0, false, false⟩ rest
  | _ => readFrom false ⟨0, 0, false, false⟩ chars

/-- An exponent without its minus: digits after an optional plus, of 32 bits. -/
def exponent? (chars : List Char) : Option Nat :=
  let digits := match chars with
    | '+' :: rest => rest
    | _ => chars
  if digits.isEmpty then none
  else
    match digits.mapM digitValue? with
    | some values =>
      let value := values.foldl (fun total digit => 10 * total + digit) 0
      if value < twoTo 32 then some value else none
    | none => none

/-- Without the zeros that end the decimals. -/
def trimZeros (negative : Bool) (mantissa : Nat) : Nat → Option Decimal
  | 0 => ofParts? negative mantissa 0
  | scale + 1 =>
    if mantissa = 0 then ofParts? negative 0 0
    else if mantissa % 10 = 0 then trimZeros negative (mantissa / 10) scale
    else ofParts? negative mantissa (scale + 1)

/-- The amount times `10 ^ exponent`, without trailing decimals of zero; absent if it does not fit. -/
def raise? (amount : Decimal) (exponent : Nat) : Option Decimal :=
  if maxScale < exponent then none
  else
    let step (amount : Decimal) (power : Nat) : Option Decimal :=
      if amount.mantissa = 0 then some zero
      else fit? amount.negative (amount.mantissa * tenTo power) amount.scale
    let raised? :=
      if exponent ≤ 19 then step amount exponent
      else (step amount 19).bind fun partway => step partway (exponent - 19)
    raised?.bind fun raised => trimZeros raised.negative raised.mantissa raised.scale

/-- The amount without its last decimals, a half going away from zero. -/
def shorten? (amount : Decimal) (places : Nat) : Option Decimal :=
  if places = 0 then some amount
  else
    let kept := amount.mantissa / tenTo (places - 1)
    ofParts? amount.negative ((kept + 5) / 10) (amount.scale - places)

/-- The amount divided by `10 ^ exponent`, with at most 28 decimals; absent for a larger
exponent. -/
def lower? (amount : Decimal) (exponent : Nat) : Option Decimal :=
  if maxScale < exponent then none
  else
    (amount.shorten? (amount.scale + exponent - maxScale)).bind fun shorter =>
      ofParts? shorter.negative shorter.mantissa (shorter.scale + exponent)

/-- The amount that characters write in scientific notation. -/
def ofScientific? (chars : List Char) : Option Decimal := do
  let isMark (c : Char) : Bool := c = 'e' || c = 'E'
  let base ← ofPositional? (chars.takeWhile fun c => !isMark c)
  match chars.dropWhile fun c => !isMark c with
  | [] => none
  | _ :: '-' :: digits =>
    let exponent ← exponent? digits
    base.lower? exponent
  | _ :: digits =>
    let exponent ← exponent? digits
    if exponent ≤ base.scale then ofParts? base.negative base.mantissa (base.scale - exponent)
    else base.raise? exponent

/-- The amount that a text writes, in positional or in scientific notation. -/
def ofText? (text : String) : Option Decimal :=
  match ofPositional? text.toList with
  | some amount => some amount
  | none => ofScientific? text.toList

/-- The amount of a floating-point number: what its shortest text writes. -/
def ofBinary64? (x : Binary64) : Option Decimal :=
  ofPositional? (Layout.plain.text x).toList

private def reread (text : String) : Option String :=
  (ofText? text).map Decimal.text

example : reread "1_000.5" = some "1000.5" ∧ reread ".5" = some "0.5" ∧ reread "5." = some "5" ∧
    reread "." = none ∧ reread "_1" = none ∧ reread "-0" = some "0" := by decide +kernel
example : reread "1e3" = some "1000" ∧ reread "1.50e1" = some "15.0" ∧ reread "15e-1" = some "1.5" := by
  decide +kernel
example : reread "0.00000000000000000000000000005" = some "0.0000000000000000000000000001" := by
  decide +kernel
example : reread "0.12345678901234567890123456785x" = none ∧
    reread "0.12345678901234567890123456789e1" = some "1.234567890123456789012345679" := by
  decide +kernel
example : reread "2.5e-28" = some "0.0000000000000000000000000003" ∧ reread "1e-29" = none := by
  decide +kernel

end Clearing.Decimal
