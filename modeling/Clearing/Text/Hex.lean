import Clearing.Text.Bytes

/-!
# Hexadecimal text

Two digits for every byte, the high one first, written with lower-case letters
and read with either case.
-/

namespace Clearing.Text

/-- The digit for a number below sixteen. -/
def hexDigit (n : Nat) : Char :=
  if n < 10 then Char.ofNat (48 + n) else Char.ofNat (87 + n)

/-- The number a hexadecimal digit stands for. -/
def hexValue? (c : Char) : Option Nat :=
  if '0' ≤ c ∧ c ≤ '9' then some (c.toNat - 48)
  else if 'a' ≤ c ∧ c ≤ 'f' then some (c.toNat - 87)
  else if 'A' ≤ c ∧ c ≤ 'F' then some (c.toNat - 55)
  else none

/-- The digits of a number in base sixteen without leading zeros. -/
def hexDigits (n : Nat) : List Char :=
  (Nat.toDigits 16 n).map Char.toLower

/-- Two digits for every byte. -/
def hexOfBytes (bytes : Bytes) : String :=
  String.ofList (bytes.flatMap fun byte => [hexDigit (byte.toNat / 16), hexDigit (byte.toNat % 16)])

/-- The bytes that pairs of digits stand for. -/
def bytesOfHex? : List Char → Option Bytes
  | [] => some []
  | high :: low :: rest => do
    let highValue ← hexValue? high
    let lowValue ← hexValue? low
    let bytes ← bytesOfHex? rest
    pure (lowByte (16 * highValue + lowValue) :: bytes)
  | [_] => none

example : hexOfBytes [0, 171, 255] = "00abff" ∧
    bytesOfHex? ['0', '0', 'a', 'B', 'f', 'F'] = some [0, 171, 255] := by decide +kernel

end Clearing.Text
