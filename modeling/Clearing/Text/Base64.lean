import Clearing.Text.Bytes

/-!
# Base64

The standard alphabet with padding.  Reading is strict: the length is a
multiple of four, padding stands only at the end and the bits it leaves unused
are zero, so that every byte string has exactly one Base64 form.
-/

namespace Clearing.Text.Base64

/-- The symbol for a number below sixty-four. -/
def symbol (n : Nat) : UInt8 :=
  if n < 26 then lowByte (65 + n)
  else if n < 52 then lowByte (71 + n)
  else if n < 62 then lowByte (n - 4)
  else if n = 62 then 43 else 47

/-- The number that a symbol stands for. -/
def value? (byte : UInt8) : Option Nat :=
  let code := byte.toNat
  if 65 ≤ code ∧ code ≤ 90 then some (code - 65)
  else if 97 ≤ code ∧ code ≤ 122 then some (code - 71)
  else if 48 ≤ code ∧ code ≤ 57 then some (code + 4)
  else if code = 43 then some 62
  else if code = 47 then some 63
  else none

/-- The padding sign, which is no symbol. -/
def padding : UInt8 := 61

/-- Four symbols for every three bytes; a rest of one or two bytes is padded. -/
def encode : Bytes → Bytes
  | [] => []
  | [a] => [symbol (a.toNat / 4), symbol (a.toNat % 4 * 16), padding, padding]
  | [a, b] =>
    [symbol (a.toNat / 4), symbol (a.toNat % 4 * 16 + b.toNat / 16), symbol (b.toNat % 16 * 4),
      padding]
  | a :: b :: c :: rest =>
    symbol (a.toNat / 4) :: symbol (a.toNat % 4 * 16 + b.toNat / 16) ::
      symbol (b.toNat % 16 * 4 + c.toNat / 64) :: symbol (c.toNat % 64) :: encode rest

/-- The bytes of a padded Base64 form. -/
def decode? : Bytes → Option Bytes
  | [] => some []
  | p :: q :: r :: s :: rest => do
    let first ← value? p
    let second ← value? q
    if s = padding ∧ rest = [] then
      if r = padding then
        if second % 16 = 0 then pure [lowByte (first * 4 + second / 16)] else none
      else
        let third ← value? r
        if third % 4 = 0 then
          pure [lowByte (first * 4 + second / 16), lowByte (second % 16 * 16 + third / 4)]
        else none
    else
      let third ← value? r
      let fourth ← value? s
      let bytes ← decode? rest
      pure (lowByte (first * 4 + second / 16) :: lowByte (second % 16 * 16 + third / 4) ::
        lowByte (third % 4 * 64 + fourth) :: bytes)
  | _ => none

@[simp] theorem value?_padding : value? padding = none := rfl

theorem value?_symbol {n : Nat} (h : n < 64) : value? (symbol n) = some n := by
  have hall : ∀ k : Fin 64, value? (symbol k) = some k.val := by decide +kernel
  exact hall ⟨n, h⟩

theorem symbol_ne_padding {n : Nat} (h : n < 64) : symbol n ≠ padding := by
  intro hsame
  have := value?_symbol h
  rw [hsame, value?_padding] at this
  cases this

example : encode [255, 254, 253] = [47, 47, 55, 57] ∧ decode? [47, 47, 55, 57] = some [255, 254, 253] := by
  decide +kernel

end Clearing.Text.Base64
