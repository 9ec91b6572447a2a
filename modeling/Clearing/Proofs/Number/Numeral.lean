import Mathlib.Data.List.Basic
import Clearing.Number.Numeral
import Clearing.Proofs.Text.Utf8

/-!
# Numerals as they are written

A numeral is written as a sign, a whole part, a fraction and an exponent, and each of them
but the whole part can be missing.  What is written so is read with the same parts
(`ofBytes?_written`), so that every layout of a number needs to say only what its parts
are.
-/

namespace Clearing

/-! ## Digits -/

/-- The leading digit of a positive number is not zero. -/
theorem head?_toDigits {n : Nat} (hpos : 0 < n) : (Nat.toDigits 10 n).head? ≠ some '0' := by
  induction n using Nat.strongRecOn with
  | ind n ih =>
      by_cases hsmall : n < 10
      · rw [Nat.toDigits_of_lt_base hsmall]
        have hdigit : ∀ m < 10, 0 < m → [Nat.digitChar m].head? ≠ some '0' := by decide
        exact hdigit n hsmall hpos
      · have htens : 0 < n / 10 := by omega
        rw [Nat.toDigits_of_base_le (by decide) (Nat.le_of_not_lt hsmall),
          List.head?_append_of_ne_nil _ Nat.toDigits_ne_nil]
        exact ih (n / 10) (by omega) htens

namespace Numeral

section Digits

variable {digits : List Char} (hdigits : ∀ c ∈ digits, c.isDigit)

include hdigits

theorem bytesOf_digits : Text.bytesOf digits = digits.map fun c => UInt8.ofNat c.toNat := by
  refine Text.bytesOf_of_lt fun c hmem => ?_
  have hbounds := Char.isDigit_iff_toNat.mp (hdigits c hmem)
  exact Nat.lt_of_le_of_lt hbounds.2 (by decide)

theorem isDigit_of_mem_bytesOf : ∀ byte ∈ Text.bytesOf digits, isDigit byte := by
  intro byte hbyte
  rw [bytesOf_digits hdigits] at hbyte
  obtain ⟨c, hmem, rfl⟩ := List.mem_map.mp hbyte
  obtain ⟨hlower, hupper⟩ := Char.isDigit_iff_toNat.mp (hdigits c hmem)
  have hlower : 48 ≤ c.toNat := hlower
  have hupper : c.toNat ≤ 57 := hupper
  simp only [isDigit, UInt8.toNat_ofNat', Bool.and_eq_true, decide_eq_true_eq]
  omega

theorem valueFrom_bytesOf (start : Nat) :
    valueFrom start (Text.bytesOf digits) = Nat.ofDigitChars 10 digits start := by
  rw [bytesOf_digits hdigits, valueFrom, Nat.ofDigitChars, List.foldl_map]
  refine List.foldl_ext _ _ _ fun value c hmem => ?_
  have hupper : c.toNat ≤ 57 := (Char.isDigit_iff_toNat.mp (hdigits c hmem)).2
  have hbyte : (UInt8.ofNat c.toNat).toNat = c.toNat := by
    rw [UInt8.toNat_ofNat']
    omega
  rw [hbyte]
  rfl

theorem bytesOf_ne_nil (hne : digits ≠ []) : Text.bytesOf digits ≠ [] := by
  rw [bytesOf_digits hdigits]
  simpa using hne

end Digits

theorem isDigit_of_mem_zeros (count : Nat) : ∀ c ∈ List.replicate count '0', c.isDigit := by
  intro c hmem
  rw [List.eq_of_mem_replicate hmem]
  rfl

theorem isDigit_of_mem_toDigits (n : Nat) : ∀ c ∈ Nat.toDigits 10 n, c.isDigit :=
  fun _ hmem => Nat.isDigit_of_mem_toDigits (by decide) (by decide) hmem

/-! ## The sign -/

/-- The numeral with a given sign whose other parts are written in a byte string. -/
def unsigned? (negative : Bool) (bytes : Bytes) : Option Numeral := do
  let (whole, afterWhole) := takeDigits bytes
  if whole.isEmpty ∨ (1 < whole.length ∧ whole.head? = some 48) then none
  let (fraction, afterFraction) ← fraction? afterWhole
  let exponent ← exponent? afterFraction
  let decimals := fraction.getD []
  pure
    { negative
      coefficient := valueFrom (value whole) decimals
      exponent := exponent.getD 0 - decimals.length
      plain := fraction.isNone && exponent.isNone }

/-- A sign is written for negative numbers. -/
def signChars (negative : Bool) : List Char :=
  if negative then ['-'] else []

theorem ofBytes?_signed (negative : Bool) {bytes : Bytes} (hhead : bytes.head? ≠ some 45) :
    ofBytes? (Text.bytesOf (signChars negative) ++ bytes) = unsigned? negative bytes := by
  cases negative with
  | true => rfl
  | false =>
      have hminus : ∀ rest, bytes ≠ 45 :: rest := fun rest hsame => hhead (hsame ▸ rfl)
      show ofBytes? bytes = _
      rw [ofBytes?]
      · rfl
      · exact hminus

/-! ## The parts of a numeral -/

/-- A fraction is written if it has digits. -/
def fractionChars (decimals : List Char) : List Char :=
  if decimals = [] then [] else '.' :: decimals

/-- An exponent is written with its sign. -/
def exponentChars : Option Int → List Char
  | none => []
  | some n => 'e' :: (if 0 ≤ n then '+' else '-') :: Nat.toDigits 10 n.natAbs

theorem takeDigits_append {digits after : Bytes} (hdigits : ∀ byte ∈ digits, isDigit byte)
    (hafter : ∀ byte ∈ after.head?, isDigit byte = false) :
    takeDigits (digits ++ after) = (digits, after) := by
  rw [takeDigits, List.takeWhile_append_of_pos hdigits, List.dropWhile_append_of_pos hdigits]
  cases after with
  | nil => simp
  | cons byte rest =>
      have hbyte : ¬isDigit byte = true := by simp [hafter byte rfl]
      rw [List.takeWhile_cons_of_neg hbyte, List.dropWhile_cons_of_neg hbyte, List.append_nil]

theorem bytesOf_exponentChars (n : Int) : Text.bytesOf (exponentChars (some n)) =
    101 :: (if 0 ≤ n then 43 else 45) :: Text.bytesOf (Nat.toDigits 10 n.natAbs) := by
  rw [exponentChars]
  split <;> rfl

theorem exponent?_exponentChars (exponent : Option Int) :
    exponent? (Text.bytesOf (exponentChars exponent)) = some exponent := by
  cases exponent with
  | none => rfl
  | some n =>
      have hdigits := isDigit_of_mem_toDigits n.natAbs
      have hvalue : value (Text.bytesOf (Nat.toDigits 10 n.natAbs)) = n.natAbs := by
        rw [value, valueFrom_bytesOf hdigits, Nat.ofDigitChars_ten_toDigits]
      have hshape : ¬((Text.bytesOf (Nat.toDigits 10 n.natAbs)).isEmpty = true ∨
          (!(Text.bytesOf (Nat.toDigits 10 n.natAbs)).all isDigit) = true) := by
        rintro (hempty | hother)
        · exact bytesOf_ne_nil hdigits Nat.toDigits_ne_nil (List.isEmpty_iff.mp hempty)
        · rw [List.all_eq_true.mpr (isDigit_of_mem_bytesOf hdigits)] at hother
          cases hother
      rw [bytesOf_exponentChars]
      by_cases hsign : 0 ≤ n
      · rw [if_pos hsign, exponent?, if_pos (.inl rfl), if_neg hshape,
          if_neg Bool.false_ne_true, hvalue, Int.natAbs_of_nonneg hsign]
      · have hnegative : -(n.natAbs : Int) = n := by omega
        rw [if_neg hsign, exponent?, if_pos (.inl rfl), if_neg hshape, if_pos rfl,
          hvalue, hnegative]

/-- An exponent begins with its mark. -/
theorem head?_exponentChars (exponent : Option Int) :
    ∀ byte ∈ (Text.bytesOf (exponentChars exponent)).head?, byte = 101 := by
  cases exponent with
  | none => rintro byte ⟨⟩
  | some n =>
      rintro byte ⟨⟩
      rfl

theorem fraction?_fractionChars {decimals : List Char} (hdecimals : ∀ c ∈ decimals, c.isDigit)
    (exponent : Option Int) :
    fraction? (Text.bytesOf (fractionChars decimals) ++ Text.bytesOf (exponentChars exponent)) =
      some (if decimals = [] then none else some (Text.bytesOf decimals),
        Text.bytesOf (exponentChars exponent)) := by
  have hhead := head?_exponentChars exponent
  by_cases hnone : decimals = []
  · rw [fractionChars, if_pos hnone, if_pos hnone, Text.bytesOf_nil, List.nil_append]
    generalize Text.bytesOf (exponentChars exponent) = after at *
    cases after with
    | nil => rfl
    | cons byte rest =>
        obtain rfl := hhead byte rfl
        rfl
  · have hbytes : Text.bytesOf (fractionChars decimals) = 46 :: Text.bytesOf decimals := by
      rw [fractionChars, if_neg hnone]
      rfl
    have htake := takeDigits_append (isDigit_of_mem_bytesOf hdecimals)
      fun byte hbyte => by
        obtain rfl := hhead byte hbyte
        rfl
    have hne : (Text.bytesOf decimals).isEmpty = false := by
      simpa using bytesOf_ne_nil hdecimals hnone
    rw [hbytes, if_neg hnone, List.cons_append, fraction?, htake]
    simp only [hne]
    rfl

/-- A numeral as it is written, part by part. -/
structure Written where
  negative : Bool
  whole : List Char
  decimals : List Char
  exponent : Option Int
  isDigit_whole : ∀ c ∈ whole, c.isDigit
  whole_ne_nil : whole ≠ []
  /-- Zeros do not lead. -/
  whole_leading : whole.head? = some '0' → whole.length = 1
  isDigit_decimals : ∀ c ∈ decimals, c.isDigit

namespace Written

variable (written : Written)

/-- The characters of a numeral. -/
def chars : List Char :=
  signChars written.negative ++
    (written.whole ++ (fractionChars written.decimals ++ exponentChars written.exponent))

/-- What a numeral is read as. -/
def numeral : Numeral where
  negative := written.negative
  coefficient := Nat.ofDigitChars 10 (written.whole ++ written.decimals) 0
  exponent := written.exponent.getD 0 - written.decimals.length
  plain := written.decimals.isEmpty && written.exponent.isNone

theorem head?_append_whole (after : Bytes) :
    ∀ byte ∈ (Text.bytesOf written.whole ++ after).head?, isDigit byte := by
  intro byte hbyte
  rw [List.head?_append_of_ne_nil _
    (bytesOf_ne_nil written.isDigit_whole written.whole_ne_nil)] at hbyte
  exact isDigit_of_mem_bytesOf written.isDigit_whole byte (List.mem_of_head? hbyte)

theorem head?_fractionChars (exponent : Option Int) (decimals : List Char) :
    ∀ byte ∈ (Text.bytesOf (fractionChars decimals) ++
      Text.bytesOf (exponentChars exponent)).head?, isDigit byte = false := by
  intro byte hbyte
  by_cases hnone : decimals = []
  · rw [fractionChars, if_pos hnone, Text.bytesOf_nil, List.nil_append] at hbyte
    rw [head?_exponentChars exponent byte hbyte]
    rfl
  · rw [fractionChars, if_neg hnone] at hbyte
    cases hbyte
    rfl

/-- A whole part without superfluous zeros is one in bytes. -/
theorem not_superfluous : ¬((Text.bytesOf written.whole).isEmpty ∨
    (1 < (Text.bytesOf written.whole).length ∧
      (Text.bytesOf written.whole).head? = some 48)) := by
  rw [bytesOf_digits written.isDigit_whole]
  rintro (hempty | ⟨hlong, hzero⟩)
  · simp [written.whole_ne_nil] at hempty
  · rw [List.length_map] at hlong
    rw [List.head?_map, Option.map_eq_some_iff] at hzero
    obtain ⟨c, hhead, hbyte⟩ := hzero
    have hupper : c.toNat ≤ 57 :=
      (Char.isDigit_iff_toNat.mp (written.isDigit_whole c (List.mem_of_head? hhead))).2
    have hnat := congrArg UInt8.toNat hbyte
    rw [UInt8.toNat_ofNat', Nat.mod_eq_of_lt (by omega)] at hnat
    have hchar : c = '0' := by
      rw [← Char.ofNat_toNat c, hnat]
      rfl
    have hshort := written.whole_leading (hchar ▸ hhead)
    omega

/-- **What is written part by part is read with the same parts.** -/
theorem ofBytes?_chars : ofBytes? (Text.bytesOf written.chars) = some written.numeral := by
  have htake := takeDigits_append (isDigit_of_mem_bytesOf written.isDigit_whole)
    (head?_fractionChars written.exponent written.decimals)
  have hhead : (Text.bytesOf written.whole ++ (Text.bytesOf (fractionChars written.decimals) ++
      Text.bytesOf (exponentChars written.exponent))).head? ≠ some 45 := by
    intro hminus
    cases written.head?_append_whole _ 45 hminus
  rw [chars, Text.bytesOf_append, Text.bytesOf_append, Text.bytesOf_append,
    ofBytes?_signed written.negative hhead, unsigned?, htake]
  dsimp only
  rw [if_neg written.not_superfluous, fraction?_fractionChars written.isDigit_decimals]
  simp only [Option.bind_eq_bind, Option.bind_some, exponent?_exponentChars, numeral]
  by_cases hnone : written.decimals = []
  · rw [if_pos hnone, hnone, List.append_nil, value, Option.getD_none,
      valueFrom_bytesOf written.isDigit_whole]
    rfl
  · have hsome : written.decimals.isEmpty = false := by simpa using hnone
    rw [if_neg hnone, Option.getD_some, value, valueFrom_bytesOf written.isDigit_whole,
      valueFrom_bytesOf written.isDigit_decimals, ← Nat.ofDigitChars_append,
      bytesOf_digits written.isDigit_decimals, List.length_map, hsome]
    rfl

/-- A numeral is made of digits, signs, a point and the mark of an exponent. -/
theorem mem_bytesOf_chars : ∀ byte ∈ Text.bytesOf written.chars,
    isDigit byte ∨ byte = 43 ∨ byte = 45 ∨ byte = 46 ∨ byte = 101 := by
  intro byte hbyte
  simp only [chars, Text.bytesOf_append, List.mem_append] at hbyte
  rcases hbyte with hsign | hwhole | hfraction | hexponent
  · cases hnegative : written.negative with
    | true =>
        rw [hnegative] at hsign
        obtain rfl := List.mem_singleton.mp hsign
        decide
    | false =>
        rw [hnegative] at hsign
        cases hsign
  · exact .inl (isDigit_of_mem_bytesOf written.isDigit_whole byte hwhole)
  · rw [fractionChars] at hfraction
    split at hfraction
    · cases hfraction
    · rcases List.mem_cons.mp hfraction with rfl | hdecimals
      · decide
      · exact .inl (isDigit_of_mem_bytesOf written.isDigit_decimals byte hdecimals)
  · cases hsome : written.exponent with
    | none =>
        rw [hsome] at hexponent
        cases hexponent
    | some n =>
        rw [hsome, bytesOf_exponentChars] at hexponent
        rcases List.mem_cons.mp hexponent with rfl | hrest
        · decide
        · rcases List.mem_cons.mp hrest with rfl | hdigits
          · split <;> decide
          · exact .inl (isDigit_of_mem_bytesOf (isDigit_of_mem_toDigits _) byte hdigits)

/-- A numeral begins with a minus or a digit. -/
theorem exists_cons_chars :
    ∃ byte rest, Text.bytesOf written.chars = byte :: rest ∧ (byte = 45 ∨ isDigit byte) := by
  rw [chars, Text.bytesOf_append, Text.bytesOf_append]
  cases written.negative with
  | true => exact ⟨45, _, rfl, .inl rfl⟩
  | false =>
      have hhead := written.head?_append_whole
        (Text.bytesOf (fractionChars written.decimals ++ exponentChars written.exponent))
      have hne := bytesOf_ne_nil written.isDigit_whole written.whole_ne_nil
      obtain ⟨byte, rest, hwhole⟩ := List.exists_cons_of_ne_nil hne
      rw [hwhole] at hhead ⊢
      exact ⟨byte, _, rfl, .inr (hhead byte rfl)⟩

end Written

end Numeral

end Clearing
