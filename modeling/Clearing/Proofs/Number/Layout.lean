import Clearing.Payload.Text
import Clearing.Proofs.Number.Numeral
import Clearing.Proofs.Number.Shortest

/-!
# Numbers in payloads are written as numerals

The layout of payloads puts the point into the digits of a double or puts an exponent
behind them, and neither changes the value.  So a double is written as a numeral that is
read as the double, and that always has a fraction or an exponent
(`exists_written_float`); an integer is written as a numeral that has neither
(`writtenInt`).
-/

namespace Clearing

open Numeral (Written signChars fractionChars exponentChars)

/-- An integer as it is written. -/
def writtenInt (n : Int) : Written where
  negative := n < 0
  whole := Nat.toDigits 10 n.natAbs
  decimals := []
  exponent := none
  isDigit_whole := Numeral.isDigit_of_mem_toDigits _
  whole_ne_nil := Nat.toDigits_ne_nil
  whole_leading hhead := by
    rcases Nat.eq_zero_or_pos n.natAbs with hzero | hpos
    · rw [hzero]
      rfl
    · exact absurd hhead (head?_toDigits hpos)
  isDigit_decimals := nofun

theorem chars_writtenInt (n : Int) : (writtenInt n).chars = Json.intChars n := by
  rw [Written.chars, Json.intChars]
  by_cases hsign : n < 0 <;> simp [writtenInt, signChars, fractionChars, exponentChars, hsign]

theorem numeral_writtenInt (n : Int) :
    (writtenInt n).numeral = ⟨decide (n < 0), n.natAbs, 0, true⟩ := by
  simp [Written.numeral, writtenInt, Nat.ofDigitChars_ten_toDigits]

/-! ## The digits of a double -/

/-- A numeral with a fraction or an exponent, by its sign and its magnitude. -/
structure Numeral.Written.Denotes (written : Written) (negative : Bool) (magnitude : ℚ) : Prop where
  negative_eq : written.negative = negative
  plain_eq : written.numeral.plain = false
  value_eq : (written.numeral.coefficient : ℚ) * 10 ^ written.numeral.exponent = magnitude

namespace Layout

section Padding

/-- Digits with as many zeros before them as it takes to have more digits than decimals. -/
def padded (digits : List Char) (decimals : Nat) : List Char :=
  List.replicate (decimals + 1 - digits.length) '0' ++ digits

variable {digits : List Char} (decimals : Nat)

theorem length_padded :
    (padded digits decimals).length = decimals + 1 - digits.length + digits.length := by
  rw [padded, List.length_append, List.length_replicate]

theorem isDigit_padded (hdigits : ∀ c ∈ digits, c.isDigit) :
    ∀ c ∈ padded digits decimals, c.isDigit := by
  intro c hmem
  rcases List.mem_append.mp hmem with hzero | hdigit
  · exact Numeral.isDigit_of_mem_zeros _ c hzero
  · exact hdigits c hdigit

theorem ofDigitChars_padded :
    Nat.ofDigitChars 10 (padded digits decimals) 0 = Nat.ofDigitChars 10 digits 0 := by
  rw [padded, Nat.ofDigitChars_append, Nat.ofDigitChars_replicate_zero, Nat.mul_zero]

/-- If there are more digits than decimals then they lead, and else a single zero does. -/
theorem leading_padded (hleading : digits.head? ≠ some '0')
    (hhead : ((padded digits decimals).take
      ((padded digits decimals).length - decimals)).head? = some '0') :
    ((padded digits decimals).take ((padded digits decimals).length - decimals)).length = 1 := by
  rcases Nat.lt_or_ge decimals digits.length with hmany | hfew
  · have hnone : decimals + 1 - digits.length = 0 := by omega
    have hsame : padded digits decimals = digits := by
      rw [padded, hnone, List.replicate_zero, List.nil_append]
    rw [hsame, List.head?_take] at hhead
    split at hhead
    · cases hhead
    · exact absurd hhead hleading
  · rw [List.length_take, length_padded]
    omega

end Padding

section Digits

variable {digits : List Char} (hdigits : ∀ c ∈ digits, c.isDigit) (negative : Bool)

include hdigits

/-- With a point behind the digits and the zeros that they need. -/
theorem exists_written_whole (hne : digits ≠ []) (hleading : digits.head? ≠ some '0')
    (count : Nat) : ∃ written : Written,
    written.chars = signChars negative ++ payload.positionalText digits count ∧
      written.Denotes negative (Nat.ofDigitChars 10 digits 0 * 10 ^ (count : Int)) := by
  have hzeros := Numeral.isDigit_of_mem_zeros
  refine ⟨⟨negative, digits ++ List.replicate count '0', ['0'], none, ?_, ?_, ?_, hzeros 1⟩,
    ?_, rfl, rfl, ?_⟩
  · exact fun c hmem => (List.mem_append.mp hmem).elim (hdigits c) (hzeros count c)
  · simp [hne]
  · intro hhead
    rw [List.head?_append_of_ne_nil _ hne] at hhead
    exact absurd hhead hleading
  · simp [Written.chars, positionalText, payload, fractionChars, exponentChars]
  · have hcoefficient : Nat.ofDigitChars 10 (digits ++ List.replicate count '0' ++ ['0']) 0 =
        10 * (10 ^ count * Nat.ofDigitChars 10 digits 0) := by
      rw [Nat.ofDigitChars_append, Nat.ofDigitChars_append, Nat.ofDigitChars_replicate_zero]
      rfl
    show (Nat.ofDigitChars 10 (digits ++ List.replicate count '0' ++ ['0']) 0 : ℚ) *
      10 ^ (-1 : Int) = _
    rw [hcoefficient, zpow_neg_one, zpow_natCast]
    push_cast
    ring

/-- With a point between the digits. -/
theorem exists_written_fraction (hleading : digits.head? ≠ some '0') {count : Nat}
    (hcount : 0 < count) : ∃ written : Written,
    written.chars = signChars negative ++ payload.positionalText digits (-count) ∧
      written.Denotes negative (Nat.ofDigitChars 10 digits 0 * 10 ^ (-count : Int)) := by
  have hlength : (padded digits count).length = count + 1 - digits.length + digits.length :=
    length_padded count
  have hwhole : ((padded digits count).take ((padded digits count).length - count)).length =
      (padded digits count).length - count := by
    rw [List.length_take]
    omega
  have hdecimals : ((padded digits count).drop ((padded digits count).length - count)).length =
      count := by
    rw [List.length_drop]
    omega
  have hfraction : (padded digits count).drop ((padded digits count).length - count) ≠ [] := by
    intro hnone
    rw [hnone, List.length_nil] at hdecimals
    omega
  refine ⟨⟨negative, (padded digits count).take ((padded digits count).length - count),
    (padded digits count).drop ((padded digits count).length - count), none, ?_, ?_,
    leading_padded count hleading, ?_⟩, ?_, rfl, ?_, ?_⟩
  · exact fun c hmem => isDigit_padded count hdigits c (List.mem_of_mem_take hmem)
  · intro hnone
    rw [hnone, List.length_nil] at hwhole
    omega
  · exact fun c hmem => isDigit_padded count hdigits c (List.mem_of_mem_drop hmem)
  · have hsign : ¬0 ≤ -(count : Int) := by omega
    have htext : payload.positionalText digits (-count) =
        (padded digits count).take ((padded digits count).length - count) ++
          '.' :: (padded digits count).drop ((padded digits count).length - count) := by
      rw [positionalText, if_neg hsign, neg_neg, Int.toNat_natCast]
      rfl
    rw [htext, Written.chars, fractionChars, if_neg hfraction, exponentChars, List.append_nil]
  · simp [Written.numeral, hfraction]
  · simp only [Written.numeral, List.take_append_drop, hdecimals, ofDigitChars_padded,
      Option.getD_none, zero_sub]

theorem exists_written_positional (hne : digits ≠ []) (hleading : digits.head? ≠ some '0')
    (exponent : Int) : ∃ written : Written,
    written.chars = signChars negative ++ payload.positionalText digits exponent ∧
      written.Denotes negative (Nat.ofDigitChars 10 digits 0 * 10 ^ exponent) := by
  obtain ⟨count, rfl | rfl⟩ := Int.eq_nat_or_neg exponent
  · exact exists_written_whole hdigits negative hne hleading count
  · rcases Nat.eq_zero_or_pos count with rfl | hcount
    · exact exists_written_whole hdigits negative hne hleading 0
    · exact exists_written_fraction hdigits negative hleading hcount

/-- With an exponent behind the digits. -/
theorem exists_written_scientific (hne : digits ≠ []) (exponent : Int) : ∃ written : Written,
    written.chars = signChars negative ++ scientificText digits exponent ∧
      written.Denotes negative (Nat.ofDigitChars 10 digits 0 * 10 ^ exponent) := by
  have hfirst : (digits.take 1).length = 1 := by
    rw [List.length_take]
    have hpos := List.length_pos_of_ne_nil hne
    omega
  refine ⟨⟨negative, digits.take 1, digits.drop 1, some (exponent + digits.length - 1),
    ?_, ?_, fun _ => hfirst, ?_⟩, ?_, rfl, ?_, ?_⟩
  · exact fun c hmem => hdigits c (List.mem_of_mem_take hmem)
  · intro hnone
    rw [hnone] at hfirst
    cases hfirst
  · exact fun c hmem => hdigits c (List.mem_of_mem_drop hmem)
  · have hfraction : fractionChars (digits.drop 1) =
        if digits.length ≤ 1 then [] else '.' :: digits.drop 1 := by
      simp only [fractionChars, List.drop_eq_nil_iff]
    simp only [Written.chars, scientificText, exponentChars, hfraction, List.append_assoc]
  · simp [Written.numeral]
  · have hlength : (digits.drop 1).length = digits.length - 1 := List.length_drop
    have hexponent : (some (exponent + digits.length - 1)).getD 0 - ((digits.drop 1).length : Int) =
        exponent := by
      have hpos := List.length_pos_of_ne_nil hne
      rw [hlength, Option.getD_some]
      omega
    simp only [Written.numeral, List.take_append_drop, hexponent]

end Digits

theorem exists_written_magnitude {x : Binary64} (hparts : x.Parts) (negative : Bool) :
    ∃ written : Written, written.chars = signChars negative ++ payload.magnitudeText x ∧
      written.Denotes negative ((x.shortest.normalized 20).coefficient *
        10 ^ (x.shortest.normalized 20).exponent) := by
  have hzero : ¬x.isZero = true := by
    simpa [Binary64.isZero] using hparts.magnitudeBits_pos.ne'
  have hdigits := Numeral.isDigit_of_mem_toDigits (x.shortest.normalized 20).coefficient
  have hleading := head?_toDigits (Binary64.coefficient_normalized_pos hparts 20)
  have hpositional := exists_written_positional hdigits negative Nat.toDigits_ne_nil hleading
    (x.shortest.normalized 20).exponent
  have hscientific := exists_written_scientific hdigits negative Nat.toDigits_ne_nil
    (x.shortest.normalized 20).exponent
  rw [Nat.ofDigitChars_ten_toDigits] at hpositional hscientific
  rw [magnitudeText, if_neg hzero]
  dsimp only [payload] at *
  split
  · exact hpositional
  · exact hscientific

theorem toList_text (x : FiniteFloat) : (payload.text x.number).toList =
    signChars x.number.negative ++ payload.magnitudeText x.number := by
  have hnumber : ¬x.number.isNaN = true := by
    have hfinite := x.finite
    simp only [Binary64.isFinite, Binary64.isNaN, decide_eq_true_eq] at hfinite ⊢
    omega
  rw [text, if_neg hnumber, if_pos x.finite, String.toList_ofList]
  rfl

end Layout

/-! ## Reading -/

/-- What is not plain is read as a double. -/
theorem Value.ofNumeral?_of_not_plain {numeral : Numeral} {x : FiniteFloat}
    (hplain : numeral.plain = false) (hnumber : Binary64.ofNumeral numeral = x.number) :
    ofNumeral? numeral = some (.float x) := by
  rw [ofNumeral?, hplain, if_neg (by simp), hnumber, FiniteFloat.ofBinary64?_number]
  rfl

/-- **A double is written as a numeral that is read as the double.** -/
theorem exists_written_float (x : FiniteFloat) : ∃ written : Written,
    written.chars = (Layout.payload.text x.number).toList ∧
      Value.ofNumeral? written.numeral = some (.float x) := by
  rw [Layout.toList_text]
  by_cases hzero : x.number.isZero = true
  · have hzeros := Numeral.isDigit_of_mem_zeros 1
    refine ⟨⟨x.number.negative, ['0'], ['0'], none, hzeros, List.cons_ne_nil _ _, fun _ => rfl,
      hzeros⟩, ?_, ?_⟩
    · rw [Layout.magnitudeText, if_pos hzero]
      rfl
    · refine Value.ofNumeral?_of_not_plain rfl ?_
      have hbits : x.number.magnitudeBits = 0 := of_decide_eq_true hzero
      calc Binary64.ofMagnitude x.number.negative 0
          = Binary64.ofMagnitude x.number.negative x.number.magnitudeBits := by rw [hbits]
        _ = x.number := Binary64.ofMagnitude_magnitudeBits _
  · have hparts := Binary64.parts x.finite (Bool.eq_false_of_not_eq_true hzero)
    obtain ⟨written, hchars, hdenotes⟩ :=
      Layout.exists_written_magnitude hparts x.number.negative
    refine ⟨written, hchars, Value.ofNumeral?_of_not_plain hdenotes.plain_eq ?_⟩
    calc Binary64.ofNumeral written.numeral
        = Binary64.ofMagnitude written.negative x.number.magnitudeBits :=
          Binary64.ofDecimal_of_value_eq hparts _ 20 hdenotes.value_eq
      _ = x.number := by rw [hdenotes.negative_eq, Binary64.ofMagnitude_magnitudeBits]

/-- **An integer is written as a numeral that is read as the integer.** -/
theorem ofNumeral?_writtenInt (n : WideInt) :
    Value.ofNumeral? (writtenInt n.val).numeral = some (.int n) := by
  have hplain : ¬(decide (n.val < 0) = true ∧ n.val.natAbs = 0) := by
    rw [decide_eq_true_eq]
    omega
  have hvalue : (⟨decide (n.val < 0), n.val.natAbs, 0, true⟩ : Numeral).toInt = n.val := by
    simp only [Numeral.toInt, decide_eq_true_eq]
    split <;> omega
  rw [numeral_writtenInt, Value.ofNumeral?, if_pos ⟨rfl, hplain⟩, hvalue, WideInt.ofInt?_val]

end Clearing
