import Clearing.Text.Bytes

/-!
# The bytes of a text

A text is written character by character.  Characters below 128 are one byte, and the
bytes of all others are 128 or more, so a byte below 128 is always a character.
-/

namespace Clearing.Text

/-- The bytes of characters in a row. -/
def bytesOf (chars : List Char) : Bytes :=
  chars.flatMap String.utf8EncodeChar

@[simp] theorem bytesOf_nil : bytesOf [] = [] := rfl

@[simp] theorem bytesOf_cons (c : Char) (chars : List Char) :
    bytesOf (c :: chars) = String.utf8EncodeChar c ++ bytesOf chars :=
  List.flatMap_cons

@[simp] theorem bytesOf_append (first second : List Char) :
    bytesOf (first ++ second) = bytesOf first ++ bytesOf second :=
  List.flatMap_append

theorem encode_ofList (chars : List Char) : encode (String.ofList chars) = bytesOf chars := by
  have hbytes : (String.ofList chars).toUTF8 = (bytesOf chars).toByteArray :=
    String.toByteArray_ofList
  rw [encode, hbytes, List.data_toByteArray]

theorem encode_eq (text : String) : encode text = bytesOf text.toList := by
  rw [← encode_ofList, String.ofList_toList]

theorem utf8EncodeChar_of_lt {c : Char} (hascii : c.toNat < 128) :
    String.utf8EncodeChar c = [UInt8.ofNat c.toNat] := by
  have hsmall : c.val.toNat ≤ 127 := Nat.le_of_lt_succ hascii
  rw [String.utf8EncodeChar, if_pos hsmall]
  rfl

theorem bytesOf_of_lt {chars : List Char} (hascii : ∀ c ∈ chars, c.toNat < 128) :
    bytesOf chars = chars.map fun c => UInt8.ofNat c.toNat := by
  induction chars with
  | nil => rfl
  | cons c rest ih =>
      rw [bytesOf_cons, utf8EncodeChar_of_lt (hascii c List.mem_cons_self),
        ih fun other hother => hascii other (List.mem_cons_of_mem _ hother)]
      rfl

/-- The bytes of a character beyond 127 are beyond 127. -/
theorem le_of_mem_utf8EncodeChar {c : Char} {byte : UInt8} (hlarge : 128 ≤ c.toNat)
    (hbyte : byte ∈ String.utf8EncodeChar c) : 128 ≤ byte.toNat := by
  have hlarge : ¬c.val.toNat ≤ 127 := Nat.not_le_of_lt hlarge
  rw [String.utf8EncodeChar, if_neg hlarge] at hbyte
  split at hbyte
  · simp only [List.mem_cons, List.not_mem_nil, or_false] at hbyte
    rcases hbyte with rfl | rfl <;> simp only [UInt8.toNat_ofNat'] <;> omega
  · split at hbyte
    · simp only [List.mem_cons, List.not_mem_nil, or_false] at hbyte
      rcases hbyte with rfl | rfl | rfl <;> simp only [UInt8.toNat_ofNat'] <;> omega
    · simp only [List.mem_cons, List.not_mem_nil, or_false] at hbyte
      rcases hbyte with rfl | rfl | rfl | rfl <;> simp only [UInt8.toNat_ofNat'] <;> omega

/-- A text of characters that are no byte zero has no byte zero. -/
theorem zero_notMem_encode_ofList {chars : List Char} (hchars : ∀ c ∈ chars, 0 < c.toNat) :
    0 ∉ encode (String.ofList chars) := by
  rw [encode_ofList]
  intro hzero
  obtain ⟨c, hmem, hbyte⟩ := List.mem_flatMap.mp hzero
  by_cases hascii : c.toNat < 128
  · rw [utf8EncodeChar_of_lt hascii, List.mem_singleton] at hbyte
    have hsame := congrArg UInt8.toNat hbyte
    have hpos := hchars c hmem
    simp only [UInt8.toNat_ofNat'] at hsame
    simp at hsame
    omega
  · have hlarge := le_of_mem_utf8EncodeChar (Nat.le_of_not_lt hascii) hbyte
    simp at hlarge

end Clearing.Text
