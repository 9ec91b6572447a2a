import Clearing.Number.Power

/-!
# Text as bytes

Records arrive as byte strings and the text inside them is UTF-8.  This file
fixes the two directions: `encode` writes a text out and `decode?` reads one
back, refusing every byte string that is not well formed.  Nothing is lost on
the way (`decode?_encode`), and no two byte strings carry the same text
(`encode_of_decode?`).
-/

namespace Clearing

/-- A byte string. -/
abbrev Bytes := List UInt8

namespace Text

/-- The UTF-8 form of a text. -/
def encode (text : String) : Bytes :=
  text.toUTF8.data.toList

/-- The text whose UTF-8 form is given, if there is one. -/
def decode? (bytes : Bytes) : Option String :=
  String.fromUTF8? ⟨bytes.toArray⟩

theorem decode?_encode (text : String) : decode? (encode text) = some text := by
  have hbytes : (⟨(encode text).toArray⟩ : ByteArray) = text.toByteArray := rfl
  rw [decode?, hbytes, String.fromUTF8?, dif_pos text.isValidUTF8]
  rfl

theorem encode_of_decode? {bytes : Bytes} {text : String} (h : decode? bytes = some text) :
    encode text = bytes := by
  simp only [decode?, String.fromUTF8?] at h
  split at h
  · cases h
    simp [encode, String.fromUTF8]
  · cases h

end Text

/-- The least significant byte of a number. -/
def lowByte (n : Nat) : UInt8 :=
  UInt8.ofNat n

/-- The low `count` bytes of a number, the least significant one first. -/
def littleEndian : Nat → Nat → Bytes
  | 0, _ => []
  | count + 1, n => lowByte n :: littleEndian count (n / 256)

/-- The number whose bytes are given, the least significant one first. -/
def ofLittleEndian : Bytes → Nat
  | [] => 0
  | byte :: rest => byte.toNat + 256 * ofLittleEndian rest

@[simp] theorem length_littleEndian (count n : Nat) : (littleEndian count n).length = count := by
  induction count generalizing n with
  | zero => rfl
  | succ count ih => simp [littleEndian, ih]

theorem ofLittleEndian_littleEndian (count n : Nat) :
    ofLittleEndian (littleEndian count n) = n % twoTo (8 * count) := by
  induction count generalizing n with
  | zero => simp [littleEndian, ofLittleEndian, Nat.mod_one]
  | succ count ih =>
    have hlow : (lowByte n).toNat = n % 256 := by simp [lowByte]
    rw [littleEndian, ofLittleEndian, ih, hlow, Nat.mul_succ, twoTo_add, Nat.mul_comm (twoTo _),
      show twoTo 8 = 256 from rfl, Nat.mod_mul]

end Clearing
