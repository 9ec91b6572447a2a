/-!
# Blanks

Two classes of blanks meet in the pipeline.  Names typed by people are trimmed
of every character with the Unicode property White_Space; the text envelope of
a binary document is trimmed of five ASCII bytes only.
-/

namespace Clearing.Text

/-- The Unicode property White_Space. -/
def isBlank (c : Char) : Bool :=
  (9 ≤ c.toNat && c.toNat ≤ 13) || c = ' ' || c.toNat = 0x85 || c.toNat = 0xA0 ||
    c.toNat = 0x1680 || (0x2000 ≤ c.toNat && c.toNat ≤ 0x200A) || c.toNat = 0x2028 ||
    c.toNat = 0x2029 || c.toNat = 0x202F || c.toNat = 0x205F || c.toNat = 0x3000

/-- A sequence without the leading and trailing elements of a class. -/
def strip {α : Type} (isEdge : α → Bool) (items : List α) : List α :=
  ((items.dropWhile isEdge).reverse.dropWhile isEdge).reverse

/-- A text without the blanks around it. -/
def trim (text : String) : String :=
  String.ofList (strip isBlank text.toList)

/-- The bytes that may surround the envelope of a document: tab, line feed, form feed, carriage
return and space. -/
def isEnvelopeBlank (byte : UInt8) : Bool :=
  byte = 9 || byte = 10 || byte = 12 || byte = 13 || byte = 32

theorem dropWhile_eq_self_of_head {α : Type} {isEdge : α → Bool} {items : List α}
    (h : ∀ a ∈ items.head?, isEdge a = false) : items.dropWhile isEdge = items := by
  cases items with
  | nil => rfl
  | cons a rest => simp [List.dropWhile, h a rfl]

/-- ASCII letters in upper case, everything else as it is. -/
def upper (text : String) : String :=
  String.ofList (text.toList.map Char.toUpper)

/-- ASCII letters in lower case, everything else as it is. -/
def lower (text : String) : String :=
  String.ofList (text.toList.map Char.toLower)

end Clearing.Text
