import Clearing.Number.Power
import Clearing.Text.Bytes

/-!
# Elements of a binary document

A binary document is a length, a row of elements and a final zero byte.  An
element is a tag, a name ended by a zero byte, and a body whose size follows
from the tag and the first bytes of the body.  This file only cuts documents
into elements; what a body stands for is read elsewhere.

Cutting never invents bytes: the body and what follows the element are together
shorter than what was cut (`split?_length`).
-/

namespace Clearing.BinaryDocument

/-- An element: its tag, its name and the bytes of its body. -/
structure Element where
  tag : Nat
  name : Bytes
  body : Bytes
  deriving DecidableEq, Repr

/-- The bytes before the first zero byte, and those after it. -/
def untilZero? : Bytes → Option (Bytes × Bytes)
  | [] => none
  | byte :: rest =>
    if byte = 0 then some ([], rest)
    else (untilZero? rest).map fun parts => (byte :: parts.1, parts.2)

/-- The four-byte length at the front; lengths are signed, a negative one is refused. -/
def length? (bytes : Bytes) : Option Nat :=
  if bytes.length < 4 then none
  else
    let value := ofLittleEndian (bytes.take 4)
    if value < twoTo 31 then some value else none

/-- The size of a body, by tag. -/
def bodySize? (tag : Nat) (bytes : Bytes) : Option Nat :=
  match tag with
  | 0x01 => some 8
  | 0x02 => (length? bytes).map (4 + ·)
  | 0x03 => length? bytes
  | 0x04 => length? bytes
  | 0x05 => (length? bytes).map (5 + ·)
  | 0x06 => some 0
  | 0x07 => some 12
  | 0x08 => some 1
  | 0x09 => some 8
  | 0x0A => some 0
  | 0x0B => do
    let (pattern, rest) ← untilZero? bytes
    let (options, _) ← untilZero? rest
    pure (pattern.length + options.length + 2)
  | 0x0C => (length? bytes).map (16 + ·)
  | 0x0D => (length? bytes).map (4 + ·)
  | 0x0E => (length? bytes).map (4 + ·)
  | 0x0F => length? bytes
  | 0x10 => some 4
  | 0x11 => some 8
  | 0x12 => some 8
  | 0x13 => some 16
  | 0x7F => some 0
  | 0xFF => some 0
  | _ => none

/-- The first element, and the bytes after it. -/
def Element.split? : Bytes → Option (Element × Bytes)
  | [] => none
  | tag :: rest =>
    match untilZero? rest with
    | none => none
    | some (name, after) =>
      match bodySize? tag.toNat after with
      | none => none
      | some size =>
        if size ≤ after.length then some (⟨tag.toNat, name, after.take size⟩, after.drop size)
        else none

/-- The content of a document of exactly these bytes: without the length and the final zero. -/
def content? (bytes : Bytes) : Option Bytes :=
  if length? bytes = some bytes.length ∧ 5 ≤ bytes.length ∧ bytes.getLast? = some 0 then
    some ((bytes.drop 4).dropLast)
  else none

theorem untilZero?_length {bytes name rest : Bytes} (h : untilZero? bytes = some (name, rest)) :
    name.length + rest.length + 1 = bytes.length := by
  induction bytes generalizing name with
  | nil => cases h
  | cons byte bytes ih =>
    rw [untilZero?] at h
    split at h
    · cases h
      simp
    · obtain ⟨parts, hparts, hsame⟩ := Option.map_eq_some_iff.1 h
      cases hsame
      have := ih hparts
      simp only [List.length_cons]
      omega

theorem split?_length {bytes rest : Bytes} {element : Element}
    (h : Element.split? bytes = some (element, rest)) :
    element.body.length + rest.length < bytes.length := by
  cases bytes with
  | nil => cases h
  | cons tag bytes =>
    rw [Element.split?] at h
    split at h
    · cases h
    · rename_i name after hname
      split at h
      · cases h
      · split at h
        · cases h
          have := untilZero?_length hname
          simp only [List.length_take, List.length_drop, List.length_cons]
          omega
        · cases h

theorem content?_length {bytes content : Bytes} (h : content? bytes = some content) :
    content.length + 5 = bytes.length := by
  rw [content?] at h
  split at h
  · rename_i hshape
    cases h
    simp only [List.length_dropLast, List.length_drop]
    omega
  · cases h

end Clearing.BinaryDocument
