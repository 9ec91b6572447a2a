import Clearing.Proofs.Payload.Binary
import Clearing.Proofs.Payload.Envelope

/-!
# Binary records can be read back

A binary record may be an envelope, JSON text of an older sender, or a binary document,
and it is looked at in this order.  A document that was written here is neither of the
first two: it ends with a zero byte, which no JSON text has, and its fifth byte is a tag
or the zero at its end, where an envelope has the letter `R` (`ofJsonBytes?_of_zero`,
`Envelope.content?_frame`).  So it is read as a document, in an envelope or not, whatever
the policy is.
-/

namespace Clearing

/-! ## JSON has no zero byte -/

namespace Json

theorem step_zero (state : Scan) : step state 0 = none := by
  cases state with
  | between => rfl
  | word reversed =>
      show (finish (.word reversed)).bind _ = none
      cases finish (.word reversed) <;> rfl
  | number reversed =>
      show (finish (.number reversed)).bind _ = none
      cases finish (.number reversed) <;> rfl
  | string content => rfl
  | escape content => rfl
  | unit content digits value =>
      have hdigit : Text.hexValue? (Char.ofNat (0 : UInt8).toNat) = none := by decide
      rw [step, hdigit]
      rfl

theorem scan_of_zero {bytes : Bytes} (state : Scan) (hzero : 0 ∈ bytes) :
    scan state bytes = none := by
  induction bytes generalizing state with
  | nil => cases hzero
  | cons byte rest ih =>
      rw [scan_cons]
      rcases List.mem_cons.mp hzero with rfl | hrest
      · rw [step_zero]
        rfl
      · cases step state byte with
        | none => rfl
        | some next =>
            rw [Option.bind_some, ih next.2 hrest]
            rfl

end Json

theorem Payload.ofJsonBytes?_of_zero {bytes : Bytes} (hzero : 0 ∈ bytes) :
    ofJsonBytes? bytes = none := by
  rw [ofJsonBytes?, Json.ofBytes?, Json.tokens?, Json.scan_of_zero _ hzero]
  rfl

/-! ## A document is no envelope -/

namespace BinaryDocument

theorem tag_lt {value : Value} {tag : UInt8} {body : Bytes}
    (hencode : encodeValue? value = some (tag, body)) : tag.toNat < 32 := by
  cases value with
  | int n =>
      rw [encodeValue?] at hencode
      split at hencode <;> cases hencode
      decide
  | array items =>
      obtain ⟨elements, -, hsame⟩ := Option.map_eq_some_iff.mp hencode
      cases hsame
      decide
  | object members =>
      obtain ⟨elements, -, hsame⟩ := Option.map_eq_some_iff.mp hencode
      cases hsame
      decide
  | _ =>
      cases hencode
      decide

/-- A row of elements begins with a tag. -/
theorem head_lt {members : List (String × Value)} {elements : Bytes}
    (hencode : encodeMembers? members = some elements) :
    ∀ byte ∈ elements.head?, byte.toNat < 32 := by
  cases members with
  | nil =>
      cases hencode
      nofun
  | cons member rest =>
      obtain ⟨name, value⟩ := member
      simp only [encodeMembers?, Option.bind_eq_bind] at hencode
      split at hencode
      · cases hencode
      · simp only [Option.bind_eq_some_iff] at hencode
        obtain ⟨⟨tag, body⟩, hvalue, more, -, hsame⟩ := hencode
        cases hsame
        rintro byte ⟨⟩
        exact tag_lt hvalue

end BinaryDocument

namespace Envelope

/-- What has no letter in its fifth place is no envelope. -/
theorem content?_of_fifth {bytes : Bytes} (hfifth : ∀ byte ∈ bytes[4]?, byte.toNat < 32) :
    content? bytes = none := by
  rw [content?, if_neg]
  intro hprefix
  obtain ⟨rest, rfl⟩ := List.isPrefixOf_iff_prefix.mp hprefix
  exact absurd (hfifth 82 rfl) (by decide)

theorem content?_frame {members : List (String × Value)} {elements : Bytes}
    (hencode : BinaryDocument.encodeMembers? members = some elements) :
    content? (BinaryDocument.frame elements) = none := by
  refine content?_of_fifth ?_
  have hfifth : (BinaryDocument.frame elements)[4]? = (elements ++ [0]).head? := by
    rw [BinaryDocument.frame, List.append_assoc,
      List.getElem?_append_right (Nat.le_of_eq (length_littleEndian ..)), length_littleEndian,
      List.head?_eq_getElem?]
  rw [hfifth]
  cases elements with
  | nil =>
      rintro byte ⟨⟩
      decide
  | cons byte rest => exact fun first hfirst => BinaryDocument.head_lt hencode first hfirst

end Envelope

/-! ## Reading what was written -/

namespace Payload

theorem decodeWith_binary_of_unwrap {policy : LegacyPolicy} {bytes document : Bytes}
    {payload : Payload} (hbytes : bytes ≠ []) (hunwrap : Envelope.unwrap bytes = .ok document)
    (hjson : ofJsonBytes? document = none)
    (hdocument : BinaryDocument.decode? document = some payload) :
    decodeWith policy .binary bytes = .ok payload := by
  have hlegacy : (if policy = .textFirst then ofJsonBytes? document else none) = none := by
    rw [hjson, ite_self]
  rw [decodeWith_binary_of_ne_nil hbytes hunwrap]
  simp only [ofDocument, hlegacy, hdocument]
  rfl

/-- **A payload that was encoded in binary form is decoded from it**, bare or in an envelope and
under either policy; the document is no envelope and no JSON text. -/
theorem decodeWith_binary_of_encode {payload : Payload} {document : Bytes} (policy : LegacyPolicy)
    (hencode : EncodedPayload.encode .binary payload = .ok (.binary document))
    (hwell : (Value.object payload).WellFormed) (hshort : document.length < twoTo 31) :
    decodeWith policy .binary document = .ok payload ∧
      decodeWith policy .binary (Envelope.wrap document) = .ok payload ∧
      Envelope.content? document = none ∧ ofJsonBytes? document = none := by
  have hdocument : BinaryDocument.encode? payload = some document := by
    simp only [EncodedPayload.encode] at hencode
    split at hencode
    · rename_i hsome
      cases hencode
      exact hsome
    · cases hencode
  have hdecode := BinaryDocument.decode?_encode? hdocument hwell hshort
  obtain ⟨elements, helements, rfl⟩ := Option.map_eq_some_iff.mp hdocument
  have hjson : ofJsonBytes? (BinaryDocument.frame elements) = none :=
    ofJsonBytes?_of_zero (List.mem_append_right _ (List.mem_singleton_self 0))
  have hcontent := Envelope.content?_frame helements
  have hunwrap : Envelope.unwrap (BinaryDocument.frame elements) =
      .ok (BinaryDocument.frame elements) := by
    rw [Envelope.unwrap, hcontent]
  have hframe : BinaryDocument.frame elements ≠ [] := by
    intro hnil
    have hlength := BinaryDocument.length_frame elements
    rw [hnil] at hlength
    cases hlength
  exact ⟨decodeWith_binary_of_unwrap hframe hunwrap hjson hdecode,
    decodeWith_binary_of_unwrap (by simp [Envelope.wrap, Envelope.marker])
      (Envelope.unwrap_wrap _) hjson hdecode, hcontent, hjson⟩

/-- A payload with numbers at their limits, characters of several bytes and a container in
containers. -/
def variedPayload : Payload :=
  [("least", .int ⟨-9223372036854775808, by decide, by decide⟩),
    ("größtes", .int ⟨9223372036854775807, by decide, by decide⟩),
    ("", .float ⟨⟨0x8000000000000000⟩, by decide⟩),
    ("BINARY:", .array [.string "😀\n", .null, .object [("a", .array []), ("b", .bool true)]])]

theorem decodeWith_binary_variedPayload :
    ∃ document, EncodedPayload.encode .binary variedPayload = .ok (.binary document) ∧
      (Value.object variedPayload).WellFormed ∧ document.length < twoTo 31 ∧
      decodeWith .textFirst .binary document = .ok variedPayload ∧
      decodeWith .textFirst .binary (Envelope.wrap document) = .ok variedPayload ∧
      Envelope.content? document = none ∧ ofJsonBytes? document = none := by
  have hencode : EncodedPayload.encode .binary variedPayload =
      .ok (.binary ((BinaryDocument.encode? variedPayload).getD [])) := by
    have hdocument : BinaryDocument.encode? variedPayload =
        some ((BinaryDocument.encode? variedPayload).getD []) := by
      decide +kernel
    rw [EncodedPayload.encode, hdocument]
    rfl
  have hwell : (Value.object variedPayload).WellFormed := by
    simp [Value.WellFormed, Value.WellFormedMembers, Value.WellFormedItems, variedPayload, names]
  have hshort : ((BinaryDocument.encode? variedPayload).getD []).length < twoTo 31 := by
    decide +kernel
  exact ⟨_, hencode, hwell, hshort, decodeWith_binary_of_encode .textFirst hencode hwell hshort⟩

end Payload

end Clearing
