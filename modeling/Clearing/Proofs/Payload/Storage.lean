import Clearing.Proofs.Payload.Legacy

/-!
# Which payloads can be read back

The writers accept more than the readers.  Text is written however deep a payload is nested
and read to a depth of `Value.maxDepth` only; a binary document is written however long it
becomes, and a longer one than its length can say is refused.  A payload that `Fits` stays
below these bounds, and exactly then it is read back (`decode_of_fits`,
`decode_of_not_fits`).  What does not fit is refused as a whole.
-/

namespace Clearing

namespace Payload

/-- Text can be nested as deep as the payload is, or a document can be as long. -/
def Fits (format : WireFormat) (payload : Payload) : Prop :=
  match format with
  | .text => (Value.object payload).depth ≤ Value.maxDepth
  | .binary => ∀ document ∈ BinaryDocument.encode? payload, document.length < twoTo 31

/-- Whatever is read has distinct names in all of its maps. -/
theorem wellFormed_of_decode {format : WireFormat} {bytes : Bytes} {payload : Payload}
    (hdecode : decode format bytes = .ok payload) : (Value.object payload).WellFormed := by
  cases format with
  | text => exact (within_of_ofJsonBytes? (decode_text_eq_ok_iff.mp hdecode)).wellFormed
  | binary =>
      rcases decodeWith_binary_cases bytes with ⟨document, -, hread⟩ | ⟨failure, hrefused⟩
      · rw [decode, hread, codecFailure_eq_ok_iff] at hdecode
        cases hjson : ofJsonBytes? document with
        | none =>
            rw [ofDocument_textFirst_of_no_json hjson, ofDocument_binaryOnly_eq_ok_iff] at hdecode
            exact BinaryDocument.wellFormed_of_decode? hdecode
        | some other =>
            rw [ofDocument_textFirst_of_json hjson] at hdecode
            cases hdecode
            exact (within_of_ofJsonBytes? hjson).wellFormed
      · rw [decode, hrefused] at hdecode
        cases hdecode

/-! ## Text -/

theorem text_ne_nil (payload : Payload) : Text.encode payload.text ≠ [] := by
  rw [text, Text.encode_ofList, Value.chars, List.cons_append, Text.bytesOf_cons]
  exact List.append_ne_nil_of_left_ne_nil (by decide) _

/-- Text that is nested too deep is not read. -/
theorem ofJsonBytes?_text_of_lt_depth {payload : Payload}
    (hwell : (Value.object payload).WellFormed)
    (hdeep : Value.maxDepth < (Value.object payload).depth) :
    ofJsonBytes? (Text.encode payload.text) = none := by
  obtain ⟨json, hreads, hvalue⟩ :=
    Value.readable_of_depth_le (.object payload) hwell (Nat.le_refl _)
  have hjson : Json.ofBytes? (Text.encode payload.text) = some json := by
    rw [text, Text.encode_ofList]
    exact Json.ofBytes?_of_reads hreads
  have hrefused : Value.ofJson? Value.maxDepth json = none := by
    cases hread : Value.ofJson? Value.maxDepth json with
    | none => rfl
    | some value =>
        -- it would be the payload, which is too deep
        have hsame := Value.ofJson?_mono (Nat.le_of_lt hdeep) hread
        rw [hvalue] at hsame
        cases hsame
        exact absurd (Value.within_of_ofJson? hread).depth_le (Nat.not_le_of_lt hdeep)
  simp only [ofJsonBytes?, hjson, Option.bind_eq_bind, Option.bind_some, hrefused,
    Option.bind_none]

theorem decode_text_of_ne_nil {bytes : Bytes} (hbytes : bytes ≠ [])
    (hjson : ofJsonBytes? bytes = none) :
    decode .text bytes = .error (.codec .text bytes.length .malformed) := by
  have hempty : bytes.isEmpty = false := by simpa using hbytes
  simp only [decode, decodeWith, decodeText, hempty, Bool.false_eq_true, if_false, hjson]
  rfl

/-! ## Binary documents -/

theorem encode_of_encode? {payload : Payload} {document : Bytes}
    (hdocument : BinaryDocument.encode? payload = some document) :
    EncodedPayload.encode .binary payload = .ok (.binary document) := by
  rw [EncodedPayload.encode, hdocument]

theorem encode?_of_encode {payload : Payload} {encoded : EncodedPayload}
    (hencode : EncodedPayload.encode .binary payload = .ok encoded) :
    ∃ document, BinaryDocument.encode? payload = some document ∧ encoded = .binary document := by
  rw [EncodedPayload.encode] at hencode
  split at hencode
  · rename_i document hdocument
    cases hencode
    exact ⟨document, hdocument, rfl⟩
  · cases hencode

theorem fits_binary_iff {payload : Payload} {document : Bytes}
    (hdocument : BinaryDocument.encode? payload = some document) :
    payload.Fits .binary ↔ document.length < twoTo 31 := by
  refine ⟨fun hfits => hfits document hdocument, fun hshort other hother => ?_⟩
  rw [Option.mem_def, hdocument] at hother
  cases hother
  exact hshort

/-- A written document is looked at as a document and as nothing else. -/
theorem decode_binary_document {payload : Payload} {document : Bytes}
    (hencode : BinaryDocument.encode? payload = some document) :
    decode .binary document =
      codecFailure .binary document.length (ofDocument .binaryOnly document) := by
  obtain ⟨elements, helements, rfl⟩ := Option.map_eq_some_iff.mp hencode
  have hzero : 0 ∈ BinaryDocument.frame elements :=
    List.mem_append_right _ (List.mem_singleton_self 0)
  have hunwrap : Envelope.unwrap (BinaryDocument.frame elements) =
      .ok (BinaryDocument.frame elements) := by
    rw [Envelope.unwrap, Envelope.content?_frame helements]
  rw [decode, decodeWith_binary_of_ne_nil (List.ne_nil_of_mem hzero) hunwrap,
    ofDocument_textFirst_of_no_json (ofJsonBytes?_of_zero hzero)]

theorem ofDocument_binaryOnly_of_none {document : Bytes}
    (hnone : BinaryDocument.decode? document = none) :
    ofDocument .binaryOnly document = .error .malformed := by
  have hpolicy : ¬LegacyPolicy.binaryOnly = .textFirst := nofun
  simp only [ofDocument, if_neg hpolicy, hnone]

end Payload

/-! ## Both encodings -/

namespace EncodedPayload

variable {format : WireFormat} {payload : Payload} {encoded : EncodedPayload}

/-- A payload that fits is read back. -/
theorem decode_of_fits (hencode : encode format payload = .ok encoded)
    (hwell : (Value.object payload).WellFormed) (hfits : payload.Fits format) :
    encoded.decode = .ok payload := by
  cases format with
  | text =>
      cases hencode
      have hreadable := Value.readable_of_depth_le (.object payload) hwell hfits
      exact Payload.decode_text_eq_ok_iff.mpr (Payload.ofJsonBytes?_text hreadable)
  | binary =>
      obtain ⟨document, hdocument, rfl⟩ := Payload.encode?_of_encode hencode
      have hshort := (Payload.fits_binary_iff hdocument).mp hfits
      have hread := BinaryDocument.decode?_encode? hdocument hwell hshort
      show Payload.decode .binary document = .ok payload
      rw [Payload.decode_binary_document hdocument, Payload.codecFailure_eq_ok_iff,
        Payload.ofDocument_binaryOnly_eq_ok_iff, hread]

/-- A payload that does not fit is refused. -/
theorem decode_of_not_fits (hencode : encode format payload = .ok encoded)
    (hwell : (Value.object payload).WellFormed) (hfits : ¬payload.Fits format) :
    encoded.decode = .error (.codec format encoded.bytes.length .malformed) := by
  cases format with
  | text =>
      cases hencode
      have hrefused := Payload.ofJsonBytes?_text_of_lt_depth hwell (Nat.lt_of_not_le hfits)
      exact Payload.decode_text_of_ne_nil (Payload.text_ne_nil payload) hrefused
  | binary =>
      obtain ⟨document, hdocument, rfl⟩ := Payload.encode?_of_encode hencode
      have hlong : ¬document.length < twoTo 31 := fun hshort =>
        hfits ((Payload.fits_binary_iff hdocument).mpr hshort)
      have hrefused : BinaryDocument.decode? document = none := by
        cases hread : BinaryDocument.decode? document with
        | none => rfl
        | some other => exact absurd (BinaryDocument.length_lt_of_decode? hread) hlong
      show Payload.decode .binary document = _
      rw [Payload.decode_binary_document hdocument, Payload.ofDocument_binaryOnly_of_none hrefused]
      rfl

end EncodedPayload

end Clearing
