import Clearing.Proofs.Transaction.Keeping

/-!
# A document means the same however it arrives

A document that was read from text can be sent in four ways: as text, and on the binary side
as a binary document, as an envelope of it, or as the text itself by an older sender.  All
four are read as the same document, so all of them describe the same purchase or have the
same fault (`ofRecord_arrival`).  Only the encoding tells them apart: the one of the side on
which the record arrived, in which the data are kept as well.
-/

namespace Clearing

/-- The ways in which a document can arrive. -/
inductive Arrival where
  /-- Text where text belongs. -/
  | text
  /-- A binary document. -/
  | document
  /-- A binary document in its envelope. -/
  | envelope
  /-- Text where a binary document belongs. -/
  | legacy
  deriving DecidableEq, Repr

namespace Arrival

/-- The side on which the document arrives. -/
def format : Arrival → WireFormat
  | .text => .text
  | _ => .binary

/-- The record: the text of the payload, or its binary document. -/
def record (payload : Payload) (document : Bytes) : Arrival → Bytes
  | .text | .legacy => Text.encode payload.text
  | .document => document
  | .envelope => Envelope.wrap document

end Arrival

/-! ## One document -/

namespace BinaryDocument

/-- The elements of a map are no longer than the map. -/
theorem exists_encodeValue?_of_mem {members : List (String × Value)} {elements : Bytes}
    {name : String} {value : Value} (hencode : encodeMembers? members = some elements)
    (hmem : (name, value) ∈ members) :
    ∃ tag body, encodeValue? value = some (tag, body) ∧ body.length ≤ elements.length := by
  induction members generalizing elements with
  | nil => cases hmem
  | cons member rest ih =>
      obtain ⟨key, first⟩ := member
      simp only [encodeMembers?, Option.bind_eq_bind] at hencode
      split at hencode
      · cases hencode
      · simp only [Option.bind_eq_some_iff] at hencode
        obtain ⟨⟨tag, body⟩, hfirst, more, hmore, hsame⟩ := hencode
        dsimp only at hsame
        cases hsame
        rw [length_elementBytes_append]
        rcases List.mem_cons.mp hmem with hhead | hrest
        · cases hhead
          exact ⟨tag, body, hfirst, by omega⟩
        · obtain ⟨other, inner, hinner, hlength⟩ := ih hmore hrest
          exact ⟨other, inner, hinner, by omega⟩

/-- A map inside a document has a document of its own, and a shorter one. -/
theorem exists_encode?_of_mem {payload inner : Payload} {document : Bytes} {name : String}
    (hencode : encode? payload = some document) (hmem : (name, Value.object inner) ∈ payload) :
    ∃ part, encode? inner = some part ∧ part.length < document.length := by
  obtain ⟨elements, helements, rfl⟩ := Option.map_eq_some_iff.mp hencode
  obtain ⟨tag, body, hvalue, hlength⟩ := exists_encodeValue?_of_mem helements hmem
  obtain ⟨part, hpart, hsame⟩ := Option.map_eq_some_iff.mp hvalue
  cases hsame
  refine ⟨frame part, ?_, ?_⟩
  · rw [encode?, hpart]
    rfl
  · rw [length_frame elements]
    omega

end BinaryDocument

namespace Payload

/-- Text is no envelope. -/
theorem not_marker_text (payload : Payload) : ¬Envelope.marker <+: Text.encode payload.text := by
  rw [text, Text.encode_ofList, Value.chars, List.cons_append, Text.bytesOf_cons]
  rintro ⟨rest, hrest⟩
  cases hrest

variable {bytes document : Bytes} {payload : Payload}

/-- However the document arrives, it is read as the payload. -/
theorem decode_arrival (hdecode : decode .text bytes = .ok payload)
    (hencode : EncodedPayload.encode .binary payload = .ok (.binary document))
    (hshort : document.length < twoTo 31) (arrival : Arrival) :
    decode arrival.format (arrival.record payload document) = .ok payload := by
  have hwithin := within_of_ofJsonBytes? (decode_text_eq_ok_iff.mp hdecode)
  have hwritten : EncodedPayload.encode .text payload = .ok (.text payload.text) := rfl
  have htext : decode .text (Text.encode payload.text) = .ok payload :=
    EncodedPayload.decode_of_fits hwritten hwithin.wellFormed hwithin.depth_le
  obtain ⟨written, hdocument, hsame⟩ := encode?_of_encode hencode
  cases hsame
  cases arrival with
  | text => exact htext
  | document =>
      exact EncodedPayload.decode_of_fits hencode hwithin.wellFormed
        ((fits_binary_iff hdocument).mpr hshort)
  | envelope =>
      have hread := BinaryDocument.decode?_encode? hdocument hwithin.wellFormed hshort
      have hholds := Envelope.holds_wrap document
      exact decodeWith_binary_of_unwrap hholds.ne_nil hholds.unwrap
        (ofJsonBytes?_of_document hread) hread
  | legacy =>
      show decodeWith .textFirst .binary (Text.encode payload.text) = .ok payload
      rw [decodeWith_binary_of_ne_nil (text_ne_nil payload)
        (Envelope.unwrap_of_not_marker (not_marker_text payload)), codecFailure_eq_ok_iff]
      exact ofDocument_textFirst_of_json (decode_text_eq_ok_iff.mp htext)

end Payload

/-! ## One purchase -/

namespace Transaction

variable {bytes document : Bytes} {payload : Payload}

/-- Data in a document fit both encodings and have a form in both. -/
theorem exists_encode_data? {data : Payload} (hdecode : Payload.decode .text bytes = .ok payload)
    (hencode : EncodedPayload.encode .binary payload = .ok (.binary document))
    (hshort : document.length < twoTo 31) (hdata : payload.data? = some data)
    (format : WireFormat) :
    data.Fits format ∧ ∃ encoded, EncodedPayload.encode format data = .ok encoded := by
  cases format with
  | text => exact ⟨fits_data?_of_text hdecode data hdata, _, rfl⟩
  | binary =>
      obtain ⟨written, hdocument, hsame⟩ := Payload.encode?_of_encode hencode
      cases hsame
      obtain ⟨part, hpart, hlength⟩ :=
        BinaryDocument.exists_encode?_of_mem hdocument (Payload.mem_of_data? hdata)
      exact ⟨(Payload.fits_binary_iff hpart).mpr (Nat.lt_trans hlength hshort),
        .binary part, Payload.encode_of_encode? hpart⟩

/-- A purchase that carries data which fit is the purchase with the data in its encoding. -/
theorem exists_of_carrying {purchase : Transaction} {data : Option Payload} {format : WireFormat}
    (hbare : purchase.Bare)
    (hdata : ∀ kept ∈ data, (Value.object kept).WellFormed ∧ kept.Fits format ∧
      ∃ encoded, EncodedPayload.encode format kept = .ok encoded) :
    ∃ slot : Option EncodedPayload, (∀ encoded ∈ slot, encoded.format = format) ∧
      carrying { purchase with format := format } data =
        .ok { purchase with format := format, payload := slot } ∧
      decodedPayload { purchase with format := format, payload := slot } = .ok data := by
  cases data with
  | none =>
      refine ⟨none, nofun, ?_, rfl⟩
      rw [carrying, ← hbare.payload]
  | some kept =>
      obtain ⟨hwell, hfits, encoded, hencode⟩ := hdata kept rfl
      have hkept := withPayload_of_encode { purchase with format := format } hencode
      refine ⟨some encoded, ?_, hkept, ?_⟩
      · rintro other ⟨⟩
        exact EncodedPayload.format_of_encode hencode
      · have hdecoded := decodedPayload_of_payload { purchase with format := format } encoded
        rw [EncodedPayload.decode_of_fits hencode hwell hfits] at hdecoded
        exact hdecoded

/-- **A document means the same however it arrives.**  Either all four records are refused with the
same fault, or all four are the same pending purchase with the same data, each in the encoding
of the side on which it arrived. -/
theorem ofRecord_arrival (hdecode : Payload.decode .text bytes = .ok payload)
    (hencode : EncodedPayload.encode .binary payload = .ok (.binary document))
    (hshort : document.length < twoTo 31) :
    (∃ fault, ∀ arrival : Arrival,
        ofRecord (arrival.record payload document) arrival.format =
          .error (.codec arrival.format (arrival.record payload document).length
            (.notTransaction fault))) ∨
      ∃ (purchase : Transaction) (data : Option Payload), purchase.Bare ∧ ∀ arrival : Arrival,
        ∃ slot : Option EncodedPayload, (∀ encoded ∈ slot, encoded.format = arrival.format) ∧
          ofRecord (arrival.record payload document) arrival.format =
            .ok { purchase with format := arrival.format, payload := slot } ∧
          decodedPayload { purchase with format := arrival.format, payload := slot } = .ok data := by
  have hwell := Payload.wellFormed_of_decode hdecode
  have hread (arrival : Arrival) : ofRecord (arrival.record payload document) arrival.format =
      ofDocument payload arrival.format (arrival.record payload document).length := by
    rw [ofRecord, Payload.decode_arrival hdecode hencode hshort arrival]
    rfl
  rcases ofDocument_cases hwell.1 with ⟨fault, hfault⟩ | ⟨purchase, hbare, hpurchase⟩
  · refine .inl ⟨fault, fun arrival => ?_⟩
    rw [hread, hfault]
  · refine .inr ⟨purchase, payload.data?, hbare, fun arrival => ?_⟩
    rw [hread, hpurchase]
    refine exists_of_carrying hbare fun data hdata => ?_
    exact ⟨wellFormed_of_data? hwell data hdata,
      exists_encode_data? hdecode hencode hshort hdata arrival.format⟩

/-- A purchase with data, a field that is null and one that nobody asks for. -/
def purchaseText : Bytes :=
  Text.encode ("\x7b\"note\":[],\"customerId\":1,\"productCode\":\"P1\",\"quantity\":2," ++
    "\"id\":null,\"data\":\x7b\"größe\":[-9223372036854775808,-0.0,null]\x7d\x7d")

theorem ofRecord_arrival_purchaseText :
    ∃ (payload : Payload) (document : Bytes) (purchase : Transaction) (data : Option Payload),
      Payload.decode .text purchaseText = .ok payload ∧
      EncodedPayload.encode .binary payload = .ok (.binary document) ∧
      document.length < twoTo 31 ∧ purchase.Bare ∧ purchase.quantity = 2 ∧
      ∀ arrival : Arrival, ∃ slot : Option EncodedPayload,
        (∀ encoded ∈ slot, encoded.format = arrival.format) ∧
          ofRecord (arrival.record payload document) arrival.format =
            .ok { purchase with format := arrival.format, payload := slot } ∧
          decodedPayload { purchase with format := arrival.format, payload := slot } =
            .ok data := by
  have hknown : (Payload.ofJsonBytes? purchaseText).map (fun payload =>
      ((BinaryDocument.encode? payload).map List.length,
        (ofRecord (Text.encode payload.text) .text).toOption.map quantity)) =
        some (some 128, some 2) := by
    decide +kernel
  obtain ⟨payload, hread, hknown⟩ := Option.map_eq_some_iff.mp hknown
  rw [Prod.mk.injEq] at hknown
  obtain ⟨document, hdocument, hlength⟩ := Option.map_eq_some_iff.mp hknown.1
  have hdecode := Payload.decode_text_eq_ok_iff.mpr hread
  have hencode := Payload.encode_of_encode? hdocument
  have hshort : document.length < twoTo 31 := by
    rw [hlength]
    decide
  have harrival := ofRecord_arrival hdecode hencode hshort
  rcases harrival with ⟨fault, hfault⟩ | ⟨purchase, data, hbare, hread⟩
  · have hrefused := hknown.2
    rw [show ofRecord (Text.encode payload.text) .text = _ from hfault .text] at hrefused
    cases hrefused
  · obtain ⟨slot, -, htext, -⟩ := hread .text
    have hquantity := hknown.2
    rw [show ofRecord (Text.encode payload.text) .text = _ from htext] at hquantity
    exact ⟨payload, document, purchase, data, hdecode, hencode, hshort, hbare,
      Option.some.inj hquantity, hread⟩

end Transaction

end Clearing
