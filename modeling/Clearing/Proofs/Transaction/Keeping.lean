import Clearing.Proofs.Payload.Storage
import Clearing.Proofs.Transaction.Document

/-!
# The payload of a transaction can be read back

A transaction keeps its payload encoded and decodes it when it is asked.  What it was given
it `GivesBack` exactly if the payload fits the encoding, and refuses it otherwise.  This
holds however the payload came in: with the transaction or put into it later, by a change of
the encoding, or in a record.  A record in text brings nothing that does not fit; a change from
binary to text may, because binary documents can be nested deeper than text can be read.
-/

namespace Clearing.Transaction

variable {transaction result : Transaction} {format : WireFormat}

/-- The data are given back exactly if they fit, and are refused as a whole if they do not. -/
structure GivesBack (transaction : Transaction) (data : Option Payload) : Prop where
  ok_iff : transaction.decodedPayload = .ok data ↔
    ∀ payload ∈ data, payload.Fits transaction.format
  refused : (∃ payload ∈ data, ¬payload.Fits transaction.format) →
    ∃ length, transaction.decodedPayload = .error (.codec transaction.format length .malformed)

/-! ## Ways to keep a payload -/

theorem eq_of_withPayload {payload : Payload}
    (hresult : transaction.withPayload payload = .ok result) :
    ∃ encoded, EncodedPayload.encode transaction.format payload = .ok encoded ∧
      result = { transaction with payload := some encoded } := by
  obtain ⟨encoded, hencode, hsame⟩ := exists_of_bind_ok hresult
  cases hsame
  exact ⟨encoded, hencode, rfl⟩

theorem withPayload_of_encode (transaction : Transaction) {payload : Payload}
    {encoded : EncodedPayload}
    (hencode : EncodedPayload.encode transaction.format payload = .ok encoded) :
    transaction.withPayload payload = .ok { transaction with payload := some encoded } := by
  rw [withPayload, hencode]
  rfl

theorem decodedPayload_of_payload (transaction : Transaction) (encoded : EncodedPayload) :
    decodedPayload { transaction with payload := some encoded } = encoded.decode.map some := rfl

theorem format_of_withPayload {payload : Payload}
    (hresult : transaction.withPayload payload = .ok result) :
    result.format = transaction.format := by
  obtain ⟨encoded, -, rfl⟩ := eq_of_withPayload hresult
  rfl

theorem givesBack_of_withPayload {payload : Payload} (hwell : (Value.object payload).WellFormed)
    (hresult : transaction.withPayload payload = .ok result) : result.GivesBack (some payload) := by
  obtain ⟨encoded, hencode, rfl⟩ := eq_of_withPayload hresult
  have hdecoded := decodedPayload_of_payload transaction encoded
  by_cases hfits : payload.Fits transaction.format
  · have hread := EncodedPayload.decode_of_fits hencode hwell hfits
    constructor
    · rw [hdecoded, hread]
      simp [hfits, Except.map]
    · rintro ⟨other, ⟨⟩, hother⟩
      exact absurd hfits hother
  · have hread := EncodedPayload.decode_of_not_fits hencode hwell hfits
    constructor
    · rw [hdecoded, hread]
      simp [hfits, Except.map]
    · intro _
      refine ⟨encoded.bytes.length, ?_⟩
      rw [hdecoded, hread]
      rfl

theorem run_setPayload (transaction : Transaction) (payload : Payload) :
    (setPayload payload).run.run transaction =
      match EncodedPayload.encode transaction.format payload with
      | .ok encoded => (.ok (), { transaction with payload := some encoded })
      | .error failure => (.error failure, transaction) := by
  change (ExceptT.run (m := StateM Transaction) do
    let encoded ← liftM (EncodedPayload.encode transaction.format payload)
    set { transaction with payload := some encoded }).run transaction = _
  cases EncodedPayload.encode transaction.format payload <;> rfl

/-- The transaction has the payload then, or there is a failure and it is as it was. -/
theorem setPayload_cases {payload : Payload} {outcome : Except Failure Unit} {later : Transaction}
    (hset : (setPayload payload).run.run transaction = (outcome, later)) :
    (outcome = .ok () ∧ transaction.withPayload payload = .ok later) ∨
      ∃ failure, outcome = .error failure ∧ transaction.withPayload payload = .error failure ∧
        later = transaction := by
  rw [run_setPayload] at hset
  cases hencode : EncodedPayload.encode transaction.format payload with
  | ok encoded =>
      rw [hencode] at hset
      obtain ⟨rfl, rfl⟩ := Prod.mk.inj hset
      exact .inl ⟨rfl, withPayload_of_encode transaction hencode⟩
  | error failure =>
      rw [hencode] at hset
      obtain ⟨rfl, rfl⟩ := Prod.mk.inj hset
      refine .inr ⟨failure, rfl, ?_, rfl⟩
      rw [withPayload, hencode]
      rfl

theorem givesBack_none (hpayload : transaction.payload = none) : transaction.GivesBack none := by
  have hdecoded : transaction.decodedPayload = .ok none := by
    rw [decodedPayload, hpayload]
  refine ⟨iff_of_true hdecoded nofun, ?_⟩
  rintro ⟨payload, ⟨⟩, -⟩

theorem givesBack_of_carrying {data : Option Payload}
    (hwell : ∀ payload ∈ data, (Value.object payload).WellFormed)
    (hpayload : transaction.payload = none) (hresult : transaction.carrying data = .ok result) :
    result.GivesBack data := by
  cases data with
  | none =>
      cases hresult
      exact givesBack_none hpayload
  | some payload => exact givesBack_of_withPayload (hwell payload rfl) hresult

theorem format_of_carrying {data : Option Payload}
    (hresult : transaction.carrying data = .ok result) : result.format = transaction.format := by
  cases data with
  | none =>
      cases hresult
      rfl
  | some payload => exact format_of_withPayload hresult

/-- What was read was not there, or was decoded. -/
theorem decodedPayload_cases {data : Option Payload}
    (hdecoded : transaction.decodedPayload = .ok data) :
    (transaction.payload = none ∧ data = none) ∨
      ∃ encoded payload, transaction.payload = some encoded ∧ encoded.decode = .ok payload ∧
        data = some payload := by
  rw [decodedPayload] at hdecoded
  cases hslot : transaction.payload with
  | none =>
      rw [hslot] at hdecoded
      cases hdecoded
      exact .inl ⟨rfl, rfl⟩
  | some encoded =>
      rw [hslot] at hdecoded
      obtain ⟨payload, hread, hsame⟩ := exists_of_map_ok hdecoded
      exact .inr ⟨encoded, payload, rfl, hread, hsame.symm⟩

theorem wellFormed_of_decodedPayload {payload : Payload}
    (hdecoded : transaction.decodedPayload = .ok (some payload)) :
    (Value.object payload).WellFormed := by
  rcases decodedPayload_cases hdecoded with ⟨-, hnone⟩ | ⟨encoded, read, -, hread, hsame⟩
  · cases hnone
  · cases hsame
    exact Payload.wellFormed_of_decode hread

theorem withFormat_of_decodedPayload {payload : Payload} (hformat : transaction.format ≠ format)
    (hdecoded : transaction.decodedPayload = .ok (some payload)) :
    transaction.withFormat format = withPayload { transaction with format := format } payload := by
  rw [withFormat, if_neg hformat, hdecoded]
  rfl

/-- To change the encoding takes a payload that can be read, and keeps it in the other one. -/
theorem givesBack_of_withFormat (hformat : transaction.format ≠ format)
    (hresult : transaction.withFormat format = .ok result) :
    result.format = format ∧
      ∃ data, transaction.decodedPayload = .ok data ∧ result.GivesBack data := by
  rw [withFormat, if_neg hformat] at hresult
  obtain ⟨data, hdecoded, hkept⟩ := exists_of_bind_ok hresult
  cases data with
  | none =>
      cases hkept
      rcases decodedPayload_cases hdecoded with ⟨hslot, -⟩ | ⟨_, _, -, -, hsome⟩
      · exact ⟨rfl, none, hdecoded, givesBack_none hslot⟩
      · cases hsome
  | some payload =>
      exact ⟨format_of_withPayload hkept, some payload, hdecoded,
        givesBack_of_withPayload (wellFormed_of_decodedPayload hdecoded) hkept⟩

theorem wellFormed_of_data? {document : Payload} (hwell : (Value.object document).WellFormed) :
    ∀ payload ∈ document.data?, (Value.object payload).WellFormed := by
  intro payload hpayload
  exact Value.wellFormedMembers_iff.mp hwell.2 _ (Payload.mem_of_data? hpayload)

theorem givesBack_of_ofDocument {document : Payload} {length : Nat}
    (hwell : (Value.object document).WellFormed)
    (hresult : ofDocument document format length = .ok result) :
    result.format = format ∧ result.GivesBack document.data? := by
  rcases ofDocument_cases hwell.1 with ⟨fault, hfault⟩ | ⟨purchase, hbare, hpurchase⟩
  · rw [hfault] at hresult
    cases hresult
  · rw [hpurchase] at hresult
    have hpayload : ({ purchase with format := format } : Transaction).payload = none :=
      hbare.payload
    exact ⟨format_of_carrying hresult,
      givesBack_of_carrying (wellFormed_of_data? hwell) hpayload hresult⟩

/-- A text is nested one container deeper than its data, so they fit. -/
theorem fits_data?_of_text {bytes : Bytes} {document : Payload}
    (hdecode : Payload.decode .text bytes = .ok document) :
    ∀ payload ∈ document.data?, payload.Fits .text := by
  intro payload hpayload
  have hwithin := Payload.within_of_ofJsonBytes? (Payload.decode_text_eq_ok_iff.mp hdecode)
  have hmembers : Value.depthOfMembers document ≤ 126 := Nat.le_of_succ_le_succ hwithin.depth_le
  have hdata : (Value.object payload).depth ≤ 126 :=
    Value.depthOfMembers_le_iff.mp hmembers _ (Payload.mem_of_data? hpayload)
  exact Nat.le_succ_of_le hdata

/-! ## The law -/

/-- **A payload is given back exactly if it fits the encoding**, whether it was put into a
transaction, kept through a change of the encoding, or came in a document or a record; and what
came in a text record always fits. -/
theorem givesBack_of_kept (transaction result : Transaction) (format : WireFormat) :
    (∀ payload : Payload, (Value.object payload).WellFormed →
        transaction.withPayload payload = .ok result →
        result.format = transaction.format ∧ result.GivesBack (some payload)) ∧
      (∀ payload : Payload, (Value.object payload).WellFormed →
        (setPayload payload).run.run transaction = (.ok (), result) →
        result.format = transaction.format ∧ result.GivesBack (some payload)) ∧
      (transaction.withFormat format = .ok result →
        result = transaction ∨ result.format = format ∧
          ∃ data, transaction.decodedPayload = .ok data ∧ result.GivesBack data) ∧
      (∀ (document : Payload) (length : Nat), (Value.object document).WellFormed →
        ofDocument document format length = .ok result →
        result.format = format ∧ result.GivesBack document.data?) ∧
      ∀ bytes : Bytes, ofRecord bytes format = .ok result →
        ∃ document, Payload.decode format bytes = .ok document ∧ result.format = format ∧
          result.GivesBack document.data? ∧
          (format = .text → result.decodedPayload = .ok document.data?) := by
  have hgiven (payload : Payload) (hwell : (Value.object payload).WellFormed)
      (hresult : transaction.withPayload payload = .ok result) :
      result.format = transaction.format ∧ result.GivesBack (some payload) :=
    ⟨format_of_withPayload hresult, givesBack_of_withPayload hwell hresult⟩
  refine ⟨hgiven, ?_, ?_, ?_, ?_⟩
  · intro payload hwell hset
    rcases setPayload_cases hset with ⟨-, hresult⟩ | ⟨failure, hfailed, -⟩
    · exact hgiven payload hwell hresult
    · cases hfailed
  · intro hresult
    by_cases hformat : transaction.format = format
    · rw [withFormat, if_pos hformat] at hresult
      cases hresult
      exact .inl rfl
    · exact .inr (givesBack_of_withFormat hformat hresult)
  · intro document length hwell hresult
    exact givesBack_of_ofDocument hwell hresult
  · intro bytes hresult
    obtain ⟨document, hdecode, hdocument⟩ := exists_of_bind_ok hresult
    obtain ⟨hformat, hback⟩ :=
      givesBack_of_ofDocument (Payload.wellFormed_of_decode hdecode) hdocument
    refine ⟨document, hdecode, hformat, hback, ?_⟩
    rintro rfl
    rw [hback.ok_iff, hformat]
    exact fits_data?_of_text hdecode

/-! ## At the bound -/

/-- Arrays inside one another. -/
def nestedArrays : Nat → Value
  | 0 => .array []
  | count + 1 => .array [nestedArrays count]

theorem depth_nestedArrays (count : Nat) : (nestedArrays count).depth = count + 1 := by
  induction count with
  | zero => rfl
  | succ count ih =>
      rw [nestedArrays, Value.depth, Value.depthOfItems, ih]
      rfl

theorem wellFormed_nestedArrays (count : Nat) : (nestedArrays count).WellFormed := by
  induction count with
  | zero => trivial
  | succ count ih => exact ⟨ih, trivial⟩

/-- A payload with one container more than arrays. -/
def nestedPayload (count : Nat) : Payload :=
  [("a", nestedArrays count)]

theorem depth_nestedPayload (count : Nat) :
    (Value.object (nestedPayload count)).depth = count + 2 := by
  rw [nestedPayload, Value.depth, Value.depthOfMembers, depth_nestedArrays]
  rfl

theorem wellFormed_nestedPayload (count : Nat) :
    (Value.object (nestedPayload count)).WellFormed :=
  ⟨List.nodup_singleton _, wellFormed_nestedArrays count, trivial⟩

theorem exists_encodeValue?_nestedArrays (count : Nat) :
    ∃ body, BinaryDocument.encodeValue? (nestedArrays count) = some (0x04, body) ∧
      body.length = 8 * count + 5 := by
  induction count with
  | zero => exact ⟨_, rfl, rfl⟩
  | succ count ih =>
      obtain ⟨body, hencode, hlength⟩ := ih
      refine ⟨BinaryDocument.frame (BinaryDocument.elementBytes 0x04 (BinaryDocument.indexName 0)
        body ++ []), ?_, ?_⟩
      · rw [nestedArrays, BinaryDocument.encodeValue?, BinaryDocument.encodeItems?, hencode]
        rfl
      · have hname : (BinaryDocument.indexName 0).length = 1 := by decide +kernel
        rw [BinaryDocument.length_frame, BinaryDocument.length_elementBytes_append, hlength, hname,
          List.length_nil]
        omega

theorem exists_encode?_nestedPayload (count : Nat) :
    ∃ document, BinaryDocument.encode? (nestedPayload count) = some document ∧
      document.length = 8 * count + 13 := by
  obtain ⟨body, hencode, hlength⟩ := exists_encodeValue?_nestedArrays count
  refine ⟨BinaryDocument.frame (BinaryDocument.elementBytes 0x04 (Text.encode "a") body ++ []),
    ?_, ?_⟩
  · have hname : (Text.encode "a").contains 0 = false := by decide +kernel
    rw [nestedPayload, BinaryDocument.encode?, BinaryDocument.encodeMembers?, hencode]
    simp only [hname]
    rfl
  · have hname : (Text.encode "a").length = 1 := by decide +kernel
    rw [BinaryDocument.length_frame, BinaryDocument.length_elementBytes_append, hlength, hname,
      List.length_nil]
    omega

/-- The deepest payload that text can hold is still given back when it is kept as text. -/
theorem givesBack_deepestText :
    ∃ result, (new 1 "P1" 2 .text).withPayload (nestedPayload 125) = .ok result ∧
      (Value.object (nestedPayload 125)).WellFormed ∧
      result.decodedPayload = .ok (some (nestedPayload 125)) := by
  have hwell := wellFormed_nestedPayload 125
  have hencode : EncodedPayload.encode (new 1 "P1" 2 .text).format (nestedPayload 125) =
      .ok (.text (nestedPayload 125).text) := rfl
  have hresult := withPayload_of_encode (new 1 "P1" 2 .text) hencode
  obtain ⟨hformat, hback⟩ := (givesBack_of_kept _ _ .text).1 _ hwell hresult
  refine ⟨_, hresult, hwell, ?_⟩
  rw [hback.ok_iff, hformat]
  rintro payload ⟨⟩
  exact Nat.le_of_eq (depth_nestedPayload 125)

/-- One container more is given back from a binary document.  It is lost when the encoding is
changed to text, or when text was chosen from the beginning. -/
theorem not_decodedPayload_of_deepPayload :
    ∃ binary text changed,
      (new 1 "P1" 2 .binary).withPayload (nestedPayload 126) = .ok binary ∧
      binary.decodedPayload = .ok (some (nestedPayload 126)) ∧
      binary.withFormat .text = .ok changed ∧
      changed.decodedPayload = .error (.codec .text 260 .malformed) ∧
      (new 1 "P1" 2 .text).withPayload (nestedPayload 126) = .ok text ∧
      text.decodedPayload = .error (.codec .text 260 .malformed) := by
  have hwell := wellFormed_nestedPayload 126
  -- the binary document is short enough
  obtain ⟨document, hdocument, hlength⟩ := exists_encode?_nestedPayload 126
  have hshort : document.length < twoTo 31 := by
    rw [hlength]
    decide
  have hbinary := Payload.encode_of_encode? hdocument
  have hread := EncodedPayload.decode_of_fits hbinary hwell
    ((Payload.fits_binary_iff hdocument).mpr hshort)
  -- the text is one container too deep
  have htext : EncodedPayload.encode .text (nestedPayload 126) =
      .ok (.text (nestedPayload 126).text) := rfl
  have hsize : (EncodedPayload.text (nestedPayload 126).text).bytes.length = 260 := by
    decide +kernel
  have hdeep : ¬(nestedPayload 126).Fits .text := by
    show ¬(Value.object (nestedPayload 126)).depth ≤ Value.maxDepth
    rw [depth_nestedPayload]
    decide
  have hrefused := EncodedPayload.decode_of_not_fits htext hwell hdeep
  rw [hsize] at hrefused
  have hback : decodedPayload { new 1 "P1" 2 .binary with payload := some (.binary document) } =
      .ok (some (nestedPayload 126)) := by
    rw [decodedPayload_of_payload, hread]
    rfl
  have hother : WireFormat.binary ≠ .text := by decide
  have hkept := withPayload_of_encode
    { new 1 "P1" 2 .text with payload := some (.binary document) } htext
  have hchanged := (withFormat_of_decodedPayload hother hback).trans hkept
  refine ⟨_, _, _, withPayload_of_encode (new 1 "P1" 2 .binary) hbinary, hback, hchanged, ?_,
    withPayload_of_encode (new 1 "P1" 2 .text) htext, ?_⟩
  · rw [decodedPayload_of_payload, hrefused]
    rfl
  · rw [decodedPayload_of_payload, hrefused]
    rfl

end Clearing.Transaction
