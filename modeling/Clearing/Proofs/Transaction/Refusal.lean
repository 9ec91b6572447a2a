import Clearing.Proofs.Payload.Writing
import Clearing.Proofs.Transaction.Arrival

/-!
# What a refused record is told

A record is answered in full if it is a pending transaction of the side on which it arrived,
or if the failure tells this side and how many bytes the record has
(`Transaction.AnsweredInFull`).  This goes for every record but one kind
(`answeredInFull_iff`): text of an older sender on the binary side, with data that have no
binary form.  What is read of a binary document always has one, so text is the only way for
such data to arrive there.

For that kind the failure comes from the writer of the data, which does not know the record:
it tells zero bytes.
-/

namespace Clearing

namespace Payload

variable {format : WireFormat} {bytes : Bytes} {payload : Payload}

theorem codecFailure_cases {α : Type} (format : WireFormat) (length : Nat)
    (outcome : Except CodecCause α) :
    (∃ value, codecFailure format length outcome = .ok value) ∨
      ∃ cause, codecFailure format length outcome = .error (.codec format length cause) := by
  cases outcome with
  | ok value => exact .inl ⟨value, rfl⟩
  | error cause => exact .inr ⟨cause, rfl⟩

/-- A record that holds no document is told its size. -/
theorem decode_cases (format : WireFormat) (bytes : Bytes) :
    (∃ payload, decode format bytes = .ok payload) ∨
      ∃ cause, decode format bytes = .error (.codec format bytes.length cause) :=
  codecFailure_cases format bytes.length _

theorem ne_nil_of_decode_text (hdecode : decode .text bytes = .ok payload) : bytes ≠ [] := by
  rintro rfl
  cases hdecode

/-- The text in a binary record is read before a document is looked for. -/
theorem decode_binary_of_text {text : Bytes} (hunwrap : Envelope.unwrap bytes = .ok text)
    (htext : decode .text text = .ok payload) : decode .binary bytes = .ok payload := by
  have hne : bytes ≠ [] := by
    rintro rfl
    cases hunwrap
    exact ne_nil_of_decode_text htext rfl
  rw [decode, decodeWith_binary_of_ne_nil hne hunwrap, codecFailure_eq_ok_iff]
  exact ofDocument_textFirst_of_json (decode_text_eq_ok_iff.mp htext)

/-- A binary record holds text, or a document with a binary form. -/
theorem decode_binary_cases (hdecode : decode .binary bytes = .ok payload) :
    (∃ text, Envelope.unwrap bytes = .ok text ∧ decode .text text = .ok payload) ∨
      (Value.object payload).Writable := by
  rcases decodeWith_binary_cases bytes with ⟨document, hunwrap, hread⟩ | ⟨failure, hrefused⟩
  · rw [decode, hread, codecFailure_eq_ok_iff] at hdecode
    cases hjson : ofJsonBytes? document with
    | none =>
        rw [ofDocument_textFirst_of_no_json hjson, ofDocument_binaryOnly_eq_ok_iff] at hdecode
        exact .inr (BinaryDocument.writable_of_decode? hdecode)
    | some other =>
        rw [ofDocument_textFirst_of_json hjson] at hdecode
        cases hdecode
        exact .inl ⟨document, hunwrap, decode_text_eq_ok_iff.mpr hjson⟩
  · rw [decode, hrefused] at hdecode
    cases hdecode

/-- The data in a document with a binary form have one as well. -/
theorem writable_data? {data : Payload} (hpayload : (Value.object payload).Writable)
    (hdata : payload.data? = some data) : (Value.object data).Writable :=
  (Value.writableMembers_iff.mp hpayload _ (mem_of_data? hdata)).2

end Payload

namespace Transaction

variable {format : WireFormat} {bytes : Bytes} {payload data : Payload} {purchase : Transaction}

/-- Data without a binary form are refused by the writer, which tells zero bytes. -/
theorem withPayload_of_not_writable (hdata : ¬(Value.object data).Writable) :
    withPayload { purchase with format := .binary } data =
      .error (.codec .binary 0 .malformed) := by
  have hnone : BinaryDocument.encode? data = none := by
    rw [← BinaryDocument.isSome_encode?_iff, Bool.not_eq_true, Option.isSome_eq_false_iff,
      Option.isNone_iff_eq_none] at hdata
    exact hdata
  simp only [withPayload, EncodedPayload.encode, hnone]
  rfl

/-- Data that the encoding has room for are kept. -/
theorem exists_withPayload (purchase : Transaction)
    (hdata : format = .binary → (Value.object data).Writable) :
    ∃ encoded, withPayload { purchase with format := format } data =
      .ok { purchase with format := format, payload := some encoded } := by
  cases format with
  | text => exact ⟨.text data.text, rfl⟩
  | binary =>
      obtain ⟨document, hdocument⟩ :=
        Option.isSome_iff_exists.mp ((BinaryDocument.isSome_encode?_iff data).mpr (hdata rfl))
      exact ⟨.binary document, withPayload_of_encode { purchase with format := .binary }
        (Payload.encode_of_encode? hdocument)⟩

/-- The record is a pending transaction of its side, or the failure tells its side and its
size. -/
def AnsweredInFull (bytes : Bytes) (format : WireFormat) : Prop :=
  (∃ transaction, ofRecord bytes format = .ok transaction ∧
      transaction.status = .pending ∧ transaction.format = format) ∨
    ∃ cause, ofRecord bytes format = .error (.codec format bytes.length cause)

/-- The record, taken out of its envelope if it has one, is text that describes a purchase with
data which have no binary form. -/
def CarriesUnwritable (bytes : Bytes) : Prop :=
  ∃ text purchase data, Envelope.unwrap bytes = .ok text ∧ ofRecord text .text = .ok purchase ∧
    purchase.decodedPayload = .ok (some data) ∧ ¬(Value.object data).Writable

theorem ofRecord_of_decode (hdecode : Payload.decode format bytes = .ok payload) :
    ofRecord bytes format = ofDocument payload format bytes.length := by
  rw [ofRecord, hdecode]
  rfl

/-- The data of a purchase that came as text are the data in the text. -/
theorem exists_ofRecord_text (hdecode : Payload.decode .text bytes = .ok payload)
    (hbare : purchase.Bare) (hpurchase : ∀ format length, ofDocument payload format length =
      carrying { purchase with format := format } payload.data?) :
    ∃ kept, ofRecord bytes .text = .ok kept ∧ kept.decodedPayload = .ok payload.data? := by
  have hwell := Payload.wellFormed_of_decode hdecode
  have hdata : ∀ kept ∈ payload.data?, (Value.object kept).WellFormed ∧ kept.Fits .text ∧
      ∃ encoded, EncodedPayload.encode .text kept = .ok encoded := fun kept hkept =>
    ⟨wellFormed_of_data? hwell kept hkept, fits_data?_of_text hdecode kept hkept, _, rfl⟩
  obtain ⟨slot, -, hcarrying, hdecoded⟩ := exists_of_carrying hbare hdata
  refine ⟨_, ?_, hdecoded⟩
  rw [ofRecord_of_decode hdecode, hpurchase, hcarrying]

/-- **A record that carries data without a binary form to the binary side is told zero bytes.** -/
theorem ofRecord_of_carriesUnwritable (hcarries : CarriesUnwritable bytes) :
    ofRecord bytes .binary = .error (.codec .binary 0 .malformed) := by
  obtain ⟨text, kept, data, hunwrap, hrecord, hdecoded, hdata⟩ := hcarries
  obtain ⟨payload, htext, -⟩ := exists_of_bind_ok hrecord
  have hbinary := Payload.decode_binary_of_text hunwrap htext
  rcases ofDocument_cases (Payload.wellFormed_of_decode htext).1 with
    ⟨fault, hfault⟩ | ⟨purchase, hbare, hpurchase⟩
  · rw [ofRecord_of_decode htext, hfault] at hrecord
    cases hrecord
  · obtain ⟨other, hother, hsame⟩ := exists_ofRecord_text htext hbare hpurchase
    rw [hrecord] at hother
    cases hother
    rw [hdecoded, Except.ok.injEq] at hsame
    rw [ofRecord_of_decode hbinary, hpurchase, ← hsame]
    exact withPayload_of_not_writable hdata

/-- Nothing of the kind is empty. -/
theorem CarriesUnwritable.ne_nil (hcarries : CarriesUnwritable bytes) : bytes ≠ [] := by
  rintro rfl
  have hrefused := ofRecord_of_carriesUnwritable hcarries
  cases hrefused

theorem not_answeredInFull_of_carriesUnwritable (hcarries : CarriesUnwritable bytes) :
    ¬AnsweredInFull bytes .binary := by
  have hrefused := ofRecord_of_carriesUnwritable hcarries
  rintro (⟨transaction, hrecord, -⟩ | ⟨cause, hrecord⟩)
  · rw [hrefused] at hrecord
    cases hrecord
  · rw [hrefused, Except.error.injEq, Failure.codec.injEq] at hrecord
    exact hcarries.ne_nil (List.length_eq_zero_iff.mp hrecord.2.1.symm)

/-- Whatever the binary side has room for is answered in full. -/
theorem answeredInFull_of_writable (hdecode : Payload.decode format bytes = .ok payload)
    (hbare : purchase.Bare) (hpurchase : ∀ format length, ofDocument payload format length =
      carrying { purchase with format := format } payload.data?)
    (hdata : ∀ data, payload.data? = some data → format = .binary →
      (Value.object data).Writable) :
    AnsweredInFull bytes format := by
  refine .inl ?_
  rw [ofRecord_of_decode hdecode, hpurchase]
  cases hkept : payload.data? with
  | none => exact ⟨_, rfl, hbare.status, rfl⟩
  | some data =>
      obtain ⟨encoded, hencoded⟩ := exists_withPayload purchase (hdata data hkept)
      exact ⟨_, hencoded, hbare.status, rfl⟩

/-- **Every record is answered in full, but for text on the binary side which carries data that have
no binary form: that is refused with a size of zero.** -/
theorem answeredInFull_iff (bytes : Bytes) (format : WireFormat) :
    (AnsweredInFull bytes format ↔ ¬(format = .binary ∧ CarriesUnwritable bytes)) ∧
      (¬AnsweredInFull bytes format →
        ofRecord bytes format = .error (.codec format 0 .malformed)) := by
  have hanswered (hcarries : ¬(format = .binary ∧ CarriesUnwritable bytes)) :
      AnsweredInFull bytes format := by
    rcases Payload.decode_cases format bytes with ⟨payload, hdecode⟩ | ⟨cause, hrefused⟩
    · rcases ofDocument_cases (Payload.wellFormed_of_decode hdecode).1 with
        ⟨fault, hfault⟩ | ⟨purchase, hbare, hpurchase⟩
      · refine .inr ⟨.notTransaction fault, ?_⟩
        rw [ofRecord_of_decode hdecode, hfault]
      · refine answeredInFull_of_writable hdecode hbare hpurchase ?_
        rintro data hdata rfl
        rcases Payload.decode_binary_cases hdecode with ⟨text, hunwrap, htext⟩ | hwritable
        · by_contra hunwritable
          obtain ⟨kept, hkept, hdecoded⟩ := exists_ofRecord_text htext hbare hpurchase
          rw [hdata] at hdecoded
          exact hcarries ⟨rfl, text, kept, data, hunwrap, hkept, hdecoded, hunwritable⟩
        · exact Payload.writable_data? hwritable hdata
    · refine .inr ⟨cause, ?_⟩
      rw [ofRecord, hrefused]
      rfl
  constructor
  · refine ⟨?_, hanswered⟩
    rintro hfull ⟨rfl, hcarries⟩
    exact not_answeredInFull_of_carriesUnwritable hcarries hfull
  · intro hnot
    obtain ⟨rfl, hcarries⟩ := not_imp_comm.mp hanswered hnot
    exact ofRecord_of_carriesUnwritable hcarries

/-- The data hold the largest integer of 64 bits. -/
def unsignedText : Bytes :=
  Text.encode ("\x7b\"customerId\":1,\"productCode\":\"P1\",\"quantity\":1," ++
    "\"data\":\x7b\"n\":18446744073709551615\x7d\x7d")

theorem not_answeredInFull_of_unsignedText :
    ¬∀ bytes format, AnsweredInFull bytes format := by
  intro hall
  have hrefused : ofRecord unsignedText .binary = .error (.codec .binary 0 .malformed) := by
    decide +kernel
  have hlength : unsignedText.length = 82 := by decide
  rcases hall unsignedText .binary with ⟨transaction, hrecord, -⟩ | ⟨cause, hrecord⟩
  · rw [hrefused] at hrecord
    cases hrecord
  · rw [hrefused, hlength] at hrecord
    cases hrecord

end Transaction

end Clearing
