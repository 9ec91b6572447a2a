import Clearing.Proofs.Payload.Shape
import Clearing.Proofs.Payload.Sniffing
import Clearing.Proofs.Payload.Text

/-!
# Records of older senders

Under the policy `textFirst` JSON text is looked for before a binary document is.  It is
never found where a document is: a document ends with a zero byte, and no JSON text has one
(`ofJsonBytes?_of_document`).  So the policy only ever adds records that would be refused
without it, and what they hold is what the text holds.
-/

namespace Clearing

namespace Payload

/-- **No bytes are both a binary document and JSON text.** -/
theorem ofJsonBytes?_of_document {bytes : Bytes} {payload : Payload}
    (hdocument : BinaryDocument.decode? bytes = some payload) : ofJsonBytes? bytes = none :=
  ofJsonBytes?_of_zero (BinaryDocument.zero_mem_of_decode? hdocument)

theorem ofDocument_binaryOnly_eq_ok_iff {document : Bytes} {payload : Payload} :
    ofDocument .binaryOnly document = .ok payload ↔
      BinaryDocument.decode? document = some payload := by
  have hpolicy : ¬LegacyPolicy.binaryOnly = .textFirst := by decide
  simp only [ofDocument, if_neg hpolicy]
  cases BinaryDocument.decode? document with
  | none =>
      refine iff_of_false ?_ ?_ <;> intro hsame <;> cases hsame
  | some other =>
      refine ⟨fun hsame => ?_, fun hsame => ?_⟩ <;> cases hsame <;> rfl

theorem ofDocument_textFirst_of_json {document : Bytes} {payload : Payload}
    (hjson : ofJsonBytes? document = some payload) :
    ofDocument .textFirst document = .ok payload := by
  simp only [ofDocument, if_true, hjson]

/-- Where there is no JSON text the policies agree. -/
theorem ofDocument_textFirst_of_no_json {document : Bytes} (hjson : ofJsonBytes? document = none) :
    ofDocument .textFirst document = ofDocument .binaryOnly document := by
  simp only [ofDocument, if_true, hjson]
  rfl

theorem codecFailure_eq_ok_iff {α : Type} {format : WireFormat} {length : Nat}
    {outcome : Except CodecCause α} {value : α} :
    codecFailure format length outcome = .ok value ↔ outcome = .ok value := by
  cases outcome with
  | ok other =>
      refine ⟨fun hsame => ?_, fun hsame => ?_⟩ <;> cases hsame <;> rfl
  | error cause => exact iff_of_false nofun nofun

/-- **The policy for older senders is conservative.**  What is a binary document for one policy is
the same document for the other.  What only `textFirst` reads is JSON text, bare or in an
envelope, and is read as the text is.  What `textFirst` refuses is refused for the same reason
without it. -/
theorem decodeWith_textFirst_conservative (bytes : Bytes) :
    (∀ payload, decodeWith .binaryOnly .binary bytes = .ok payload →
        decodeWith .textFirst .binary bytes = .ok payload) ∧
      (∀ payload failure, decodeWith .textFirst .binary bytes = .ok payload →
        decodeWith .binaryOnly .binary bytes = .error failure →
        ∃ document, Envelope.unwrap bytes = .ok document ∧ decode .text document = .ok payload) ∧
      ∀ failure, decodeWith .textFirst .binary bytes = .error failure →
        decodeWith .binaryOnly .binary bytes = .error failure := by
  rcases decodeWith_binary_cases bytes with ⟨document, hunwrap, hread⟩ | ⟨refusal, hrefused⟩
  · rw [hread .textFirst, hread .binaryOnly]
    cases hjson : ofJsonBytes? document with
    | none =>
        -- both policies go on to the document
        rw [ofDocument_textFirst_of_no_json hjson]
        refine ⟨fun payload hpayload => hpayload, ?_, fun failure hfailure => hfailure⟩
        intro payload failure hpayload hfailure
        rw [hpayload] at hfailure
        cases hfailure
    | some text =>
        have htext := ofDocument_textFirst_of_json hjson
        rw [htext]
        refine ⟨?_, ?_, nofun⟩
        · intro payload hpayload
          have hdocument := ofDocument_binaryOnly_eq_ok_iff.mp (codecFailure_eq_ok_iff.mp hpayload)
          rw [ofJsonBytes?_of_document hdocument] at hjson
          cases hjson
        · rintro payload failure ⟨⟩ -
          exact ⟨document, hunwrap, decode_text_eq_ok_iff.mpr hjson⟩
  · rw [hrefused .textFirst, hrefused .binaryOnly]
    exact ⟨nofun, nofun, fun failure hfailure => hfailure⟩

/-- JSON text in an envelope, which one policy reads and the other refuses. -/
theorem decodeWith_textFirst_legacyEnvelope :
    ∃ bytes failure, bytes = Envelope.wrap (Text.encode "\x7b\"a\":[]\x7d") ∧
      decodeWith .textFirst .binary bytes = .ok [("a", .array [])] ∧
      decodeWith .binaryOnly .binary bytes = .error failure ∧
      ∃ document, Envelope.unwrap bytes = .ok document ∧
        decode .text document = .ok [("a", .array [])] := by
  have hread : decodeWith .textFirst .binary (Envelope.wrap (Text.encode "\x7b\"a\":[]\x7d")) =
      .ok [("a", .array [])] := by
    rfl
  have hrefused : decodeWith .binaryOnly .binary
      (Envelope.wrap (Text.encode "\x7b\"a\":[]\x7d")) = .error (.codec .binary 19 .malformed) := by
    rfl
  exact ⟨_, _, rfl, hread, hrefused,
    (decodeWith_textFirst_conservative _).2.1 _ _ hread hrefused⟩

end Payload

end Clearing
