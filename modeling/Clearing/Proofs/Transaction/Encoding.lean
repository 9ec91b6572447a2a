import Clearing.Proofs.Transaction.Keeping

/-!
# One encoding

A transaction says in which encoding it came, and its payload is kept in an encoding; the two
are apart, and there are operations that change the one, the other or both.  They agree all
the same, whatever was done to a transaction (`Made.inOwnEncoding`): what it holds was encoded
in the encoding that it has now.

An operation that fails on the way leaves no trace.  A payload is encoded before the transaction
is touched (`setPayload_cases`), and a change of the encoding that fails has no result; one that
succeeds changes nothing else (`recoded_of_withFormat`).

## Strategy

`Made` has one constructor for each operation, and there is one lemma for each operation that
touches the encoding or the payload; for all others both fields are the same before and after.
-/

namespace Clearing.Transaction

variable {transaction later result : Transaction} {payload : Payload} {format : WireFormat}

/-- The payload, if there is one, was encoded in the encoding of the transaction. -/
def InOwnEncoding (transaction : Transaction) : Prop :=
  ∀ encoded ∈ transaction.payload, ∃ payload,
    EncodedPayload.encode transaction.format payload = .ok encoded

theorem InOwnEncoding.consistent (hown : transaction.InOwnEncoding) : transaction.Consistent := by
  intro encoded hencoded
  obtain ⟨payload, hencode⟩ := hown encoded hencoded
  exact EncodedPayload.format_of_encode hencode

theorem inOwnEncoding_of_none (hpayload : transaction.payload = none) :
    transaction.InOwnEncoding := by
  intro encoded hencoded
  rw [hpayload] at hencoded
  cases hencoded

/-- Only the encoding and the payload matter. -/
theorem InOwnEncoding.of_same (hown : transaction.InOwnEncoding)
    (hformat : later.format = transaction.format) (hpayload : later.payload = transaction.payload) :
    later.InOwnEncoding := by
  intro encoded hencoded
  rw [hpayload] at hencoded
  rw [hformat]
  exact hown encoded hencoded

/-! ## A payload put in -/

theorem inOwnEncoding_of_withPayload (hresult : transaction.withPayload payload = .ok result) :
    result.InOwnEncoding := by
  obtain ⟨encoded, hencode, rfl⟩ := eq_of_withPayload hresult
  rintro _ ⟨⟩
  exact ⟨payload, hencode⟩

theorem inOwnEncoding_of_setPayload {outcome : Except Failure Unit}
    (hown : transaction.InOwnEncoding)
    (hset : (setPayload payload).run.run transaction = (outcome, later)) :
    later.InOwnEncoding := by
  rcases setPayload_cases hset with ⟨-, hresult⟩ | ⟨failure, -, -, rfl⟩
  · exact inOwnEncoding_of_withPayload hresult
  · exact hown

/-! ## Another encoding -/

/-- A transaction in another encoding, and nothing else: the payload is there if it was, and it is
what was read from the old one, encoded anew.  In the same encoding nothing is done at all. -/
structure Recoded (transaction : Transaction) (format : WireFormat) (result : Transaction) :
    Prop where
  others : result = { transaction with format := format, payload := result.payload }
  present : result.payload.isSome = transaction.payload.isSome
  same : transaction.format = format → result = transaction
  anew : transaction.format ≠ format → ∀ encoded ∈ transaction.payload, ∃ payload recoded,
    encoded.decode = .ok payload ∧ EncodedPayload.encode format payload = .ok recoded ∧
      result.payload = some recoded

theorem recoded_of_withFormat (hresult : transaction.withFormat format = .ok result) :
    transaction.Recoded format result := by
  by_cases hformat : transaction.format = format
  · rw [withFormat, if_pos hformat] at hresult
    cases hresult
    subst hformat
    exact ⟨rfl, rfl, fun _ => rfl, fun hother => absurd rfl hother⟩
  · rw [withFormat, if_neg hformat] at hresult
    obtain ⟨data, hdecoded, hkept⟩ := exists_of_bind_ok hresult
    rcases decodedPayload_cases hdecoded with
      ⟨hnone, rfl⟩ | ⟨encoded, payload, hsome, hread, rfl⟩
    · cases hkept
      refine ⟨rfl, rfl, fun hsame => absurd hsame hformat, ?_⟩
      intro _ encoded hencoded
      rw [hnone] at hencoded
      cases hencoded
    · obtain ⟨recoded, hencode, rfl⟩ := eq_of_withPayload hkept
      refine ⟨rfl, by rw [hsome]; rfl, fun hsame => absurd hsame hformat, ?_⟩
      intro _ other hother
      rw [hsome] at hother
      cases hother
      exact ⟨payload, recoded, hread, hencode, rfl⟩

theorem inOwnEncoding_of_withFormat (hown : transaction.InOwnEncoding)
    (hresult : transaction.withFormat format = .ok result) : result.InOwnEncoding := by
  have hrecoded := recoded_of_withFormat hresult
  by_cases hformat : transaction.format = format
  · rw [hrecoded.same hformat]
    exact hown
  · intro recoded hpresent
    -- There is a payload only if there was one.
    have hsome : transaction.payload.isSome := by
      rw [← hrecoded.present, hpresent]
      rfl
    obtain ⟨encoded, hencoded⟩ := Option.isSome_iff_exists.mp hsome
    obtain ⟨payload, anew, -, hencode, hpayload⟩ := hrecoded.anew hformat encoded hencoded
    rw [hpresent] at hpayload
    cases hpayload
    rw [hrecoded.others]
    exact ⟨payload, hencode⟩

/-! ## Records -/

theorem payload_of_toTransaction {fields : RecordFields} {purchase : Transaction}
    {data : Option Payload} (hpurchase : fields.toTransaction format = .ok (purchase, data)) :
    purchase.payload = none := by
  rcases toTransaction_cases fields with ⟨fault, hfault⟩ | ⟨bare, hbare, hparts⟩
  · rw [hfault] at hpurchase
    cases hpurchase
  · rw [hparts] at hpurchase
    cases hpurchase
    exact hbare.payload

/-- A document describes a purchase without a payload, which carries the data then. -/
theorem carrying_of_ofDocument {document : Payload} {length : Nat}
    (hresult : ofDocument document format length = .ok result) :
    ∃ (purchase : Transaction) (data : Option Payload), purchase.payload = none ∧
      purchase.carrying data = .ok result := by
  unfold ofDocument at hresult
  dsimp only at hresult
  split at hresult
  · cases hresult
  · rename_i purchase hparts
    obtain ⟨fields, -, hpurchase⟩ := exists_of_bind_ok hparts
    exact ⟨purchase, none, payload_of_toTransaction hpurchase, hresult⟩
  · rename_i purchase data hparts
    obtain ⟨fields, -, hpurchase⟩ := exists_of_bind_ok hparts
    exact ⟨purchase, some data, payload_of_toTransaction hpurchase, hresult⟩

theorem inOwnEncoding_of_ofDocument {document : Payload} {length : Nat}
    (hresult : ofDocument document format length = .ok result) : result.InOwnEncoding := by
  obtain ⟨purchase, data, hnone, hcarrying⟩ := carrying_of_ofDocument hresult
  cases data with
  | none =>
      cases hcarrying
      exact inOwnEncoding_of_none hnone
  | some payload => exact inOwnEncoding_of_withPayload hcarrying

theorem inOwnEncoding_of_ofRecord {bytes : Bytes} (hresult : ofRecord bytes format = .ok result) :
    result.InOwnEncoding := by
  obtain ⟨document, -, hdocument⟩ := exists_of_bind_ok hresult
  exact inOwnEncoding_of_ofDocument hdocument

/-! ## Whatever was done -/

/-- A transaction that was made by these operations, in any order and as often as one likes. -/
inductive Made : Transaction → Prop
  | new (customer : Int) (product : String) (quantity : Int) (format : WireFormat) :
      Made (new customer product quantity format)
  | ofDocument {document : Payload} {format : WireFormat} {length : Nat} {result : Transaction}
      (hresult : ofDocument document format length = .ok result) : Made result
  | ofRecord {bytes : Bytes} {format : WireFormat} {result : Transaction}
      (hresult : ofRecord bytes format = .ok result) : Made result
  /-- An identifier is given along or assigned by the store. -/
  | withId {transaction : Transaction} (hmade : Made transaction) (id : Int) :
      Made (transaction.withId id)
  | withTime {transaction : Transaction} (hmade : Made transaction) (time : Timestamp) :
      Made (transaction.withTime time)
  | withQuantity {transaction : Transaction} (hmade : Made transaction) (quantity : Int) :
      Made (transaction.withQuantity quantity)
  | withPayload {transaction result : Transaction} {payload : Payload} (hmade : Made transaction)
      (hresult : transaction.withPayload payload = .ok result) : Made result
  /-- It may have failed. -/
  | setPayload {transaction later : Transaction} {payload : Payload} {outcome : Except Failure Unit}
      (hmade : Made transaction)
      (hset : (setPayload payload).run.run transaction = (outcome, later)) : Made later
  | withFormat {transaction result : Transaction} {format : WireFormat} (hmade : Made transaction)
      (hresult : transaction.withFormat format = .ok result) : Made result
  | markProcessed {transaction : Transaction} (hmade : Made transaction) (time : Timestamp) :
      Made (transaction.markProcessed time)

/-- **A payload is in the encoding of its transaction**, whatever was done to it. -/
theorem Made.inOwnEncoding (hmade : transaction.Made) : transaction.InOwnEncoding := by
  induction hmade with
  | new customer product quantity format => exact inOwnEncoding_of_none rfl
  | ofDocument hresult => exact inOwnEncoding_of_ofDocument hresult
  | ofRecord hresult => exact inOwnEncoding_of_ofRecord hresult
  | withId hmade id ih => exact ih.of_same rfl rfl
  | withTime hmade time ih => exact ih.of_same rfl rfl
  | withQuantity hmade quantity ih => exact ih.of_same rfl rfl
  | withPayload hmade hresult ih => exact inOwnEncoding_of_withPayload hresult
  | setPayload hmade hset ih => exact inOwnEncoding_of_setPayload ih hset
  | withFormat hmade hresult ih => exact inOwnEncoding_of_withFormat ih hresult
  | markProcessed hmade time ih => exact ih.of_same rfl rfl

end Clearing.Transaction
