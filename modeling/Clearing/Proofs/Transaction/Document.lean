import Clearing.Transaction.Record

/-!
# What a document says about a transaction

The fields of a document say the same about the purchase in either encoding: the encoding
only decides how what stands under `data` is kept.  So a document either lacks something,
whatever encoding it came in, or it describes one purchase, and the transaction is this
purchase carrying its data (`ofDocument_cases`).
-/

namespace Clearing

/-- What is done first must succeed. -/
theorem exists_of_bind_ok {ε α β : Type} {first : Except ε α} {next : α → Except ε β} {result : β}
    (hresult : first.bind next = .ok result) :
    ∃ value, first = .ok value ∧ next value = .ok result := by
  cases first with
  | error failure => cases hresult
  | ok value => exact ⟨value, rfl, hresult⟩

theorem exists_of_map_ok {ε α β : Type} {first : Except ε α} {change : α → β} {result : β}
    (hresult : first.map change = .ok result) : ∃ value, first = .ok value ∧ change value = result := by
  cases first with
  | error failure => cases hresult
  | ok value => exact ⟨value, rfl, Except.ok.inj hresult⟩

/-! ## The data of a document -/

/-- The map that a value is. -/
def Value.map? : Value → Option Payload
  | .object members => some members
  | _ => none

namespace Payload

/-- The map under the name `data`; nothing else stands for data. -/
def data? (document : Payload) : Option Payload :=
  (get? document "data").bind Value.map?

theorem names_cons {α : Type} (name : String) (value : α) (rest : List (String × α)) :
    names ((name, value) :: rest) = name :: names rest := rfl

/-- The first member has the name, or the rest decides. -/
theorem get?_cons {α : Type} (name key : String) (value : α) (rest : List (String × α)) :
    get? ((key, value) :: rest) name = if key = name then some value else get? rest name := by
  simp only [get?, List.lookup_cons]
  by_cases hkey : key = name
  · rw [if_pos hkey, beq_iff_eq.mpr hkey.symm]
  · rw [if_neg hkey, beq_eq_false_iff_ne.mpr (Ne.symm hkey)]

theorem mem_of_get? {α : Type} {members : List (String × α)} {name : String} {value : α}
    (hget : get? members name = some value) : (name, value) ∈ members := by
  obtain ⟨before, after, rfl, -⟩ := List.lookup_eq_some_iff.mp hget
  exact List.mem_append_right _ List.mem_cons_self

theorem get?_of_not_mem {α : Type} {members : List (String × α)} {name : String}
    (hname : name ∉ names members) : get? members name = none := by
  refine List.lookup_eq_none_iff.mpr fun member hmember => bne_iff_ne.mpr ?_
  rintro rfl
  exact hname (List.mem_map_of_mem hmember)

theorem mem_of_data? {document data : Payload} (hdata : document.data? = some data) :
    ("data", Value.object data) ∈ document := by
  obtain ⟨value, hget, hmap⟩ := Option.bind_eq_some_iff.mp hdata
  cases value with
  | object members =>
      cases hmap
      exact mem_of_get? hget
  | _ => cases hmap

end Payload

/-! ## Fields -/

namespace RecordFields

theorem readOptional_readMap {value : Value} {data : Option Payload}
    (hread : readOptional readMap value = .ok data) : data = value.map? := by
  cases value <;> cases hread <;> rfl

theorem data_readField_data {fields next : RecordFields} {value : Value}
    (hread : fields.readField "data" value = .ok next) : next.data = value.map? := by
  obtain ⟨data, hdata, hsame⟩ := exists_of_bind_ok hread
  cases hsame
  exact readOptional_readMap hdata

/-- The other fields leave the data alone. -/
theorem data_readField_of_ne {fields next : RecordFields} {name : String} {value : Value}
    (hname : name ≠ "data") (hread : fields.readField name value = .ok next) :
    next.data = fields.data := by
  have hkept {α : Type} {read : Except FieldFault α} {update : α → Except FieldFault RecordFields}
      (hread : read.bind update = .ok next)
      (hupdate : ∀ found, (update found).map RecordFields.data = .ok fields.data) :
      next.data = fields.data := by
    obtain ⟨found, -, hnext⟩ := exists_of_bind_ok hread
    have hdata := hupdate found
    rw [hnext] at hdata
    exact Except.ok.inj hdata
  rw [readField, if_neg hname] at hread
  split at hread
  · exact hkept hread fun _ => rfl
  · split at hread
    · exact hkept hread fun _ => rfl
    · split at hread
      · exact hkept hread fun _ => rfl
      · split at hread
        · exact hkept hread fun _ => rfl
        · split at hread
          · exact hkept hread fun _ => rfl
          · cases hread
            rfl

/-- Until the name comes no data are read, and behind it, it does not come again. -/
theorem data_of_foldlM {members : Payload} {start fields : RecordFields}
    (hnames : (Payload.names members).Nodup)
    (hread : members.foldlM (fun fields member => fields.readField member.1 member.2) start =
      .ok fields) :
    fields.data = if "data" ∈ Payload.names members then members.data? else start.data := by
  induction members generalizing start with
  | nil =>
      cases hread
      rfl
  | cons member rest ih =>
      obtain ⟨name, value⟩ := member
      rw [Payload.names_cons, List.nodup_cons] at hnames
      obtain ⟨next, hfirst, hrest⟩ := exists_of_bind_ok hread
      rw [ih hnames.2 hrest]
      by_cases hname : name = "data"
      · subst hname
        rw [if_neg hnames.1, data_readField_data hfirst, Payload.names_cons,
          if_pos List.mem_cons_self, Payload.data?, Payload.get?_cons, if_pos rfl]
        rfl
      · rw [data_readField_of_ne hname hfirst, Payload.data?, Payload.data?, Payload.get?_cons,
          if_neg hname]
        simp only [Payload.names_cons, List.mem_cons, Ne.symm hname, false_or]

/-- The data that are read are the data of the document. -/
theorem data_ofDocument {document : Payload} {fields : RecordFields}
    (hnames : (Payload.names document).Nodup) (hread : ofDocument document = .ok fields) :
    fields.data = document.data? := by
  rw [data_of_foldlM hnames hread]
  split
  · rfl
  · rename_i hnone
    rw [Payload.data?, Payload.get?_of_not_mem hnone]
    rfl

end RecordFields

/-! ## Transactions -/

namespace Transaction

/-- The transaction with data, if there are any. -/
def carrying (transaction : Transaction) : Option Payload → Except Failure Transaction
  | none => .ok transaction
  | some data => transaction.withPayload data

/-- A purchase that was only described: pending, and without data. -/
structure Bare (transaction : Transaction) : Prop where
  payload : transaction.payload = none
  processedTime : transaction.processedTime = none
  status : transaction.status = .pending

/-- The fields describe one purchase, or one of them is missing. -/
theorem toTransaction_cases (fields : RecordFields) :
    (∃ fault, ∀ format, fields.toTransaction format = .error fault) ∨
      ∃ purchase : Transaction, purchase.Bare ∧ ∀ format,
        fields.toTransaction format = .ok ({ purchase with format := format }, fields.data) := by
  obtain ⟨id, time, customer, product, quantity, data⟩ := fields
  cases customer with
  | none => exact .inl ⟨.missing "customerId", fun format => rfl⟩
  | some customer =>
      cases product with
      | none => exact .inl ⟨.missing "productCode", fun format => rfl⟩
      | some product =>
          cases quantity with
          | none => exact .inl ⟨.missing "quantity", fun format => rfl⟩
          | some quantity =>
              let purchase := { new customer product quantity .text with id := id, time := time }
              exact .inr ⟨purchase, ⟨rfl, rfl, rfl⟩, fun format => rfl⟩

/-- **A document says the same in either encoding.**  Either it is no transaction, with the same
fault, or it describes one purchase, which carries the data. -/
theorem ofDocument_cases {document : Payload} (hnames : (Payload.names document).Nodup) :
    (∃ fault, ∀ format length, ofDocument document format length =
        .error (.codec format length (.notTransaction fault))) ∨
      ∃ purchase : Transaction, purchase.Bare ∧ ∀ format length,
        ofDocument document format length =
          carrying { purchase with format := format } document.data? := by
  cases hfields : RecordFields.ofDocument document with
  | error fault =>
      refine .inl ⟨fault, fun format length => ?_⟩
      rw [ofDocument, hfields]
      rfl
  | ok fields =>
      rcases toTransaction_cases fields with ⟨fault, hmissing⟩ | ⟨purchase, hbare, hpurchase⟩
      · refine .inl ⟨fault, fun format length => ?_⟩
        have hparts : (do (← Except.ok fields).toTransaction format) = .error fault :=
          hmissing format
        rw [ofDocument, hfields]
        simp only [hparts]
      · refine .inr ⟨purchase, hbare, fun format length => ?_⟩
        have hparts : (do (← Except.ok fields).toTransaction format) =
            .ok ({ purchase with format := format }, document.data?) := by
          rw [← RecordFields.data_ofDocument hnames hfields]
          exact hpurchase format
        rw [ofDocument, hfields]
        simp only [hparts]
        cases document.data? <;> rfl

end Transaction

end Clearing
