import Clearing.Payload.Codec
import Clearing.Proofs.Text.Base64

/-!
# Envelopes

A binary document may travel as text: `BINARY:` and its Base64 form, with blanks around
that form.  Such bytes `Hold` the document.  The main result has two halves.

An envelope is transparent: whatever is read of a document is read of every envelope that
holds it, under either policy, unless the document is an envelope itself.  And it is
canonical: the bytes that are opened as a document are those that hold it, so what is left
of them without the blanks is the one envelope that is written for the document.
-/

namespace Clearing

/-! ## Blanks around a text -/

namespace Text

variable {α : Type} {isEdge : α → Bool} {before middle after items : List α}

/-- The edges are stripped from what has none inside, and nothing else is. -/
theorem strip_between (hbefore : ∀ a ∈ before, isEdge a = true)
    (hmiddle : ∀ a ∈ middle, isEdge a = false) (hafter : ∀ a ∈ after, isEdge a = true) :
    strip isEdge (before ++ middle ++ after) = middle := by
  have hfront : (before ++ (middle ++ after)).dropWhile isEdge =
      (middle ++ after).dropWhile isEdge :=
    List.dropWhile_append_of_pos hbefore
  have hback : (after.reverse ++ middle.reverse).dropWhile isEdge = middle.reverse := by
    rw [List.dropWhile_append_of_pos fun a ha => hafter a (List.mem_reverse.mp ha)]
    refine dropWhile_eq_self_of_head fun a ha => hmiddle a ?_
    exact List.mem_reverse.mp (List.mem_of_mem_head? ha)
  rw [strip, List.append_assoc, hfront]
  cases middle with
  | nil =>
      have hnone : (after ++ []).dropWhile isEdge = [] :=
        List.dropWhile_append_of_pos hafter
      rw [List.nil_append, ← List.append_nil after, hnone]
      rfl
  | cons first rest =>
      have hhead : (first :: rest ++ after).dropWhile isEdge = first :: rest ++ after := by
        refine dropWhile_eq_self_of_head ?_
        rintro a ⟨⟩
        exact hmiddle first List.mem_cons_self
      rw [hhead, List.reverse_append, hback, List.reverse_reverse]

/-- What is stripped stood at the edges. -/
theorem exists_strip (isEdge : α → Bool) (items : List α) :
    ∃ before after, (∀ a ∈ before ++ after, isEdge a = true) ∧
      items = before ++ strip isEdge items ++ after := by
  have hedge (row : List α) : ∀ a ∈ row.takeWhile isEdge, isEdge a = true :=
    List.all_eq_true.mp (List.all_takeWhile ..)
  refine ⟨items.takeWhile isEdge, ((items.dropWhile isEdge).reverse.takeWhile isEdge).reverse,
    ?_, ?_⟩
  · intro a ha
    rcases List.mem_append.mp ha with hfront | hback
    · exact hedge _ a hfront
    · exact hedge _ a (List.mem_reverse.mp hback)
  · rw [List.append_assoc, strip, ← List.reverse_append, List.takeWhile_append_dropWhile,
      List.reverse_reverse, List.takeWhile_append_dropWhile]

end Text

namespace Envelope

/-- The bytes are an envelope of the document, with any blanks around its Base64 form. -/
def Holds (bytes document : Bytes) : Prop :=
  ∃ before after, (∀ byte ∈ before ++ after, Text.isEnvelopeBlank byte = true) ∧
    bytes = marker ++ (before ++ Text.Base64.encode document ++ after)

variable {bytes document : Bytes}

theorem holds_wrap (document : Bytes) : Holds (wrap document) document := by
  refine ⟨[], [], nofun, ?_⟩
  rw [List.nil_append, List.append_nil, wrap]

theorem content?_of_marker (hmarker : marker <+: bytes) :
    content? bytes = some (Text.strip Text.isEnvelopeBlank (bytes.drop marker.length)) :=
  if_pos (List.isPrefixOf_iff_prefix.mpr hmarker)

theorem content?_of_not_marker (hmarker : ¬marker <+: bytes) : content? bytes = none :=
  if_neg fun hbegins => hmarker (List.isPrefixOf_iff_prefix.mp hbegins)

theorem unwrap_of_not_marker (hmarker : ¬marker <+: bytes) : unwrap bytes = .ok bytes := by
  rw [unwrap, content?_of_not_marker hmarker]

theorem Holds.marker_prefix (hholds : Holds bytes document) : marker <+: bytes := by
  obtain ⟨before, after, -, rfl⟩ := hholds
  exact List.prefix_append ..

theorem Holds.ne_nil (hholds : Holds bytes document) : bytes ≠ [] := by
  rintro rfl
  exact absurd (List.prefix_nil.mp hholds.marker_prefix) (by decide)

/-- Without the blanks the Base64 form is left. -/
theorem Holds.content? (hholds : Holds bytes document) :
    content? bytes = some (Text.Base64.encode document) := by
  rw [content?_of_marker hholds.marker_prefix]
  obtain ⟨before, after, hblank, rfl⟩ := hholds
  rw [List.drop_left, Text.strip_between]
  · exact fun byte hbyte => hblank byte (List.mem_append_left _ hbyte)
  · exact fun byte hbyte => Text.Base64.not_blank_of_mem_encode hbyte
  · exact fun byte hbyte => hblank byte (List.mem_append_right _ hbyte)

theorem Holds.unwrap (hholds : Holds bytes document) : unwrap bytes = .ok document := by
  rw [Envelope.unwrap, hholds.content?]
  simp only [Text.Base64.decode?_encode]

/-- What was put in an envelope is found in it. -/
theorem unwrap_wrap (document : Bytes) : unwrap (wrap document) = .ok document :=
  (holds_wrap document).unwrap

/-- The bytes that are opened as a document are the envelopes of the document. -/
theorem unwrap_eq_ok_iff (hmarker : marker <+: bytes) :
    unwrap bytes = .ok document ↔ Holds bytes document := by
  refine ⟨fun hunwrap => ?_, Holds.unwrap⟩
  obtain ⟨before, after, hblank, hrest⟩ :=
    Text.exists_strip Text.isEnvelopeBlank (bytes.drop marker.length)
  simp only [unwrap, content?_of_marker hmarker] at hunwrap
  split at hunwrap
  · rename_i hdecode
    cases hunwrap
    refine ⟨before, after, hblank, ?_⟩
    rw [Text.Base64.encode_of_decode? hdecode, ← hrest]
    exact (List.prefix_iff_eq_append.mp hmarker).symm
  · cases hunwrap

end Envelope

/-! ## Reading envelopes -/

namespace Payload

/-- Both are read as the same payload, or neither is read and each is reported with its own
length. -/
def ReadAlike (policy : LegacyPolicy) (first second : Bytes) : Prop :=
  (∃ payload, decodeWith policy .binary first = .ok payload ∧
      decodeWith policy .binary second = .ok payload) ∨
    ∃ cause other, decodeWith policy .binary first = .error (.codec .binary first.length cause) ∧
      decodeWith policy .binary second = .error (.codec .binary second.length other)

/-- Bytes are read as the document that they carry. -/
theorem decodeWith_binary_of_ne_nil {policy : LegacyPolicy} {bytes document : Bytes}
    (hbytes : bytes ≠ []) (hunwrap : Envelope.unwrap bytes = .ok document) :
    decodeWith policy .binary bytes =
      codecFailure .binary bytes.length (ofDocument policy document) := by
  have hempty : bytes.isEmpty = false := by simpa using hbytes
  simp only [decodeWith, decodeBinary, hempty, Bool.false_eq_true, if_false, hunwrap]
  rfl

/-- Bytes hold a document that every policy looks at, or every policy refuses them. -/
theorem decodeWith_binary_cases (bytes : Bytes) :
    (∃ document, Envelope.unwrap bytes = .ok document ∧ ∀ policy,
        decodeWith policy .binary bytes =
          codecFailure .binary bytes.length (ofDocument policy document)) ∨
      ∃ failure, ∀ policy, decodeWith policy .binary bytes = .error failure := by
  by_cases hbytes : bytes = []
  · subst hbytes
    exact .inr ⟨.codec .binary 0 .empty, fun policy => rfl⟩
  · cases hunwrap : Envelope.unwrap bytes with
    | ok document =>
        exact .inl ⟨document, rfl, fun policy => decodeWith_binary_of_ne_nil hbytes hunwrap⟩
    | error cause =>
        have hempty : bytes.isEmpty = false := by simpa using hbytes
        refine .inr ⟨.codec .binary bytes.length cause, fun policy => ?_⟩
        simp only [decodeWith, decodeBinary, hempty, Bool.false_eq_true, if_false, hunwrap]
        rfl

theorem ofDocument_nil (policy : LegacyPolicy) : ofDocument policy [] = .error .malformed := by
  cases policy <;> rfl

theorem readAlike_of_holds {policy : LegacyPolicy} {bytes document : Bytes}
    (hholds : Envelope.Holds bytes document) (hbare : ¬Envelope.marker <+: document) :
    ReadAlike policy bytes document := by
  have henvelope : decodeWith policy .binary bytes =
      codecFailure .binary bytes.length (ofDocument policy document) :=
    decodeWith_binary_of_ne_nil hholds.ne_nil hholds.unwrap
  by_cases hdocument : document = []
  · -- nothing is in it, and nothing is no document either
    subst hdocument
    rw [ofDocument_nil] at henvelope
    exact .inr ⟨.malformed, .empty, henvelope, rfl⟩
  · have hread : decodeWith policy .binary document =
        codecFailure .binary document.length (ofDocument policy document) :=
      decodeWith_binary_of_ne_nil hdocument (Envelope.unwrap_of_not_marker hbare)
    rw [ReadAlike, henvelope, hread]
    cases ofDocument policy document with
    | ok payload => exact .inl ⟨payload, rfl, rfl⟩
    | error cause => exact .inr ⟨cause, cause, rfl, rfl⟩

/-- **Envelopes are transparent and canonical.**  A document is read in any envelope as it is read
without one, unless it is an envelope itself; and what is opened as a document is an envelope of
it, in which nothing but the blanks is free. -/
theorem envelope_transparent_canonical (policy : LegacyPolicy) (document : Bytes) :
    Envelope.Holds (Envelope.wrap document) document ∧
      (¬Envelope.marker <+: document →
        ∀ bytes, Envelope.Holds bytes document → ReadAlike policy bytes document) ∧
      (∀ bytes, Envelope.marker <+: bytes →
        (Envelope.unwrap bytes = .ok document ↔ Envelope.Holds bytes document)) ∧
      (∀ bytes, Envelope.marker <+: bytes → Envelope.unwrap bytes = .ok document →
        Envelope.content? bytes = some (Text.Base64.encode document)) ∧
      ∀ first second, Envelope.marker <+: first → Envelope.unwrap first = .ok document →
        Envelope.marker <+: second → Envelope.unwrap second = .ok document →
        Envelope.content? first = Envelope.content? second := by
  have hcontent (bytes : Bytes) (hmarker : Envelope.marker <+: bytes)
      (hunwrap : Envelope.unwrap bytes = .ok document) :
      Envelope.content? bytes = some (Text.Base64.encode document) :=
    ((Envelope.unwrap_eq_ok_iff hmarker).mp hunwrap).content?
  refine ⟨Envelope.holds_wrap document, ?_, ?_, hcontent, ?_⟩
  · intro hbare bytes hholds
    exact readAlike_of_holds hholds hbare
  · intro bytes hmarker
    exact Envelope.unwrap_eq_ok_iff hmarker
  · intro first second hfirst hopened hsecond hothers
    rw [hcontent first hfirst hopened, hcontent second hsecond hothers]

/-- An old record in an envelope with blanks on both sides. -/
theorem envelope_transparent_spacedLegacy :
    ∃ bytes, bytes = Envelope.marker ++ [9, 32, 101, 51, 48, 61, 13, 10] ∧
      ¬Envelope.marker <+: Text.encode "\x7b\x7d" ∧
      Envelope.Holds bytes (Text.encode "\x7b\x7d") ∧
      ReadAlike .textFirst bytes (Text.encode "\x7b\x7d") ∧
      Envelope.unwrap bytes = .ok (Text.encode "\x7b\x7d") ∧
      Envelope.content? bytes = some [101, 51, 48, 61] := by
  obtain ⟨-, hread, hopen, hcontent, -⟩ :=
    envelope_transparent_canonical .textFirst (Text.encode "\x7b\x7d")
  have hbare : ¬Envelope.marker <+: Text.encode "\x7b\x7d" := by decide
  have hholds : Envelope.Holds (Envelope.marker ++ [9, 32, 101, 51, 48, 61, 13, 10])
      (Text.encode "\x7b\x7d") :=
    ⟨[9, 32], [13, 10], List.all_eq_true.mp rfl, rfl⟩
  have hmarker := hholds.marker_prefix
  have hunwrap := (hopen _ hmarker).mpr hholds
  exact ⟨_, rfl, hbare, hholds, hread hbare _ hholds, hunwrap, hcontent _ hmarker hunwrap⟩

end Payload

end Clearing
