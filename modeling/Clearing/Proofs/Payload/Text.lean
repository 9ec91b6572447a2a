import Clearing.Payload.Codec
import Clearing.Proofs.Json.Building
import Clearing.Proofs.Number.Layout
import Clearing.Proofs.Payload.Nesting

/-!
# Text records can be read back

A text record may be written in many ways: with blanks, with escapes that are not needed,
with names that repeat, with numbers of any length.  What is written for the payload that
was read is only one of them, and it is read as the same payload (`decode_text_encode`).

A value is `Readable` if what is written for it is read as the value.  Numbers and strings
are; arrays and objects are if all that is in them is, and objects moreover need distinct
names.  So a value is readable at its depth: what is written for it nests as deep as the
value, and no deeper.  What comes out of a JSON text is no deeper than such a text may be.
-/

namespace Clearing

open Json (Reads Closed Punctuates)

namespace Value

/-- What is written for the value is read as the value, with at most so many nested containers. -/
def Readable (depth : Nat) (value : Value) : Prop :=
  ∃ json, Reads (Text.bytesOf value.chars) json.tokens ∧ ofJson? depth json = some value

/-! ## Values without parts -/

theorem readable_null (depth : Nat) : Readable depth .null := by
  have hreads : Reads (Text.bytesOf (chars .null)) [.null] :=
    Json.reads_word rfl rfl rfl
  exact ⟨.null, hreads, rfl⟩

theorem readable_bool (depth : Nat) (value : Bool) : Readable depth (.bool value) := by
  have hreads : Reads (Text.bytesOf (chars (.bool value))) [.bool value] := by
    cases value <;> exact Json.reads_word rfl rfl rfl
  exact ⟨.bool value, hreads, rfl⟩

theorem readable_int (depth : Nat) (n : WideInt) : Readable depth (.int n) := by
  refine ⟨.number (writtenInt n.val).numeral, ?_, ofNumeral?_writtenInt n⟩
  rw [chars, ← chars_writtenInt]
  exact Json.reads_number _

theorem readable_float (depth : Nat) (x : FiniteFloat) : Readable depth (.float x) := by
  obtain ⟨written, hchars, hvalue⟩ := exists_written_float x
  refine ⟨.number written.numeral, ?_, hvalue⟩
  rw [chars, ← hchars]
  exact Json.reads_number _

theorem readable_string (depth : Nat) (text : String) : Readable depth (.string text) :=
  ⟨.string (some text), (Json.closed_stringChars text).reads, rfl⟩

/-! ## Containers -/

theorem punctuates_comma : Punctuates 44 .comma :=
  ⟨rfl, by decide⟩

theorem punctuates_colon : Punctuates 58 .colon :=
  ⟨rfl, by decide⟩

theorem punctuates_openBracket : Punctuates 91 .openBracket :=
  ⟨rfl, by decide⟩

theorem punctuates_openBrace : Punctuates 123 .openBrace :=
  ⟨rfl, by decide⟩

theorem punctuates_closeBracket : Punctuates 93 .closeBracket :=
  ⟨rfl, by decide⟩

theorem punctuates_closeBrace : Punctuates 125 .closeBrace :=
  ⟨rfl, by decide⟩

section Containers

variable {depth : Nat}

theorem exists_items {items : List Value} (hitems : ∀ item ∈ items, Readable depth item) :
    ∃ trees, Closed (Text.bytesOf (itemChars items) ++ [93]) (Json.itemTokens trees) ∧
      ofItems? depth trees = some items := by
  match items with
  | [] => exact ⟨[], punctuates_closeBracket.closed, rfl⟩
  | [item] =>
      obtain ⟨tree, hreads, hvalue⟩ := hitems item List.mem_cons_self
      refine ⟨[tree], hreads.closed punctuates_closeBracket, ?_⟩
      rw [ofItems?, hvalue]
      rfl
  | item :: next :: rest =>
      obtain ⟨tree, hreads, hvalue⟩ := hitems item List.mem_cons_self
      have hrest : ∀ other ∈ next :: rest, Readable depth other :=
        fun other hother => hitems other (List.mem_cons_of_mem _ hother)
      obtain ⟨trees, hclosed, hvalues⟩ := exists_items hrest
      have hne : trees ≠ [] := by
        rintro rfl
        cases hvalues
      have hbytes : Text.bytesOf (itemChars (item :: next :: rest)) ++ [93] =
          Text.bytesOf item.chars ++ [44] ++ (Text.bytesOf (itemChars (next :: rest)) ++ [93]) := by
        rw [itemChars, Text.bytesOf_append, List.append_assoc, List.append_assoc]
        rfl
      refine ⟨tree :: trees, ?_, ?_⟩
      · rw [hbytes, Json.itemTokens_cons tree hne]
        exact (hreads.closed punctuates_comma).append hclosed
      · rw [ofItems?, hvalue, hvalues]
        rfl

theorem exists_members {members : List (String × Value)}
    (hmembers : ∀ member ∈ members, Readable depth member.2) :
    ∃ trees, Closed (Text.bytesOf (memberChars members) ++ [125]) (Json.memberTokens trees) ∧
      ofMembers? depth trees = some members := by
  match members with
  | [] => exact ⟨[], punctuates_closeBrace.closed, rfl⟩
  | [(name, value)] =>
      obtain ⟨tree, hreads, hvalue⟩ := hmembers (name, value) List.mem_cons_self
      have hbytes : Text.bytesOf (memberChars [(name, value)]) ++ [125] =
          Text.bytesOf (Json.stringChars name) ++
            ([58] ++ (Text.bytesOf value.chars ++ [125])) := by
        rw [memberChars, Text.bytesOf_append, List.append_assoc]
        rfl
      refine ⟨[(some name, tree)], ?_, ?_⟩
      · rw [hbytes]
        exact (Json.closed_stringChars name).append
          (punctuates_colon.closed.append (hreads.closed punctuates_closeBrace))
      · simp only [ofMembers?, hvalue]
        rfl
  | (name, value) :: next :: rest =>
      obtain ⟨tree, hreads, hvalue⟩ := hmembers (name, value) List.mem_cons_self
      have hrest : ∀ other ∈ next :: rest, Readable depth other.2 :=
        fun other hother => hmembers other (List.mem_cons_of_mem _ hother)
      obtain ⟨trees, hclosed, hvalues⟩ := exists_members hrest
      have hne : trees ≠ [] := by
        rintro rfl
        cases hvalues
      have hbytes : Text.bytesOf (memberChars ((name, value) :: next :: rest)) ++ [125] =
          Text.bytesOf (Json.stringChars name) ++ ([58] ++ (Text.bytesOf value.chars ++ [44] ++
            (Text.bytesOf (memberChars (next :: rest)) ++ [125]))) := by
        rw [memberChars, Text.bytesOf_append, Text.bytesOf_append]
        simp only [List.append_assoc]
        rfl
      refine ⟨(some name, tree) :: trees, ?_, ?_⟩
      · rw [hbytes, Json.memberTokens_cons (some name) tree hne]
        exact (Json.closed_stringChars name).append
          (punctuates_colon.closed.append ((hreads.closed punctuates_comma).append hclosed))
      · simp only [ofMembers?, hvalue, hvalues]
        rfl

theorem readable_array {items : List Value} (hitems : ∀ item ∈ items, Readable depth item) :
    Readable (depth + 1) (.array items) := by
  obtain ⟨trees, hclosed, hvalues⟩ := exists_items hitems
  have hbytes : Text.bytesOf (chars (.array items)) =
      [91] ++ (Text.bytesOf (itemChars items) ++ [93]) := by
    rw [chars, List.cons_append, Text.bytesOf_cons, Text.bytesOf_append]
    rfl
  refine ⟨.array trees, ?_, ?_⟩
  · rw [hbytes]
    exact (punctuates_openBracket.closed.append hclosed).reads
  · rw [ofJson?, if_neg (Nat.succ_ne_zero depth), Nat.add_sub_cancel, hvalues]
    rfl

theorem readable_object {members : List (String × Value)} (hnames : (Payload.names members).Nodup)
    (hmembers : ∀ member ∈ members, Readable depth member.2) :
    Readable (depth + 1) (.object members) := by
  obtain ⟨trees, hclosed, hvalues⟩ := exists_members hmembers
  have hbytes : Text.bytesOf (chars (.object members)) =
      [123] ++ (Text.bytesOf (memberChars members) ++ [125]) := by
    rw [chars, List.cons_append, Text.bytesOf_cons, Text.bytesOf_append]
    rfl
  refine ⟨.object trees, ?_, ?_⟩
  · rw [hbytes]
    exact (punctuates_openBrace.closed.append hclosed).reads
  · rw [ofJson?, if_neg (Nat.succ_ne_zero depth), Nat.add_sub_cancel, hvalues, Option.map_some,
      Payload.ofMembers_of_nodup hnames]

end Containers

/-! ## Values within a depth -/

mutual

/-- **Every value is readable at its depth**, if the names in its maps are distinct. -/
theorem readable_of_depth_le (value : Value) {depth : Nat} (hwell : value.WellFormed)
    (hdepth : value.depth ≤ depth) : Readable depth value := by
  cases value with
  | null => exact readable_null depth
  | bool flag => exact readable_bool depth flag
  | int n => exact readable_int depth n
  | float x => exact readable_float depth x
  | string text => exact readable_string depth text
  | array items =>
      cases depth with
      | zero => exact absurd hdepth (Nat.not_succ_le_zero _)
      | succ depth =>
          exact readable_array (readable_of_depthOfItems_le items hwell
            (Nat.le_of_succ_le_succ hdepth))
  | object members =>
      cases depth with
      | zero => exact absurd hdepth (Nat.not_succ_le_zero _)
      | succ depth =>
          exact readable_object hwell.1 (readable_of_depthOfMembers_le members hwell.2
            (Nat.le_of_succ_le_succ hdepth))

theorem readable_of_depthOfItems_le (items : List Value) {depth : Nat}
    (hwell : WellFormedItems items) (hdepth : depthOfItems items ≤ depth) :
    ∀ item ∈ items, Readable depth item := by
  cases items with
  | nil => nofun
  | cons first rest =>
      rw [depthOfItems, Nat.max_le] at hdepth
      intro item hmem
      rcases List.mem_cons.mp hmem with hfirst | hrest
      · rw [hfirst]
        exact readable_of_depth_le first hwell.1 hdepth.1
      · exact readable_of_depthOfItems_le rest hwell.2 hdepth.2 item hrest

theorem readable_of_depthOfMembers_le (members : List (String × Value)) {depth : Nat}
    (hwell : WellFormedMembers members) (hdepth : depthOfMembers members ≤ depth) :
    ∀ member ∈ members, Readable depth member.2 := by
  cases members with
  | nil => nofun
  | cons first rest =>
      obtain ⟨name, value⟩ := first
      rw [depthOfMembers, Nat.max_le] at hdepth
      intro member hmem
      rcases List.mem_cons.mp hmem with hfirst | hrest
      · rw [hfirst]
        exact readable_of_depth_le value hwell.1 hdepth.1
      · exact readable_of_depthOfMembers_le rest hwell.2 hdepth.2 member hrest

end

theorem Within.readable {depth : Nat} {value : Value} (hvalue : Within depth value) :
    Readable depth value :=
  readable_of_depth_le value hvalue.wellFormed hvalue.depth_le

end Value

/-! ## Reading what was written -/

namespace Payload

theorem ofJsonBytes?_text {payload : Payload}
    (hreadable : Value.Readable Value.maxDepth (.object payload)) :
    ofJsonBytes? (Text.encode payload.text) = some payload := by
  obtain ⟨tree, hreads, hvalue⟩ := hreadable
  rw [text, Text.encode_ofList, ofJsonBytes?, Json.ofBytes?_of_reads hreads]
  show (Value.ofJson? Value.maxDepth tree).bind _ = _
  rw [hvalue]
  rfl

theorem decode_text_eq_ok_iff {bytes : Bytes} {payload : Payload} :
    decode .text bytes = .ok payload ↔ ofJsonBytes? bytes = some payload := by
  cases bytes with
  | nil => exact iff_of_false nofun nofun
  | cons byte rest =>
      show codecFailure .text _ (decodeText (byte :: rest)) = _ ↔ _
      rw [decodeText, List.isEmpty_cons, if_neg Bool.false_ne_true]
      cases ofJsonBytes? (byte :: rest) with
      | none => exact iff_of_false nofun nofun
      | some other =>
          refine ⟨fun hsame => ?_, fun hsame => ?_⟩ <;> cases hsame <;> rfl

/-- What was read from text is nested no deeper than text may be. -/
theorem within_of_ofJsonBytes? {bytes : Bytes} {payload : Payload}
    (hread : ofJsonBytes? bytes = some payload) :
    Value.Within Value.maxDepth (.object payload) := by
  simp only [ofJsonBytes?, Option.bind_eq_bind, Option.bind_eq_some_iff] at hread
  obtain ⟨json, -, value, hvalue, hobject⟩ := hread
  cases value with
  | object members =>
      cases hobject
      exact Value.within_of_ofJson? hvalue
  | _ => cases hobject

/-- **Text is stable.**  What is written for a payload that was read from text is read as the same
payload, names in the same order, and what is written for that is the same text. -/
theorem decode_text_encode {bytes : Bytes} {payload : Payload}
    (hdecode : decode .text bytes = .ok payload) :
    ∃ encoded, EncodedPayload.encode .text payload = .ok encoded ∧
      decode .text encoded.bytes = .ok payload ∧
      (decode .text encoded.bytes).bind (EncodedPayload.encode .text) = .ok encoded := by
  have hreadable := (within_of_ofJsonBytes? (decode_text_eq_ok_iff.mp hdecode)).readable
  have hagain : decode .text (Text.encode payload.text) = .ok payload :=
    decode_text_eq_ok_iff.mpr (ofJsonBytes?_text hreadable)
  refine ⟨.text payload.text, rfl, hagain, ?_⟩
  show (decode .text (Text.encode payload.text)).bind _ = _
  rw [hagain]
  rfl

/-- A text with blanks, escapes, a name that repeats, numbers at their limits and containers that
nest as deep as they may. -/
def variedText : Bytes :=
  Text.encode
      ("\x7b \"least\": -9223372036854775808, \"größtes\": 18446744073709551615," ++
        "\"beyond\": 18446744073709551616, \"zero\": [0, -0, -0.0, 1E-7, 5e-324, 0.1000]," ++
        "\"\\u0000\\u001f\\/\\n\\ud83d\\ude00\": \"\\\\ \\\" \\u00e9\", \"least\": null, \"deep\": ") ++
    List.replicate 126 91 ++ List.replicate 126 93 ++ [125]

theorem decode_text_encode_variedText :
    ∃ payload, decode .text variedText = .ok payload ∧
      names payload = ["least", "größtes", "beyond", "zero", "\x00\x1f/\n😀", "deep"] ∧
      ∃ encoded, EncodedPayload.encode .text payload = .ok encoded ∧
        decode .text encoded.bytes = .ok payload ∧
        (decode .text encoded.bytes).bind (EncodedPayload.encode .text) = .ok encoded := by
  have hnames : (ofJsonBytes? variedText).map names =
      some ["least", "größtes", "beyond", "zero", "\x00\x1f/\n😀", "deep"] := by
    decide +kernel
  obtain ⟨payload, hread, hpayload⟩ := Option.map_eq_some_iff.mp hnames
  have hdecode := decode_text_eq_ok_iff.mpr hread
  exact ⟨payload, hdecode, hpayload, decode_text_encode hdecode⟩

end Payload

end Clearing
