import Clearing.Payload.Binary.Reader
import Clearing.Payload.Binary.Writer
import Clearing.Proofs.Text.Utf8

/-!
# Binary documents can be read back

What is written of a payload is read as the same payload (`decode?_encode?`), however
deep it is nested, as long as the document is shorter than two to the thirty-first: that
is what the signed lengths inside it can say.

## Strategy

Each body is read by the rule of its tag, and its size is found from its first bytes
whatever follows it (`bodySize?_encodeValue?`), so an element can be cut from the front of
a row.  The rest is induction on values: an array is read as a row of elements whose names
do not matter, a map as one whose names are distinct.
-/

namespace Clearing.BinaryDocument

/-! ## Lengths, names and numbers -/

/-- What is shorter than this has a length that can be written. -/
theorem length?_littleEndian {n : Nat} (rest : Bytes) (hn : n < twoTo 31) :
    length? (littleEndian 4 n ++ rest) = some n := by
  have htake : (littleEndian 4 n ++ rest).take 4 = littleEndian 4 n :=
    List.take_left' (length_littleEndian 4 n)
  have hlong : ¬(littleEndian 4 n ++ rest).length < 4 := by
    rw [List.length_append, length_littleEndian]
    omega
  have hvalue : ofLittleEndian (littleEndian 4 n) = n := by
    rw [ofLittleEndian_littleEndian]
    exact Nat.mod_eq_of_lt (Nat.lt_trans hn (by decide))
  rw [length?, if_neg hlong, htake, hvalue]
  exact if_pos hn

theorem untilZero?_append {name : Bytes} (rest : Bytes) (hname : 0 ∉ name) :
    untilZero? (name ++ 0 :: rest) = some (name, rest) := by
  induction name with
  | nil => rfl
  | cons byte name ih =>
      rw [List.mem_cons, not_or] at hname
      rw [List.cons_append, untilZero?, if_neg (Ne.symm hname.1), ih hname.2]
      rfl

theorem drop_littleEndian (n : Nat) (rest : Bytes) : (littleEndian 4 n ++ rest).drop 4 = rest :=
  List.drop_left' (length_littleEndian 4 n)

theorem length_frame (elements : Bytes) : (frame elements).length = elements.length + 5 := by
  simp only [frame, List.length_append, length_littleEndian, List.length_singleton]
  omega

theorem content?_frame {elements : Bytes} (hshort : (frame elements).length < twoTo 31) :
    content? (frame elements) = some elements := by
  rw [length_frame] at hshort
  have hlength : length? (frame elements) = some (frame elements).length := by
    rw [length_frame, frame, List.append_assoc]
    exact length?_littleEndian _ hshort
  have hlast : (frame elements).getLast? = some 0 := by
    rw [frame, List.getLast?_concat]
  have hlong : 5 ≤ (frame elements).length := by
    rw [length_frame]
    omega
  rw [content?, if_pos ⟨hlength, hlong, hlast⟩, frame, List.append_assoc, drop_littleEndian,
    List.dropLast_concat]

theorem length_stringBody (text : String) :
    (stringBody text).length = (Text.encode text).length + 5 := by
  simp only [stringBody, List.length_append, length_littleEndian, List.length_singleton]
  omega

theorem length?_stringBody {text : String} (rest : Bytes)
    (hshort : (stringBody text).length < twoTo 31) :
    length? (stringBody text ++ rest) = some ((stringBody text).length - 4) := by
  rw [length_stringBody] at hshort ⊢
  rw [stringBody, List.append_assoc, List.append_assoc]
  exact length?_littleEndian _ (by omega)

theorem string?_stringBody {text : String} (hshort : (stringBody text).length < twoTo 31) :
    string? (stringBody text) = some text := by
  have hlength := length?_stringBody [] hshort
  rw [List.append_nil] at hlength
  have hlong : 5 ≤ (stringBody text).length := by
    rw [length_stringBody]
    omega
  have hlast : (stringBody text).getLast? = some 0 := by
    rw [stringBody, List.getLast?_concat]
  rw [string?, if_pos ⟨hlength, hlong, hlast⟩, stringBody, List.append_assoc, drop_littleEndian,
    List.dropLast_concat, Text.decode?_encode]

/-- The two's complement of a signed integer is read as that integer. -/
theorem signed_littleEndian {n : Int} (hlower : -9223372036854775808 ≤ n)
    (hupper : n < 9223372036854775808) : signed (littleEndian 8 (n % twoTo 64).toNat) = n := by
  have hmodulus : (twoTo 64 : Int) = 18446744073709551616 := rfl
  have hvalue : ofLittleEndian (littleEndian 8 (n % twoTo 64).toNat) = (n % twoTo 64).toNat := by
    rw [ofLittleEndian_littleEndian]
    refine Nat.mod_eq_of_lt ?_
    show (n % twoTo 64).toNat < 18446744073709551616
    rw [hmodulus]
    omega
  simp only [signed, hvalue, length_littleEndian]
  show (if 2 * (n % twoTo 64).toNat < 18446744073709551616 then ((n % twoTo 64).toNat : Int)
    else ((n % twoTo 64).toNat : Int) - (18446744073709551616 : Nat)) = n
  rw [hmodulus]
  split <;> omega

/-- A floating-point number is written bit for bit. -/
theorem floatValue_littleEndian (x : FiniteFloat) :
    floatValue (littleEndian 8 x.number.bits.toNat) = .float x := by
  have hvalue : ofLittleEndian (littleEndian 8 x.number.bits.toNat) = x.number.bits.toNat := by
    rw [ofLittleEndian_littleEndian]
    exact Nat.mod_eq_of_lt x.number.bits.toNat_lt
  have hnumber : (⟨UInt64.ofNat x.number.bits.toNat⟩ : Binary64) = x.number := by
    rw [UInt64.ofNat_toNat]
  rw [floatValue, hvalue, hnumber, FiniteFloat.ofBinary64?_number]

/-! ## Elements -/

theorem elementBytes_append (tag : UInt8) (name body rest : Bytes) :
    elementBytes tag name body ++ rest = tag :: (name ++ 0 :: (body ++ rest)) := by
  simp only [elementBytes, List.cons_append, List.append_assoc]

/-- An element is cut from the front of a row if the size of its body is found. -/
theorem split?_elementBytes {tag : UInt8} {name body : Bytes} (rest : Bytes) (hname : 0 ∉ name)
    (hsize : bodySize? tag.toNat (body ++ rest) = some body.length) :
    Element.split? (elementBytes tag name body ++ rest) = some (⟨tag.toNat, name, body⟩, rest) := by
  have hfits : body.length ≤ (body ++ rest).length := by
    rw [List.length_append]
    omega
  simp only [elementBytes_append, Element.split?, untilZero?_append _ hname, hsize, if_pos hfits,
    List.take_left, List.drop_left]

theorem zero_notMem_indexName (index : Nat) : 0 ∉ indexName index := by
  refine Text.zero_notMem_encode_ofList fun c hdigit => ?_
  have hdigit := Nat.isDigit_of_mem_toDigits (by decide) (by decide) hdigit
  simp only [Char.isDigit, Bool.and_eq_true, decide_eq_true_eq] at hdigit
  exact Nat.lt_of_lt_of_le (by decide) (UInt32.le_iff_toNat_le.mp hdigit.1)

/-- The size of what is written of a value is found from its front, whatever follows. -/
theorem bodySize?_encodeValue? {value : Value} {tag : UInt8} {body : Bytes} (rest : Bytes)
    (hencode : encodeValue? value = some (tag, body)) (hshort : body.length < twoTo 31) :
    bodySize? tag.toNat (body ++ rest) = some body.length := by
  have hframe : ∀ elements, (frame elements).length < twoTo 31 →
      length? (frame elements ++ rest) = some (frame elements).length := by
    intro elements hshort
    rw [length_frame] at hshort ⊢
    rw [frame, List.append_assoc, List.append_assoc]
    exact length?_littleEndian _ hshort
  cases value with
  | null =>
      cases hencode
      rfl
  | bool flag =>
      cases hencode
      rfl
  | int n =>
      rw [encodeValue?] at hencode
      split at hencode
      · cases hencode
        rw [length_littleEndian]
        rfl
      · cases hencode
  | float x =>
      cases hencode
      rw [length_littleEndian]
      rfl
  | string text =>
      cases hencode
      show (length? (stringBody text ++ rest)).map (4 + ·) = _
      rw [length?_stringBody rest hshort, Option.map_some, length_stringBody]
      congr 1
      omega
  | array items =>
      obtain ⟨elements, -, hsame⟩ := Option.map_eq_some_iff.mp hencode
      cases hsame
      exact hframe elements hshort
  | object members =>
      obtain ⟨elements, -, hsame⟩ := Option.map_eq_some_iff.mp hencode
      cases hsame
      exact hframe elements hshort

/-! ## Values -/

/-- The first element of a row is read by itself. -/
theorem members?_elementBytes {tag : UInt8} {name body rest : Bytes} {text : String}
    {value : Value} {members : List (String × Value)} (hname : 0 ∉ name)
    (hsize : bodySize? tag.toNat (body ++ rest) = some body.length)
    (htext : Text.decode? name = some text) (hvalue : value? tag.toNat body = some value)
    (hmembers : members? rest = some members) :
    members? (elementBytes tag name body ++ rest) = some ((text, value) :: members) := by
  have hsplit := split?_elementBytes rest hname hsize
  rw [members?]
  split
  · rename_i hempty
    rw [elementBytes_append] at hempty
    cases hempty
  · split
    · rename_i hnone
      rw [hsplit] at hnone
      cases hnone
    · rename_i hsome
      rw [hsplit] at hsome
      cases hsome
      simp only [htext, hvalue, hmembers]

theorem value?_frame {tag : Nat} {elements : Bytes} {members : List (String × Value)}
    (htag : tag = 0x03 ∨ tag = 0x04) (hshort : (frame elements).length < twoTo 31)
    (hmembers : members? elements = some members) :
    value? tag (frame elements) =
      some (if tag = 0x03 then .object (Payload.ofMembers members)
        else .array (members.map (·.2))) := by
  have hcontent := content?_frame hshort
  rw [value?, if_pos htag]
  split
  · rename_i hnone
    rw [hcontent] at hnone
    cases hnone
  · rename_i hsome
    rw [hcontent] at hsome
    cases hsome
    rw [hmembers]
    rfl

theorem value?_leaf {tag : Nat} {body : Bytes} (hcontainer : ¬(tag = 0x03 ∨ tag = 0x04))
    (hscope : tag ≠ 0x0F) : value? tag body = leafValue? tag body := by
  rw [value?, if_neg hcontainer, if_neg hscope]

theorem length_elementBytes_append (tag : UInt8) (name body rest : Bytes) :
    (elementBytes tag name body ++ rest).length = name.length + body.length + rest.length + 2 := by
  simp only [elementBytes_append, List.length_cons, List.length_append]
  omega

mutual

/-- What is written of a value is read as that value. -/
theorem value?_encodeValue? (value : Value) {tag : UInt8} {body : Bytes}
    (hencode : encodeValue? value = some (tag, body)) (hwell : value.WellFormed)
    (hshort : body.length < twoTo 31) : value? tag.toNat body = some value := by
  cases value with
  | null =>
      cases hencode
      rw [value?_leaf (by decide) (by decide)]
      rfl
  | bool flag =>
      cases hencode
      rw [value?_leaf (by decide) (by decide)]
      cases flag <;> rfl
  | int n =>
      rw [encodeValue?] at hencode
      split at hencode
      · rename_i hsigned
        cases hencode
        rw [value?_leaf (by decide) (by decide)]
        show intValue? (signed (littleEndian 8 (n.val % twoTo 64).toNat)) = some (.int n)
        rw [signed_littleEndian n.lower (of_decide_eq_true hsigned), intValue?, WideInt.ofInt?_val]
        rfl
      · cases hencode
  | float x =>
      cases hencode
      rw [value?_leaf (by decide) (by decide)]
      exact congrArg some (floatValue_littleEndian x)
  | string text =>
      cases hencode
      rw [value?_leaf (by decide) (by decide)]
      exact congrArg (Option.map Value.string) (string?_stringBody hshort)
  | array items =>
      obtain ⟨elements, hitems, hsame⟩ := Option.map_eq_some_iff.mp hencode
      cases hsame
      have helements : elements.length < twoTo 31 := by
        rw [length_frame] at hshort
        omega
      obtain ⟨members, hmembers, hvalues⟩ := members?_encodeItems? items hitems hwell helements
      show value? 0x04 (frame elements) = some (.array items)
      rw [value?_frame (.inr rfl) hshort hmembers, hvalues]
      rfl
  | object members =>
      obtain ⟨elements, hencoded, hsame⟩ := Option.map_eq_some_iff.mp hencode
      cases hsame
      have helements : elements.length < twoTo 31 := by
        rw [length_frame] at hshort
        omega
      have hmembers := members?_encodeMembers? members hencoded hwell.2 helements
      show value? 0x03 (frame elements) = some (.object members)
      rw [value?_frame (.inl rfl) hshort hmembers, Payload.ofMembers_of_nodup hwell.1]
      rfl

/-- What is written of the items of an array is read as a row with these values. -/
theorem members?_encodeItems? (items : List Value) {index : Nat} {elements : Bytes}
    (hencode : encodeItems? index items = some elements) (hwell : Value.WellFormedItems items)
    (hshort : elements.length < twoTo 31) :
    ∃ members, members? elements = some members ∧ members.map (·.2) = items := by
  cases items with
  | nil =>
      cases hencode
      exact ⟨[], by rw [members?]; rfl, rfl⟩
  | cons item rest =>
      simp only [encodeItems?, Option.bind_eq_bind, Option.bind_eq_some_iff] at hencode
      obtain ⟨⟨tag, body⟩, hitem, more, hrest, hsame⟩ := hencode
      dsimp only at hsame
      cases hsame
      rw [length_elementBytes_append] at hshort
      have hvalue := value?_encodeValue? item hitem hwell.1 (by omega)
      obtain ⟨members, hmembers, hvalues⟩ := members?_encodeItems? rest hrest hwell.2 (by omega)
      refine ⟨(toString index, item) :: members, ?_, by rw [List.map_cons, hvalues]⟩
      exact members?_elementBytes (zero_notMem_indexName index)
        (bodySize?_encodeValue? more hitem (by omega)) (Text.decode?_encode _) hvalue hmembers

/-- What is written of the members of a map is read as these members. -/
theorem members?_encodeMembers? (members : List (String × Value)) {elements : Bytes}
    (hencode : encodeMembers? members = some elements) (hwell : Value.WellFormedMembers members)
    (hshort : elements.length < twoTo 31) : members? elements = some members := by
  cases members with
  | nil =>
      cases hencode
      rw [members?]
      rfl
  | cons member rest =>
      obtain ⟨name, value⟩ := member
      simp only [encodeMembers?, Option.bind_eq_bind] at hencode
      split at hencode
      · cases hencode
      · rename_i hzero
        have hname : 0 ∉ Text.encode name := fun hmem => hzero (List.contains_iff_mem.mpr hmem)
        simp only [Option.bind_eq_some_iff] at hencode
        obtain ⟨⟨tag, body⟩, hvalue, more, hrest, hsame⟩ := hencode
        dsimp only at hsame
        cases hsame
        rw [length_elementBytes_append] at hshort
        have hread := value?_encodeValue? value hvalue hwell.1 (by omega)
        have hmembers := members?_encodeMembers? rest hrest hwell.2 (by omega)
        exact members?_elementBytes hname (bodySize?_encodeValue? more hvalue (by omega))
          (Text.decode?_encode _) hread hmembers

end

/-- **What is written of a payload is read as that payload.** -/
theorem decode?_encode? {payload : Payload} {bytes : Bytes}
    (hencode : encode? payload = some bytes) (hwell : (Value.object payload).WellFormed)
    (hshort : bytes.length < twoTo 31) : decode? bytes = some payload := by
  obtain ⟨elements, helements, rfl⟩ := Option.map_eq_some_iff.mp hencode
  have hmembers := members?_encodeMembers? payload helements hwell.2 (by
    rw [length_frame] at hshort
    omega)
  rw [decode?, content?_frame hshort, Option.bind_eq_bind, Option.bind_some, hmembers,
    Option.bind_eq_bind, Option.bind_some, Payload.ofMembers_of_nodup hwell.1]
  rfl

end Clearing.BinaryDocument
