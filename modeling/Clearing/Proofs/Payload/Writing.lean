import Clearing.Payload.Binary.Writer
import Clearing.Proofs.Payload.Shape

/-!
# Which payloads have a binary form

A binary document has no room for an integer that needs the unsigned range, and none for a
name with a zero byte in it.  A payload without either of them has a binary form, and no
other payload has one (`isSome_encode?_iff`).

A binary document cannot hold what it has no room for.  So whatever was read of one can be
written again, also the small maps that stand for the kinds of values payloads do not have
(`writable_of_decode?`).
-/

namespace Clearing

namespace Value

mutual

/-- Every integer inside the value is signed, and no name inside it has a zero byte. -/
def Writable : Value → Prop
  | .int n => n.isSigned = true
  | .array items => WritableItems items
  | .object members => WritableMembers members
  | _ => True

/-- Every item is writable. -/
def WritableItems : List Value → Prop
  | [] => True
  | item :: rest => item.Writable ∧ WritableItems rest

/-- Every member's value is writable, and its name has no zero byte. -/
def WritableMembers : List (String × Value) → Prop
  | [] => True
  | (name, value) :: rest => 0 ∉ Text.encode name ∧ value.Writable ∧ WritableMembers rest

end

theorem writableItems_iff {items : List Value} :
    WritableItems items ↔ ∀ item ∈ items, item.Writable := by
  induction items with
  | nil => simp [WritableItems]
  | cons item rest ih => rw [WritableItems, ih, List.forall_mem_cons]

theorem writableMembers_iff {members : List (String × Value)} :
    WritableMembers members ↔
      ∀ member ∈ members, 0 ∉ Text.encode member.1 ∧ member.2.Writable := by
  induction members with
  | nil => simp [WritableMembers]
  | cons member rest ih => rw [WritableMembers, ih, List.forall_mem_cons, and_assoc]

/-- A map keeps no member that it was not made of. -/
theorem writable_ofMembers {members : List (String × Value)} (hmembers : WritableMembers members) :
    (Value.object (Payload.ofMembers members)).Writable := by
  rw [Writable, writableMembers_iff]
  intro member hmem
  exact writableMembers_iff.mp hmembers member (Payload.mem_of_mem_ofMembers hmem)

end Value

namespace BinaryDocument

/-! ## Writing -/

mutual

theorem isSome_encodeValue?_iff (value : Value) :
    (encodeValue? value).isSome = true ↔ value.Writable := by
  cases value with
  | null => simp [encodeValue?, Value.Writable]
  | bool value => simp [encodeValue?, Value.Writable]
  | int n =>
      rw [encodeValue?, Value.Writable]
      split <;> simp_all
  | float x => simp [encodeValue?, Value.Writable]
  | string text => simp [encodeValue?, Value.Writable]
  | array items =>
      rw [encodeValue?, Option.isSome_map, Value.Writable]
      exact isSome_encodeItems?_iff items 0
  | object members =>
      rw [encodeValue?, Option.isSome_map, Value.Writable]
      exact isSome_encodeMembers?_iff members

theorem isSome_encodeItems?_iff (items : List Value) (index : Nat) :
    (encodeItems? index items).isSome = true ↔ Value.WritableItems items := by
  cases items with
  | nil => simp [encodeItems?, Value.WritableItems]
  | cons item rest =>
      rw [Value.WritableItems, ← isSome_encodeValue?_iff item,
        ← isSome_encodeItems?_iff rest (index + 1), encodeItems?]
      cases encodeValue? item with
      | none => simp
      | some element => cases encodeItems? (index + 1) rest <;> simp

theorem isSome_encodeMembers?_iff (members : List (String × Value)) :
    (encodeMembers? members).isSome = true ↔ Value.WritableMembers members := by
  match members with
  | [] => simp [encodeMembers?, Value.WritableMembers]
  | (name, value) :: rest =>
      rw [Value.WritableMembers, ← isSome_encodeValue?_iff value, ← isSome_encodeMembers?_iff rest,
        encodeMembers?]
      by_cases hname : 0 ∈ Text.encode name
      · simp [hname]
      · cases encodeValue? value with
        | none => simp [hname]
        | some element => cases encodeMembers? rest <;> simp [hname]

end

/-- **A payload has a binary form exactly if a binary document has room for all of it.** -/
theorem isSome_encode?_iff (payload : Payload) :
    (encode? payload).isSome = true ↔ (Value.object payload).Writable := by
  rw [encode?, Option.isSome_map, Value.Writable]
  exact isSome_encodeMembers?_iff payload

/-! ## Numbers of four and eight bytes -/

theorem ofLittleEndian_lt (bytes : Bytes) : ofLittleEndian bytes < twoTo (8 * bytes.length) := by
  induction bytes with
  | nil => decide
  | cons byte rest ih =>
      have hbyte := byte.toNat_lt
      rw [ofLittleEndian, List.length_cons, Nat.mul_succ, twoTo_add]
      have height : twoTo 8 = 256 := rfl
      rw [height]
      omega

theorem twoTo_le_twoTo {m n : Nat} (hle : m ≤ n) : twoTo m ≤ twoTo n := by
  obtain ⟨more, rfl⟩ := Nat.exists_eq_add_of_le hle
  rw [twoTo_add]
  exact Nat.le_mul_of_pos_right _ (twoTo_pos more)

theorem writable_of_intValue? {n : Int} {value : Value} (hsigned : n < 9223372036854775808)
    (hvalue : intValue? n = some value) : value.Writable := by
  obtain ⟨wide, hwide, rfl⟩ := Option.map_eq_some_iff.mp hvalue
  rw [WideInt.ofInt?] at hwide
  split at hwide
  · cases hwide
    exact decide_eq_true hsigned
  · cases hwide

/-- Eight bytes in two's complement are a signed number. -/
theorem signed_lt {bytes : Bytes} (hlength : bytes.length ≤ 8) :
    signed bytes < 9223372036854775808 := by
  have hlt := ofLittleEndian_lt bytes
  have hle : twoTo (8 * bytes.length) ≤ twoTo 64 := twoTo_le_twoTo (by omega)
  have hmodulus : twoTo 64 = 18446744073709551616 := rfl
  simp only [signed]
  split <;> omega

/-- Four bytes are too few for a number that needs the unsigned range. -/
theorem ofLittleEndian_lt_of_length_le {bytes : Bytes} (hlength : bytes.length ≤ 4) :
    (ofLittleEndian bytes : Int) < 9223372036854775808 := by
  have hlt := ofLittleEndian_lt bytes
  have hle : twoTo (8 * bytes.length) ≤ twoTo 32 := twoTo_le_twoTo (by omega)
  have hmodulus : twoTo 32 = 4294967296 := rfl
  omega

/-! ## Values without documents inside -/

theorem writable_single {name : String} {value : Value} (hname : 0 ∉ Text.encode name)
    (hvalue : value.Writable) : (single name value).Writable :=
  ⟨hname, hvalue, trivial⟩

theorem writable_pair {first second : String} {left right : Value}
    (hfirst : 0 ∉ Text.encode first) (hsecond : 0 ∉ Text.encode second)
    (hleft : left.Writable) (hright : right.Writable) :
    (Value.object [(first, left), (second, right)]).Writable :=
  ⟨hfirst, hleft, hsecond, hright, trivial⟩

theorem writable_floatValue (body : Bytes) : (floatValue body).Writable := by
  unfold floatValue
  split <;> trivial

theorem writable_identifier (body : Bytes) : (identifier body).Writable :=
  writable_single (by decide) trivial

theorem writable_of_binaryValue? {body : Bytes} {value : Value}
    (hvalue : binaryValue? body = some value) : value.Writable := by
  unfold binaryValue? at hvalue
  split at hvalue
  · cases hvalue
  · obtain ⟨content, -, rfl⟩ := Option.map_eq_some_iff.mp hvalue
    exact writable_single (by decide) (writable_pair (by decide) (by decide) trivial trivial)

theorem writable_of_patternValue? {body : Bytes} {value : Value}
    (hvalue : patternValue? body = some value) : value.Writable := by
  simp only [patternValue?, Option.bind_eq_bind, Option.bind_eq_some_iff] at hvalue
  obtain ⟨-, -, -, -, pattern, -, options, -, hsame⟩ := hvalue
  cases hsame
  exact writable_single (by decide) (writable_pair (by decide) (by decide) trivial trivial)

theorem writable_of_stampValue? {body : Bytes} {value : Value} (hlength : body.length ≤ 8)
    (hvalue : stampValue? body = some value) : value.Writable := by
  simp only [stampValue?, Option.bind_eq_bind, Option.bind_eq_some_iff] at hvalue
  obtain ⟨increment, hincrement, time, htime, hsame⟩ := hvalue
  cases hsame
  have hfirst : (body.take 4).length ≤ 4 := List.length_take_le 4 body
  have hsecond : (body.drop 4).length ≤ 4 := by
    rw [List.length_drop]
    omega
  exact writable_single (by decide) (writable_pair (by decide) (by decide)
    (writable_of_intValue? (ofLittleEndian_lt_of_length_le hsecond) htime)
    (writable_of_intValue? (ofLittleEndian_lt_of_length_le hfirst) hincrement))

/-- The body of a number has no more bytes than the number has. -/
def HoldsNumber (tag : Nat) (body : Bytes) : Prop :=
  tag = 0x10 ∨ tag = 0x11 ∨ tag = 0x12 → body.length ≤ 8

theorem writable_of_leafValue? {tag : Nat} {body : Bytes} {value : Value}
    (hsize : HoldsNumber tag body) (hvalue : leafValue? tag body = some value) :
    value.Writable := by
  unfold leafValue? at hvalue
  split at hvalue
  · cases hvalue
    exact writable_floatValue body
  · obtain ⟨text, -, rfl⟩ := Option.map_eq_some_iff.mp hvalue
    trivial
  · exact writable_of_binaryValue? hvalue
  · cases hvalue
    exact writable_single (by decide) trivial
  · cases hvalue
    exact writable_identifier body
  · split at hvalue
    · cases hvalue
      trivial
    · split at hvalue <;> cases hvalue
      trivial
  · cases hvalue
    exact writable_single (by decide) (writable_single (by decide) trivial)
  · cases hvalue
    trivial
  · exact writable_of_patternValue? hvalue
  · obtain ⟨text, -, hsame⟩ := Option.bind_eq_some_iff.mp hvalue
    cases hsame
    exact writable_single (by decide) (writable_pair (by decide) (by decide) trivial
      (writable_identifier _))
  · obtain ⟨code, -, rfl⟩ := Option.map_eq_some_iff.mp hvalue
    exact writable_single (by decide) trivial
  · obtain ⟨name, -, rfl⟩ := Option.map_eq_some_iff.mp hvalue
    exact writable_single (by decide) trivial
  · exact writable_of_intValue? (signed_lt (hsize (by decide))) hvalue
  · exact writable_of_stampValue? (hsize (by decide)) hvalue
  · exact writable_of_intValue? (signed_lt (hsize (by decide))) hvalue
  · obtain ⟨key, hkey, rfl⟩ := Option.map_eq_some_iff.mp hvalue
    exact writable_single (by decide) (writable_of_intValue? (by decide) hkey)
  · obtain ⟨key, hkey, rfl⟩ := Option.map_eq_some_iff.mp hvalue
    exact writable_single (by decide) (writable_of_intValue? (by decide) hkey)
  · cases hvalue

/-! ## Documents -/

theorem zero_notMem_of_untilZero? {bytes name rest : Bytes}
    (hparts : untilZero? bytes = some (name, rest)) : 0 ∉ name := by
  induction bytes generalizing name with
  | nil => cases hparts
  | cons byte bytes ih =>
      rw [untilZero?] at hparts
      split at hparts
      · cases hparts
        exact List.not_mem_nil
      · rename_i hbyte
        obtain ⟨parts, hrest, hsame⟩ := Option.map_eq_some_iff.mp hparts
        cases hsame
        exact List.not_mem_cons_of_ne_of_not_mem (Ne.symm hbyte) (ih hrest)

/-- An element is cut after its name and has the size of its kind. -/
theorem shape_of_split? {bytes rest : Bytes} {element : Element}
    (hsplit : Element.split? bytes = some (element, rest)) :
    0 ∉ element.name ∧ HoldsNumber element.tag element.body := by
  cases bytes with
  | nil => cases hsplit
  | cons tag bytes =>
      rw [Element.split?] at hsplit
      split at hsplit
      · cases hsplit
      · rename_i name after hname
        split at hsplit
        · cases hsplit
        · rename_i size hsize
          split at hsplit
          · cases hsplit
            refine ⟨zero_notMem_of_untilZero? hname, ?_⟩
            intro htag
            refine Nat.le_trans (List.length_take_le size after) ?_
            rcases htag with htag | htag | htag <;>
            · dsimp only at htag
              rw [htag] at hsize
              cases hsize
              decide
          · cases hsplit

mutual

theorem writable_of_members? {bytes : Bytes} {members : List (String × Value)}
    (hread : members? bytes = some members) : Value.WritableMembers members := by
  rw [members?] at hread
  split at hread
  · cases hread
    trivial
  · split at hread
    · cases hread
    · rename_i element rest hsplit
      have := split?_length hsplit
      obtain ⟨hzero, hsize⟩ := shape_of_split? hsplit
      split at hread
      · rename_i name value more hname hvalue hmore
        cases hread
        rw [← Text.encode_of_decode? hname] at hzero
        exact ⟨hzero, writable_of_value? hsize hvalue, writable_of_members? hmore⟩
      · cases hread
termination_by bytes.length

theorem writable_of_value? {tag : Nat} {body : Bytes} {value : Value}
    (hsize : HoldsNumber tag body) (hread : value? tag body = some value) : value.Writable := by
  rw [value?] at hread
  split at hread
  · split at hread
    · cases hread
    · rename_i content hcontent
      have := content?_length hcontent
      obtain ⟨members, hmembers, rfl⟩ := Option.map_eq_some_iff.mp hread
      have hparts := writable_of_members? hmembers
      split
      · exact Value.writable_ofMembers hparts
      · refine Value.writableItems_iff.mpr fun item hitem => ?_
        obtain ⟨member, hmember, rfl⟩ := List.mem_map.mp hitem
        exact (Value.writableMembers_iff.mp hparts member hmember).2
  · split at hread
    · split at hread
      · cases hread
      · rename_i code scope hcode
        have := scopedCode?_length hcode
        split at hread
        · cases hread
        · rename_i content hcontent
          have := content?_length hcontent
          obtain ⟨members, hmembers, rfl⟩ := Option.map_eq_some_iff.mp hread
          have hparts := writable_of_members? hmembers
          exact writable_pair (by decide) (by decide) trivial (Value.writable_ofMembers hparts)
    · exact writable_of_leafValue? hsize hread
termination_by body.length

end

/-- **What a binary document holds can be written again.** -/
theorem writable_of_decode? {bytes : Bytes} {payload : Payload}
    (hdecode : decode? bytes = some payload) : (Value.object payload).Writable := by
  simp only [decode?, Option.bind_eq_bind, Option.bind_eq_some_iff] at hdecode
  obtain ⟨content, -, members, hmembers, hsame⟩ := hdecode
  cases hsame
  exact Value.writable_ofMembers (writable_of_members? hmembers)

end BinaryDocument

end Clearing
