import Clearing.Payload.Binary.Reader
import Clearing.Proofs.Payload.Nesting

/-!
# What is read of a binary document is well formed

Documents may repeat names; the maps that are read of them do not, and neither do the small
maps that stand for the kinds of values payloads do not have (`wellFormed_of_decode?`).
There is no bound on how deep they are nested.  A document is shorter than its own length
can say (`length_lt_of_decode?`).
-/

namespace Clearing.BinaryDocument

/-! ## Values without documents inside -/

theorem wellFormed_single {name : String} {value : Value} (hvalue : value.WellFormed) :
    (single name value).WellFormed :=
  ⟨by simp [Payload.names], hvalue, trivial⟩

theorem wellFormed_pair {first second : String} {left right : Value} (hnames : first ≠ second)
    (hleft : left.WellFormed) (hright : right.WellFormed) :
    (Value.object [(first, left), (second, right)]).WellFormed :=
  ⟨by simp [Payload.names, hnames], hleft, hright, trivial⟩

theorem wellFormed_of_intValue? {n : Int} {value : Value} (hvalue : intValue? n = some value) :
    value.WellFormed := by
  obtain ⟨wide, -, rfl⟩ := Option.map_eq_some_iff.mp hvalue
  trivial

theorem wellFormed_floatValue (body : Bytes) : (floatValue body).WellFormed := by
  unfold floatValue
  split <;> trivial

theorem wellFormed_of_binaryValue? {body : Bytes} {value : Value}
    (hvalue : binaryValue? body = some value) : value.WellFormed := by
  unfold binaryValue? at hvalue
  split at hvalue
  · cases hvalue
  · obtain ⟨content, -, rfl⟩ := Option.map_eq_some_iff.mp hvalue
    exact wellFormed_single (wellFormed_pair (by decide) trivial trivial)

theorem wellFormed_of_patternValue? {body : Bytes} {value : Value}
    (hvalue : patternValue? body = some value) : value.WellFormed := by
  simp only [patternValue?, Option.bind_eq_bind, Option.bind_eq_some_iff] at hvalue
  obtain ⟨-, -, -, -, pattern, -, options, -, hsame⟩ := hvalue
  cases hsame
  exact wellFormed_single (wellFormed_pair (by decide) trivial trivial)

theorem wellFormed_of_stampValue? {body : Bytes} {value : Value}
    (hvalue : stampValue? body = some value) : value.WellFormed := by
  simp only [stampValue?, Option.bind_eq_bind, Option.bind_eq_some_iff] at hvalue
  obtain ⟨increment, hincrement, time, htime, hsame⟩ := hvalue
  cases hsame
  exact wellFormed_single (wellFormed_pair (by decide) (wellFormed_of_intValue? htime)
    (wellFormed_of_intValue? hincrement))

theorem wellFormed_of_leafValue? {tag : Nat} {body : Bytes} {value : Value}
    (hvalue : leafValue? tag body = some value) : value.WellFormed := by
  unfold leafValue? at hvalue
  split at hvalue
  · cases hvalue
    exact wellFormed_floatValue body
  · obtain ⟨text, -, rfl⟩ := Option.map_eq_some_iff.mp hvalue
    trivial
  · exact wellFormed_of_binaryValue? hvalue
  · cases hvalue
    exact wellFormed_single trivial
  · cases hvalue
    exact wellFormed_single trivial
  · split at hvalue
    · cases hvalue
      trivial
    · split at hvalue <;> cases hvalue
      trivial
  · cases hvalue
    exact wellFormed_single (wellFormed_single trivial)
  · cases hvalue
    trivial
  · exact wellFormed_of_patternValue? hvalue
  · obtain ⟨text, -, hsame⟩ := Option.bind_eq_some_iff.mp hvalue
    cases hsame
    exact wellFormed_single (wellFormed_pair (by decide) trivial (wellFormed_single trivial))
  · obtain ⟨code, -, rfl⟩ := Option.map_eq_some_iff.mp hvalue
    exact wellFormed_single trivial
  · obtain ⟨name, -, rfl⟩ := Option.map_eq_some_iff.mp hvalue
    exact wellFormed_single trivial
  · exact wellFormed_of_intValue? hvalue
  · exact wellFormed_of_stampValue? hvalue
  · exact wellFormed_of_intValue? hvalue
  · obtain ⟨key, hkey, rfl⟩ := Option.map_eq_some_iff.mp hvalue
    exact wellFormed_single (wellFormed_of_intValue? hkey)
  · obtain ⟨key, hkey, rfl⟩ := Option.map_eq_some_iff.mp hvalue
    exact wellFormed_single (wellFormed_of_intValue? hkey)
  · cases hvalue

/-! ## Documents -/

mutual

theorem wellFormed_of_members? {bytes : Bytes} {members : List (String × Value)}
    (hread : members? bytes = some members) : ∀ member ∈ members, member.2.WellFormed := by
  rw [members?] at hread
  split at hread
  · cases hread
    nofun
  · split at hread
    · cases hread
    · rename_i element rest hsplit
      have := split?_length hsplit
      split at hread
      · rename_i name value more hname hvalue hmore
        cases hread
        intro member hmem
        rcases List.mem_cons.mp hmem with hfirst | hrest
        · rw [hfirst]
          exact wellFormed_of_value? hvalue
        · exact wellFormed_of_members? hmore member hrest
      · cases hread
termination_by bytes.length

theorem wellFormed_of_value? {tag : Nat} {body : Bytes} {value : Value}
    (hread : value? tag body = some value) : value.WellFormed := by
  rw [value?] at hread
  split at hread
  · split at hread
    · cases hread
    · rename_i content hcontent
      have := content?_length hcontent
      obtain ⟨members, hmembers, rfl⟩ := Option.map_eq_some_iff.mp hread
      have hparts := wellFormed_of_members? hmembers
      split
      · exact Value.wellFormed_ofMembers hparts
      · refine Value.wellFormedItems_iff.mpr fun item hitem => ?_
        obtain ⟨member, hmember, rfl⟩ := List.mem_map.mp hitem
        exact hparts member hmember
  · split at hread
    · split at hread
      · cases hread
      · rename_i code scope hcode
        have := scopedCode?_length hcode
        split at hread
        · cases hread
        · rename_i content hcontent
          have := content?_length hcontent
          obtain ⟨members, hmembers, rfl⟩ := Option.map_eq_some_iff.mp hread
          have hparts := wellFormed_of_members? hmembers
          exact wellFormed_pair (by decide) trivial (Value.wellFormed_ofMembers hparts)
    · exact wellFormed_of_leafValue? hread
termination_by body.length

end

/-- **The payload of a document is well formed.** -/
theorem wellFormed_of_decode? {bytes : Bytes} {payload : Payload}
    (hdecode : decode? bytes = some payload) : (Value.object payload).WellFormed := by
  simp only [decode?, Option.bind_eq_bind, Option.bind_eq_some_iff] at hdecode
  obtain ⟨content, -, members, hmembers, hsame⟩ := hdecode
  cases hsame
  exact Value.wellFormed_ofMembers (wellFormed_of_members? hmembers)

/-! ## Frames -/

/-- A document states its own length and ends with a zero byte. -/
theorem framed_of_decode? {bytes : Bytes} {payload : Payload}
    (hdecode : decode? bytes = some payload) :
    length? bytes = some bytes.length ∧ 5 ≤ bytes.length ∧ bytes.getLast? = some 0 := by
  simp only [decode?, Option.bind_eq_bind, Option.bind_eq_some_iff] at hdecode
  obtain ⟨content, hcontent, -⟩ := hdecode
  rw [content?] at hcontent
  split at hcontent
  · rename_i hframed
    exact hframed
  · cases hcontent

theorem length?_lt {bytes : Bytes} {n : Nat} (hlength : length? bytes = some n) : n < twoTo 31 := by
  unfold length? at hlength
  split at hlength
  · cases hlength
  · dsimp only at hlength
    split at hlength
    · rename_i hlt
      cases hlength
      exact hlt
    · cases hlength

theorem length_lt_of_decode? {bytes : Bytes} {payload : Payload}
    (hdecode : decode? bytes = some payload) : bytes.length < twoTo 31 :=
  length?_lt (framed_of_decode? hdecode).1

theorem zero_mem_of_decode? {bytes : Bytes} {payload : Payload}
    (hdecode : decode? bytes = some payload) : 0 ∈ bytes :=
  List.mem_of_getLast? (framed_of_decode? hdecode).2.2

end Clearing.BinaryDocument
