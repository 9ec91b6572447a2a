import Clearing.Payload.Value

/-!
# How deep values are nested

The depth of a value is the number of containers around its innermost part.  A reader of
text allows so many and no more, and what it returns is nested no deeper than it allows
(`within_of_ofJson?`); a greater allowance changes nothing about what was read
(`ofJson?_mono`).

Names that repeat in a text are gone in the value, and what stood under them with them, so
the text may be nested deeper than its value.
-/

namespace Clearing

namespace Payload

/-- What is in a map was in the members that it was made of. -/
theorem mem_insert {α : Type} {members : List (String × α)} {name : String} {value : α}
    {member : String × α} (hmem : member ∈ insert members name value) :
    member ∈ members ∨ member = (name, value) := by
  induction members with
  | nil => exact .inr (List.mem_singleton.mp hmem)
  | cons first rest ih =>
      rw [insert] at hmem
      split at hmem
      · rcases List.mem_cons.mp hmem with hnew | hrest
        · exact .inr hnew
        · exact .inl (List.mem_cons_of_mem _ hrest)
      · rcases List.mem_cons.mp hmem with hfirst | hrest
        · exact .inl (hfirst ▸ List.mem_cons_self)
        · exact (ih hrest).imp_left (List.mem_cons_of_mem _)

theorem mem_of_mem_ofMembers {α : Type} {members : List (String × α)} {member : String × α}
    (hmem : member ∈ ofMembers members) : member ∈ members := by
  have hfold : ∀ (rest start : List (String × α)),
      member ∈ rest.foldl (fun map other => insert map other.1 other.2) start →
        member ∈ start ∨ member ∈ rest := by
    intro rest
    induction rest with
    | nil => exact fun start hstart => .inl hstart
    | cons first rest ih =>
        intro start hstart
        rcases ih _ hstart with hinsert | hrest
        · rcases mem_insert hinsert with hold | rfl
          · exact .inl hold
          · exact .inr List.mem_cons_self
        · exact .inr (List.mem_cons_of_mem _ hrest)
  exact (hfold members [] hmem).resolve_left List.not_mem_nil

end Payload

namespace Value

mutual

/-- The number of containers around the innermost part of a value. -/
def depth : Value → Nat
  | .array items => depthOfItems items + 1
  | .object members => depthOfMembers members + 1
  | _ => 0

/-- The depth of the deepest item. -/
def depthOfItems : List Value → Nat
  | [] => 0
  | item :: rest => max item.depth (depthOfItems rest)

/-- The depth of the deepest member. -/
def depthOfMembers : List (String × Value) → Nat
  | [] => 0
  | (_, value) :: rest => max value.depth (depthOfMembers rest)

end

/-! ## Containers and their parts -/

theorem depthOfItems_le_iff {items : List Value} {bound : Nat} :
    depthOfItems items ≤ bound ↔ ∀ item ∈ items, item.depth ≤ bound := by
  induction items with
  | nil => simp [depthOfItems]
  | cons item rest ih => rw [depthOfItems, Nat.max_le, ih, List.forall_mem_cons]

theorem depthOfMembers_le_iff {members : List (String × Value)} {bound : Nat} :
    depthOfMembers members ≤ bound ↔ ∀ member ∈ members, member.2.depth ≤ bound := by
  induction members with
  | nil => simp [depthOfMembers]
  | cons member rest ih => rw [depthOfMembers, Nat.max_le, ih, List.forall_mem_cons]

theorem wellFormedItems_iff {items : List Value} :
    WellFormedItems items ↔ ∀ item ∈ items, item.WellFormed := by
  induction items with
  | nil => simp [WellFormedItems]
  | cons item rest ih => simp [WellFormedItems, ih]

theorem wellFormedMembers_iff {members : List (String × Value)} :
    WellFormedMembers members ↔ ∀ member ∈ members, member.2.WellFormed := by
  induction members with
  | nil => simp [WellFormedMembers]
  | cons member rest ih => simp [WellFormedMembers, ih]

/-- A map that is made of well-formed values is well formed, however names repeat. -/
theorem wellFormed_ofMembers {members : List (String × Value)}
    (hmembers : ∀ member ∈ members, member.2.WellFormed) :
    (Value.object (Payload.ofMembers members)).WellFormed := by
  refine ⟨Payload.nodup_names_ofMembers members, wellFormedMembers_iff.mpr fun member hmember => ?_⟩
  exact hmembers member (Payload.mem_of_mem_ofMembers hmember)

/-! ## Reading within a depth -/

/-- The value is well formed and has at most so many nested containers. -/
structure Within (bound : Nat) (value : Value) : Prop where
  wellFormed : value.WellFormed
  depth_le : value.depth ≤ bound

theorem within_int (bound : Nat) (n : WideInt) : Within bound (.int n) :=
  ⟨trivial, Nat.zero_le _⟩

theorem within_float (bound : Nat) (x : FiniteFloat) : Within bound (.float x) :=
  ⟨trivial, Nat.zero_le _⟩

theorem within_array {bound : Nat} {items : List Value}
    (hitems : ∀ item ∈ items, Within bound item) : Within (bound + 1) (.array items) where
  wellFormed := wellFormedItems_iff.mpr fun item hitem => (hitems item hitem).wellFormed
  depth_le := Nat.succ_le_succ <| depthOfItems_le_iff.mpr fun item hitem =>
    (hitems item hitem).depth_le

/-- A map is no deeper than the members that it was made of, and may be less deep. -/
theorem within_ofMembers {bound : Nat} {members : List (String × Value)}
    (hmembers : ∀ member ∈ members, Within bound member.2) :
    Within (bound + 1) (.object (Payload.ofMembers members)) where
  wellFormed := wellFormed_ofMembers fun member hmember => (hmembers member hmember).wellFormed
  depth_le := Nat.succ_le_succ <| depthOfMembers_le_iff.mpr fun member hmember =>
    (hmembers member (Payload.mem_of_mem_ofMembers hmember)).depth_le

/-- A number that was read is an integer or a double. -/
theorem within_of_ofNumeral? {bound : Nat} {numeral : Numeral} {value : Value}
    (hread : ofNumeral? numeral = some value) : Within bound value := by
  have hfloat (hread : (FiniteFloat.ofBinary64? (Binary64.ofNumeral numeral)).map Value.float =
      some value) : Within bound value := by
    obtain ⟨x, -, rfl⟩ := Option.map_eq_some_iff.mp hread
    exact within_float bound x
  unfold ofNumeral? at hread
  dsimp only at hread
  split at hread
  · split at hread
    · cases hread
      exact within_int bound _
    · exact hfloat hread
  · exact hfloat hread

mutual

/-- **What is read within a depth is well formed and nested no deeper.** -/
theorem within_of_ofJson? {bound : Nat} {json : Json} {value : Value}
    (hread : ofJson? bound json = some value) : Within bound value := by
  cases json with
  | null =>
      cases hread
      exact ⟨trivial, Nat.zero_le _⟩
  | bool flag =>
      cases hread
      exact ⟨trivial, Nat.zero_le _⟩
  | number numeral => exact within_of_ofNumeral? hread
  | string content =>
      obtain ⟨text, -, rfl⟩ := Option.map_eq_some_iff.mp hread
      exact ⟨trivial, Nat.zero_le _⟩
  | array items =>
      cases bound with
      | zero => cases hread
      | succ bound =>
          rw [ofJson?, if_neg (Nat.succ_ne_zero bound)] at hread
          obtain ⟨values, hvalues, rfl⟩ := Option.map_eq_some_iff.mp hread
          exact within_array (within_of_ofItems? hvalues)
  | object members =>
      cases bound with
      | zero => cases hread
      | succ bound =>
          rw [ofJson?, if_neg (Nat.succ_ne_zero bound)] at hread
          obtain ⟨values, hvalues, rfl⟩ := Option.map_eq_some_iff.mp hread
          exact within_ofMembers (within_of_ofMembers? hvalues)

theorem within_of_ofItems? {bound : Nat} {items : List Json} {values : List Value}
    (hread : ofItems? bound items = some values) : ∀ value ∈ values, Within bound value := by
  cases items with
  | nil =>
      cases hread
      nofun
  | cons item rest =>
      simp only [ofItems?, Option.bind_eq_bind, Option.bind_eq_some_iff] at hread
      obtain ⟨value, hvalue, others, hothers, hsame⟩ := hread
      cases hsame
      intro other hmem
      rcases List.mem_cons.mp hmem with rfl | hrest
      · exact within_of_ofJson? hvalue
      · exact within_of_ofItems? hothers other hrest

theorem within_of_ofMembers? {bound : Nat} {members : List (Option String × Json)}
    {values : List (String × Value)} (hread : ofMembers? bound members = some values) :
    ∀ member ∈ values, Within bound member.2 := by
  cases members with
  | nil =>
      cases hread
      nofun
  | cons member rest =>
      obtain ⟨name, item⟩ := member
      simp only [ofMembers?, Option.bind_eq_bind, Option.bind_eq_some_iff] at hread
      obtain ⟨text, -, value, hvalue, others, hothers, hsame⟩ := hread
      cases hsame
      intro other hmem
      rcases List.mem_cons.mp hmem with rfl | hrest
      · exact within_of_ofJson? hvalue
      · exact within_of_ofMembers? hothers other hrest

end

mutual

/-- What is read within a depth is read within every greater depth. -/
theorem ofJson?_mono {bound greater : Nat} (hbound : bound ≤ greater) {json : Json} {value : Value}
    (hread : ofJson? bound json = some value) : ofJson? greater json = some value := by
  cases json with
  | array items =>
      cases bound with
      | zero => cases hread
      | succ bound =>
          obtain ⟨greater, rfl⟩ := Nat.exists_eq_succ_of_ne_zero (Nat.ne_zero_of_lt hbound)
          rw [ofJson?, if_neg (Nat.succ_ne_zero _)] at hread ⊢
          obtain ⟨values, hvalues, rfl⟩ := Option.map_eq_some_iff.mp hread
          exact Option.map_eq_some_iff.mpr
            ⟨values, ofItems?_mono (Nat.le_of_succ_le_succ hbound) hvalues, rfl⟩
  | object members =>
      cases bound with
      | zero => cases hread
      | succ bound =>
          obtain ⟨greater, rfl⟩ := Nat.exists_eq_succ_of_ne_zero (Nat.ne_zero_of_lt hbound)
          rw [ofJson?, if_neg (Nat.succ_ne_zero _)] at hread ⊢
          obtain ⟨values, hvalues, rfl⟩ := Option.map_eq_some_iff.mp hread
          exact Option.map_eq_some_iff.mpr
            ⟨values, ofMembers?_mono (Nat.le_of_succ_le_succ hbound) hvalues, rfl⟩
  | _ => exact hread

theorem ofItems?_mono {bound greater : Nat} (hbound : bound ≤ greater) {items : List Json}
    {values : List Value} (hread : ofItems? bound items = some values) :
    ofItems? greater items = some values := by
  cases items with
  | nil => exact hread
  | cons item rest =>
      simp only [ofItems?, Option.bind_eq_bind, Option.bind_eq_some_iff] at hread ⊢
      obtain ⟨value, hvalue, others, hothers, hsame⟩ := hread
      exact ⟨value, ofJson?_mono hbound hvalue, others, ofItems?_mono hbound hothers, hsame⟩

theorem ofMembers?_mono {bound greater : Nat} (hbound : bound ≤ greater)
    {members : List (Option String × Json)} {values : List (String × Value)}
    (hread : ofMembers? bound members = some values) :
    ofMembers? greater members = some values := by
  cases members with
  | nil => exact hread
  | cons member rest =>
      obtain ⟨name, item⟩ := member
      simp only [ofMembers?, Option.bind_eq_bind, Option.bind_eq_some_iff] at hread ⊢
      obtain ⟨text, htext, value, hvalue, others, hothers, hsame⟩ := hread
      exact ⟨text, htext, value, ofJson?_mono hbound hvalue, others,
        ofMembers?_mono hbound hothers, hsame⟩

end

end Value

end Clearing
