import Clearing.Table

/-!
# Laws of tables

What `insert` does to the rows of a table.  Rows of other keys stay, the new row
is there, and the table keeps ascending; it becomes one row longer exactly if it
had no row of the key.
-/

namespace Clearing.Table

variable {κ ν : Type} [Ord κ] {table : Table κ ν} {key : κ} {value : ν}

/-- The rows after an insertion are the new one and old ones. -/
theorem mem_of_mem_insert {row : κ × ν} (hrow : row ∈ table.insert key value) :
    row = (key, value) ∨ row ∈ table := by
  induction table with
  | nil => simpa [insert] using hrow
  | cons head rest ih =>
      rw [insert] at hrow
      split at hrow
      · simpa using hrow
      · rcases List.mem_cons.mp hrow with rfl | hrow
        · exact .inl rfl
        · exact .inr (List.mem_cons_of_mem _ hrow)
      · rcases List.mem_cons.mp hrow with rfl | hrow
        · exact .inr (List.mem_cons_self ..)
        · exact (ih hrow).imp_right (List.mem_cons_of_mem _)

theorem self_mem_insert (table : Table κ ν) (key : κ) (value : ν) :
    (key, value) ∈ table.insert key value := by
  induction table with
  | nil => simp [insert]
  | cons head rest ih =>
      rw [insert]
      split
      · exact List.mem_cons_self ..
      · exact List.mem_cons_self ..
      · exact List.mem_cons_of_mem _ ih

variable [Std.LawfulEqOrd κ]

/-- Only the row of the key that is inserted can go. -/
theorem mem_insert_of_mem {row : κ × ν} (hrow : row ∈ table) (hkey : row.1 ≠ key) :
    row ∈ table.insert key value := by
  induction table with
  | nil => simp at hrow
  | cons head rest ih =>
      rw [insert]
      split
      · exact List.mem_cons_of_mem _ hrow
      · rename_i heq
        rcases List.mem_cons.mp hrow with rfl | hrow
        · exact absurd (Std.LawfulEqOrd.eq_of_compare heq).symm hkey
        · exact List.mem_cons_of_mem _ hrow
      · rcases List.mem_cons.mp hrow with rfl | hrow
        · exact List.mem_cons_self ..
        · exact List.mem_cons_of_mem _ (ih hrow)

omit [Ord κ] [Std.LawfulEqOrd κ] in
theorem mem_keys {other : κ} : other ∈ table.keys ↔ ∃ value, (other, value) ∈ table := by
  simp [keys]

theorem mem_keys_insert {other : κ} :
    other ∈ (table.insert key value).keys ↔ other = key ∨ other ∈ table.keys := by
  constructor
  · intro hother
    obtain ⟨old, hrow⟩ := mem_keys.mp hother
    rcases mem_of_mem_insert hrow with heq | hrow
    · exact .inl (congrArg Prod.fst heq)
    · exact .inr (mem_keys.mpr ⟨old, hrow⟩)
  · intro hother
    by_cases hkey : other = key
    · exact mem_keys.mpr ⟨value, hkey ▸ self_mem_insert table key value⟩
    · obtain ⟨old, hrow⟩ := mem_keys.mp (hother.resolve_left hkey)
      exact mem_keys.mpr ⟨old, mem_insert_of_mem hrow hkey⟩

theorem length_insert_of_not_mem (hkey : key ∉ table.keys) :
    (table.insert key value).length = table.length + 1 := by
  induction table with
  | nil => rfl
  | cons head rest ih =>
      simp only [keys, List.map_cons, List.mem_cons, not_or] at hkey
      rw [insert]
      split
      · rfl
      · rename_i heq
        exact absurd (Std.LawfulEqOrd.eq_of_compare heq) hkey.1
      · simpa using ih hkey.2

variable [Std.TransOrd κ]

omit [Std.LawfulEqOrd κ] in
theorem ascending_insert (hascending : table.Ascending) : (table.insert key value).Ascending := by
  induction table with
  | nil => simp [insert, Ascending]
  | cons head rest ih =>
      obtain ⟨hhead, hrest⟩ := List.pairwise_cons.mp hascending
      rw [insert]
      split
      · rename_i hlt
        refine List.pairwise_cons.mpr ⟨?_, hascending⟩
        intro row hrow
        rcases List.mem_cons.mp hrow with rfl | hrow
        · exact hlt
        · exact Std.TransCmp.lt_trans hlt (hhead row hrow)
      · rename_i heq
        exact List.pairwise_cons.mpr
          ⟨fun row hrow => Std.TransCmp.lt_of_eq_of_lt heq (hhead row hrow), hrest⟩
      · rename_i hgt
        refine List.pairwise_cons.mpr ⟨?_, ih hrest⟩
        intro row hrow
        rcases mem_of_mem_insert hrow with rfl | hrow
        · exact Std.OrientedCmp.lt_of_gt hgt
        · exact hhead row hrow

omit [Std.LawfulEqOrd κ] in
theorem length_insert_of_mem (hascending : table.Ascending) (hkey : key ∈ table.keys) :
    (table.insert key value).length = table.length := by
  induction table with
  | nil => simp [keys] at hkey
  | cons head rest ih =>
      obtain ⟨hhead, hrest⟩ := List.pairwise_cons.mp hascending
      rw [insert]
      rcases List.mem_cons.mp hkey with rfl | hkey
      · simp [Std.ReflOrd.compare_self]
      · obtain ⟨old, hrow⟩ := mem_keys.mp hkey
        simp [Std.OrientedCmp.gt_of_lt (hhead _ hrow), ih hrest hkey]

/-! ## Finding rows -/

/-- Only the row of the key that is inserted is found anew. -/
theorem find?_insert [DecidableEq κ] (table : Table κ ν) (key : κ) (value : ν) (other : κ) :
    (table.insert key value).find? other =
      if other = key then some value else table.find? other := by
  by_cases hsame : other = key
  · rw [if_pos hsame, hsame, find?_insert_self]
  rw [if_neg hsame]
  have hne : compare other key ≠ .eq := fun heq => hsame (Std.LawfulEqOrd.eq_of_compare heq)
  induction table with
  | nil =>
      simp only [insert, find?]
      split <;> simp_all
  | cons row rest ih =>
      obtain ⟨first, old⟩ := row
      rw [insert]
      split
      · rename_i hlt
        -- The new row comes first; whoever comes before it is not in the table either.
        rw [find?]
        split
        · rename_i hbefore
          rw [find?, Std.TransCmp.lt_trans hbefore hlt]
        · exact absurd ‹_› hne
        · rfl
      · rename_i heq
        obtain rfl := Std.LawfulEqOrd.eq_of_compare heq
        rw [find?, find?]
        split <;> simp_all
      · rw [find?, find?, ih]

omit [Std.TransOrd κ] in
/-- A row that is found is there. -/
theorem mem_of_find? {table : Table κ ν} {key : κ} {value : ν}
    (hfound : table.find? key = some value) : (key, value) ∈ table := by
  induction table with
  | nil => cases hfound
  | cons row rest ih =>
      obtain ⟨other, old⟩ := row
      rw [find?] at hfound
      split at hfound
      · cases hfound
      · rename_i heq
        cases hfound
        rw [Std.LawfulEqOrd.eq_of_compare heq]
        exact List.mem_cons_self
      · exact List.mem_cons_of_mem _ (ih hfound)

/-- In ascending order every row is the one that is found under its key. -/
theorem find?_of_mem {table : Table κ ν} {key : κ} {value : ν} (hascending : table.Ascending)
    (hrow : (key, value) ∈ table) : table.find? key = some value := by
  induction table with
  | nil => cases hrow
  | cons row rest ih =>
      obtain ⟨hhead, hrest⟩ := List.pairwise_cons.mp hascending
      obtain ⟨other, old⟩ := row
      rw [find?]
      rcases List.mem_cons.mp hrow with hsame | hlater
      · cases hsame
        rw [Std.ReflOrd.compare_self]
      · rw [Std.OrientedCmp.gt_of_lt (hhead _ hlater)]
        exact ih hrest hlater

end Clearing.Table
