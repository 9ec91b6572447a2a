import Clearing.Proofs.Cache.Expiring

/-!
# What a lookup makes of a cache

A lookup that the cache could not answer leaves it with what was heard about the key, if
anything was heard that is kept, and without an entry for the key otherwise; all other
entries are as they were (`ExpiringCache.LookedUp`).
-/

namespace Clearing

variable {κ ν : Type} [Ord κ]

namespace Table

variable {table : Table κ ν} {key : κ}

theorem find?_eq_none (hnone : ∀ row ∈ table, compare key row.1 ≠ .eq) :
    table.find? key = none := by
  induction table with
  | nil => rfl
  | cons row rest ih =>
      obtain ⟨hfirst, hrest⟩ := List.forall_mem_cons.mp hnone
      rw [find?]
      cases horder : compare key row.1 with
      | lt => rfl
      | eq => exact absurd horder hfirst
      | gt => exact ih hrest

/-- The row of a key is gone. -/
theorem find?_erase_self (table : Table κ ν) (key : κ) : (table.erase key).find? key = none := by
  apply find?_eq_none
  intro row hrow
  exact bne_iff_ne.mp (List.mem_filter.mp hrow).2

theorem mem_erase_iff [Std.LawfulEqOrd κ] {row : κ × ν} (hkey : row.1 ≠ key) :
    row ∈ table.erase key ↔ row ∈ table := by
  rw [erase, List.mem_filter, and_iff_left]
  rw [bne_iff_ne]
  intro horder
  exact hkey (Std.LawfulEqOrd.eq_of_compare horder).symm

theorem mem_of_mem_erase {row : κ × ν} (hrow : row ∈ table.erase key) : row ∈ table :=
  (List.mem_filter.mp hrow).1

theorem ne_of_mem_erase [Std.ReflOrd κ] {row : κ × ν} (hrow : row ∈ table.erase key) :
    key ≠ row.1 := by
  rintro rfl
  exact bne_iff_ne.mp (List.mem_filter.mp hrow).2 Std.ReflOrd.compare_self

theorem ascending_erase (hascending : table.Ascending) (key : κ) :
    (table.erase key).Ascending :=
  hascending.filter _

end Table

namespace ExpiringCache

variable {cache : ExpiringCache κ ν} {key : κ} {now : Nat}

/-! ## What is found, and what is dropped -/

theorem ascending_dropExpired (hascending : cache.entries.Ascending) :
    (cache.dropExpired now key).entries.Ascending := by
  unfold dropExpired
  split
  · split
    · exact hascending
    · exact Table.ascending_erase hascending key
  · exact hascending

section Ascending

variable [Std.LawfulEqOrd κ] [Std.TransOrd κ] (hascending : cache.entries.Ascending)

include hascending

theorem look?_eq_some_iff {value : ν} :
    cache.look? now key = some value ↔
      ∃ since, (key, ⟨value, since⟩) ∈ cache.entries ∧ now - since < cache.lifetimeMillis := by
  constructor
  · intro hlook
    unfold look? at hlook
    split at hlook
    · rename_i entry hfound
      obtain ⟨hfresh, hvalue⟩ := Option.ite_none_right_eq_some.mp hlook
      cases hvalue
      exact ⟨entry.since, Table.mem_of_find? hfound, of_decide_eq_true hfresh⟩
    · cases hlook
  · rintro ⟨since, hrow, hfresh⟩
    have hage : (⟨value, since⟩ : Aged ν).isFresh cache.lifetimeMillis now := decide_eq_true hfresh
    simp only [look?, Table.find?_of_mem hascending hrow, if_pos hage]

/-- A row that is dropped has expired. -/
theorem expired_of_not_mem_dropExpired {row : κ × Aged ν} (hrow : row ∈ cache.entries)
    (hdropped : row ∉ (cache.dropExpired now key).entries) :
    row.1 = key ∧ cache.lifetimeMillis ≤ now - row.2.since := by
  unfold dropExpired at hdropped
  split at hdropped
  · rename_i entry hfound
    split at hdropped
    · exact absurd hrow hdropped
    · rename_i hexpired
      by_cases hkey : row.1 = key
      · have hentry : cache.entries.find? key = some row.2 :=
          hkey ▸ Table.find?_of_mem hascending hrow
        obtain rfl : entry = row.2 := Option.some.inj (hfound.symm.trans hentry)
        exact ⟨hkey, Nat.le_of_not_lt (of_decide_eq_false (Bool.not_eq_true _ ▸ hexpired))⟩
      · exact absurd ((Table.mem_erase_iff hkey).mpr hrow) hdropped
  · exact absurd hrow hdropped

/-- Nobody sees whether what has expired is still there. -/
theorem look?_dropExpired {later : Nat} (hlater : now ≤ later) (other : κ) :
    (cache.dropExpired now key).look? later other = cache.look? later other := by
  ext value
  rw [look?_eq_some_iff hascending, look?_eq_some_iff (ascending_dropExpired hascending),
    lifetimeMillis_dropExpired]
  refine exists_congr fun since => and_congr_left fun hfresh => ⟨mem_of_mem_dropExpired, ?_⟩
  intro hrow
  refine Classical.byContradiction fun hgone => ?_
  have hexpired := (expired_of_not_mem_dropExpired hascending hrow hgone).2
  dsimp only at hexpired
  omega

end Ascending

/-! ## What a lookup leaves -/

/-- What becomes of a cache about a key. -/
structure LookedUp (key : κ) (kept? : Option (Aged ν)) (before after : ExpiringCache κ ν) :
    Prop where
  lifetimeMillis : after.lifetimeMillis = before.lifetimeMillis
  entry : after.entries.find? key = kept?
  others {row : κ × Aged ν} (hkey : row.1 ≠ key) : row ∈ after.entries ↔ row ∈ before.entries

/-- What has expired is dropped. -/
theorem lookedUp_dropExpired [Std.LawfulEqOrd κ] (hlook : cache.look? now key = none) :
    LookedUp key none cache (cache.dropExpired now key) := by
  unfold dropExpired
  unfold look? at hlook
  split
  · rename_i entry hfound
    split
    · rename_i hfresh
      simp only [hfound, if_pos hfresh, reduceCtorEq] at hlook
    · exact ⟨rfl, Table.find?_erase_self _ _, fun hkey => Table.mem_erase_iff hkey⟩
  · rename_i hnone
    exact ⟨rfl, hnone, fun _ => Iff.rfl⟩

/-- What was heard is kept. -/
theorem LookedUp.insert [Std.LawfulEqOrd κ] {after : ExpiringCache κ ν}
    (hlooked : LookedUp key none cache after) (since : Nat) (value : ν) :
    LookedUp key (some ⟨value, since⟩) cache (after.insert since key value) where
  lifetimeMillis := hlooked.lifetimeMillis
  entry := Table.find?_insert_self _ _ _
  others {row} hkey := by
    rw [← hlooked.others hkey]
    refine ⟨fun hrow => ?_, fun hrow => Table.mem_insert_of_mem hrow hkey⟩
    rcases Table.mem_of_mem_insert hrow with hnew | hold
    · rw [hnew] at hkey
      exact absurd rfl hkey
    · exact hold

end ExpiringCache

end Clearing
