import Mathlib.Data.List.Basic
import Clearing.Batch

/-!
# Splitting and dealing

A batch is cut into sub-batches, and these are dealt to workers in turn.  Nothing
is left out on the way and nothing is dealt twice: the sub-batches one after the
other are the batch (`flatten_subBatches`), and all that is dealt to the workers
together is the sub-batches again, in some order (`perm_deal`).  Each worker is dealt
every so-manieth of them (`getElem?_share`).

## Strategy

A worker is dealt the pieces whose numbers leave its position as a remainder.
Sorting a list into as many classes as there are values of a key rearranges it
(`perm_classes`), and every remainder is the position of a worker that is dealt
something.
-/

namespace Clearing

variable {α : Type}

theorem flatten_subBatches (size : Nat) (items : List α) :
    (subBatches size items).flatten = items := by
  fun_induction subBatches size items with
  | case1 => rfl
  | case2 first rest ih =>
      rw [List.flatten_cons, ih, List.cons_append, List.take_append_drop]

/-- Sub-batches are not empty. -/
theorem length_subBatches_le (size : Nat) (items : List α) :
    (subBatches size items).length ≤ items.length := by
  fun_induction subBatches size items with
  | case1 => exact Nat.le_refl _
  | case2 first rest ih =>
      rw [List.length_drop] at ih
      rw [List.length_cons, List.length_cons]
      omega

/-- Sub-batches are not empty and have at most the size. -/
theorem length_of_mem_subBatches {size : Nat} (hsize : 0 < size) {items piece : List α}
    (hpiece : piece ∈ subBatches size items) : piece ≠ [] ∧ piece.length ≤ size := by
  fun_induction subBatches size items with
  | case1 => cases hpiece
  | case2 first rest ih =>
      rcases List.mem_cons.mp hpiece with rfl | hlater
      · refine ⟨List.cons_ne_nil _ _, ?_⟩
        rw [List.length_cons, List.length_take]
        omega
      · exact ih hlater

/-- All sub-batches but the last one have the size. -/
theorem length_of_mem_dropLast_subBatches {size : Nat} (hsize : 0 < size) {items piece : List α}
    (hpiece : piece ∈ (subBatches size items).dropLast) : piece.length = size := by
  fun_induction subBatches size items with
  | case1 => cases hpiece
  | case2 first rest ih =>
      cases hrest : rest.drop (size - 1) with
      | nil =>
          rw [hrest, subBatches] at hpiece
          cases hpiece
      | cons next others =>
          have hmore : subBatches size (rest.drop (size - 1)) ≠ [] := by
            rw [hrest, subBatches]
            exact List.cons_ne_nil _ _
          rw [List.dropLast_cons_of_ne_nil hmore] at hpiece
          rcases List.mem_cons.mp hpiece with rfl | hlater
          · have hlong := congrArg List.length hrest
            rw [List.length_drop, List.length_cons] at hlong
            rw [List.length_cons, List.length_take]
            omega
          · exact ih hlater

/-- Every element of a list is in the class of its key. -/
theorem perm_classes (key : α → Nat) {classes : Nat} {items : List α}
    (hkey : ∀ item ∈ items, key item < classes) :
    ((List.range classes).flatMap fun value => items.filter fun item => key item = value).Perm
      items := by
  induction classes generalizing items with
  | zero =>
      cases items with
      | nil => exact .refl _
      | cons item items => exact absurd (hkey item List.mem_cons_self) (Nat.not_lt_zero _)
  | succ classes ih =>
      -- Those of the last class are set aside, and the others are in the classes before it.
      have hothers : ∀ item ∈ items.filter fun item => key item ≠ classes,
          key item < classes := by
        intro item hitem
        obtain ⟨hmem, hne⟩ := List.mem_filter.mp hitem
        have hlt := hkey item hmem
        have hne : key item ≠ classes := by simpa using hne
        omega
      have hearlier : (List.range classes).flatMap (fun value =>
          (items.filter fun item => key item ≠ classes).filter fun item => key item = value) =
            (List.range classes).flatMap fun value =>
              items.filter fun item => key item = value := by
        apply List.flatMap_congr
        intro value hvalue
        have hlt := List.mem_range.mp hvalue
        rw [List.filter_filter]
        apply List.filter_congr
        intro item _
        by_cases hitem : key item = value
        · simp [hitem, Nat.ne_of_lt hlt]
        · simp [hitem]
      rw [List.range_succ, List.flatMap_append, ← hearlier]
      refine ((ih hothers).append_right _).trans ?_
      rw [List.flatMap_singleton]
      refine List.perm_append_comm.trans ?_
      have hsplit := List.filter_append_perm (fun item => decide (key item = classes)) items
      simpa using hsplit

section Deal

variable {workers : Nat} (hworkers : 0 < workers) (pieces : List α)

theorem length_deal : (deal workers pieces).length = workers := by
  simp only [deal, List.length_append, List.length_map, List.length_range,
    List.length_replicate]
  omega

include hworkers in
/-- The remainder of the number of a piece is the position of someone who is dealt something. -/
theorem remainder_lt {piece : α × Nat} (hpiece : piece ∈ pieces.zipIdx) :
    piece.2 % workers < min workers pieces.length := by
  have hremainder := Nat.mod_lt piece.2 hworkers
  have hle := Nat.mod_le piece.2 workers
  have hnumber : piece.2 < pieces.length := by
    simpa using (List.mem_zipIdx hpiece).2.1
  omega

include hworkers in
/-- What is dealt to the workers is everything that there is. -/
theorem perm_deal : (deal workers pieces).flatten.Perm pieces := by
  have hclasses := perm_classes (fun piece : α × Nat => piece.2 % workers)
    (fun piece hpiece => remainder_lt hworkers pieces hpiece)
  have hpieces := hclasses.map (·.1)
  rw [List.zipIdx_map_fst, List.map_flatMap] at hpieces
  rw [deal, List.flatten_append, ← List.flatMap_def]
  simpa [share] using hpieces

end Deal

/-- All that is dealt to workers is the batch, in some order. -/
theorem perm_deal_subBatches {workers : Nat} (hworkers : 0 < workers) (size : Nat)
    (items : List α) :
    ((deal workers (subBatches size items)).flatMap List.flatten).Perm items := by
  have hdealt := (perm_deal hworkers (subBatches size items)).flatten
  rw [flatten_subBatches] at hdealt
  rw [List.flatMap_def, ← List.flatten_flatten]
  exact hdealt

/-! ## Who is dealt what -/

/-- Of the pieces numbered from some number on, those whose numbers leave a remainder follow one
another at equal distances; the first one is as far away as it takes to get there. -/
private theorem getElem?_remainder {workers position away : Nat} (haway : away < workers)
    (pieces : List α) (start turn : Nat) (hposition : (start + away) % workers = position) :
    (((pieces.zipIdx start).filter fun piece => piece.2 % workers = position).map (·.1))[turn]? =
      pieces[away + turn * workers]? := by
  induction pieces generalizing start away turn with
  | nil => simp
  | cons piece pieces ih =>
      rw [List.zipIdx_cons]
      by_cases hstart : start % workers = position
      · obtain rfl : away = 0 := by
          have hlt := Nat.mod_lt start (Nat.zero_lt_of_lt haway)
          rw [Nat.add_mod, Nat.mod_eq_of_lt haway, hstart] at hposition
          by_cases hround : position + away < workers
          · rw [Nat.mod_eq_of_lt hround] at hposition
            omega
          · rw [Nat.mod_eq_sub_mod (by omega), Nat.mod_eq_of_lt (by omega)] at hposition
            omega
        rw [List.filter_cons_of_pos (by simpa using hstart), List.map_cons, Nat.zero_add]
        have hnext : (start + 1 + (workers - 1)) % workers = position := by
          rw [show start + 1 + (workers - 1) = start + workers by omega, Nat.add_mod_right, hstart]
        cases turn with
        | zero => simp
        | succ turn =>
            rw [List.getElem?_cons_succ, ih (by omega) _ _ hnext,
              show (turn + 1) * workers = (workers - 1 + turn * workers) + 1 by
                rw [Nat.succ_mul]; omega,
              List.getElem?_cons_succ]
      · have hpos : away ≠ 0 := by
          rintro rfl
          exact hstart hposition
        rw [List.filter_cons_of_neg (by simpa using hstart),
          ih (show away - 1 < workers by omega) (start + 1) turn
            (by rwa [show start + 1 + (away - 1) = start + away by omega]),
          show away + turn * workers = (away - 1 + turn * workers) + 1 by omega,
          List.getElem?_cons_succ]

/-- **A worker is dealt every so-manieth piece**, beginning with the one at its position. -/
theorem getElem?_share {workers position : Nat} (hposition : position < workers)
    (pieces : List α) (turn : Nat) :
    (share workers position pieces)[turn]? = pieces[position + turn * workers]? :=
  getElem?_remainder hposition pieces 0 turn (by rw [Nat.zero_add, Nat.mod_eq_of_lt hposition])

/-- Every worker is dealt its share, be it nothing. -/
theorem getElem?_deal {workers position : Nat} (hposition : position < workers)
    (pieces : List α) :
    (deal workers pieces)[position]? = some (share workers position pieces) := by
  unfold deal
  have hlength : ((List.range (min workers pieces.length)).map
      (share workers · pieces)).length = min workers pieces.length := by
    rw [List.length_map, List.length_range]
  by_cases hbusy : position < min workers pieces.length
  · rw [List.getElem?_append_left (hlength.symm ▸ hbusy), List.getElem?_map,
      List.getElem?_range hbusy]
    rfl
  · have hidle := Nat.not_lt.mp hbusy
    have hnone : share workers position pieces = [] := by
      cases hshare : share workers position pieces with
      | nil => rfl
      | cons first rest =>
          have hfirst := getElem?_share hposition pieces 0
          rw [hshare, List.getElem?_cons_zero] at hfirst
          have := (List.getElem?_eq_some_iff.mp hfirst.symm).1
          omega
    rw [List.getElem?_append_right (hlength.symm ▸ hidle), hlength, hnone,
      List.getElem?_replicate, if_pos (by omega)]

end Clearing
