import Mathlib.Data.List.Perm.Basic
import Clearing.Proofs.Processing.Course

/-!
# How the statistics grow

Nothing is ever taken out of the statistics, so what happened to them between two
moments is said by the entries that were made (`Statistics.Grows`).  The order of
the entries does not matter to any of the numbers.

A submission makes one entry, in the step that counts its result
(`Submission.grows_of_step?`).
-/

namespace Clearing

namespace Statistics

variable {format : WireFormat} {entries : List (Option FailureKind)}
  {before middle after : Statistics}

/-- Between two moments these entries were made under a format, in some order. -/
def Grows (format : WireFormat) (entries : List (Option FailureKind))
    (before after : Statistics) : Prop :=
  after.outcomes.Perm (entries.map (fun failure => (format, failure)) ++ before.outcomes)

theorem Grows.refl (format : WireFormat) (statistics : Statistics) :
    Grows format [] statistics statistics := List.Perm.refl _

theorem grows_record (statistics : Statistics) (format : WireFormat)
    (failure : Option FailureKind) :
    Grows format [failure] statistics (statistics.record format failure) :=
  List.Perm.refl _

theorem Grows.trans {later : List (Option FailureKind)} (hgrows : Grows format entries before middle)
    (hlater : Grows format later middle after) : Grows format (later ++ entries) before after := by
  unfold Grows at *
  rw [List.map_append, List.append_assoc]
  -- The later entries stand before the earlier ones.
  exact hlater.trans (hgrows.append_left _)

theorem Grows.perm {entries' : List (Option FailureKind)} (hgrows : Grows format entries before after)
    (hperm : entries.Perm entries') : Grows format entries' before after :=
  List.Perm.trans hgrows ((hperm.map _).append_right _)

/-! ## The numbers -/

/-- How often an outcome is found among entries under a format. -/
private theorem count_entries (format other : WireFormat) (failure : Option FailureKind)
    (entries : List (Option FailureKind)) :
    (entries.map fun failure => (format, failure)).count (other, failure) =
      if other = format then entries.count failure else 0 := by
  induction entries with
  | nil => simp
  | cons entry entries ih =>
      rw [List.map_cons, List.count_cons, List.count_cons, ih]
      by_cases hother : other = format
      · subst hother
        simp
      · have hformat : ¬ format = other := fun hsame => hother hsame.symm
        simp [hother, hformat]

private theorem Grows.count (hgrows : Grows format entries before after) (other : WireFormat)
    (failure : Option FailureKind) :
    after.outcomes.count (other, failure) =
      before.outcomes.count (other, failure) +
        if other = format then entries.count failure else 0 := by
  rw [List.Perm.count_eq hgrows, List.count_append, count_entries]
  omega

theorem Grows.succeeded (hgrows : Grows format entries before after) (other : WireFormat) :
    after.succeeded other =
      before.succeeded other + if other = format then entries.count none else 0 :=
  hgrows.count other none

theorem Grows.failed (hgrows : Grows format entries before after) (other : WireFormat)
    (kind : FailureKind) :
    after.failed other kind =
      before.failed other kind + if other = format then entries.count (some kind) else 0 :=
  hgrows.count other (some kind)

/-- Every entry is one of a success or of a failure of one kind. -/
theorem count_none_add_count_some (entries : List (Option FailureKind)) :
    entries.count none + sumOf (FailureKind.all.map fun kind => entries.count (some kind)) =
      entries.length := by
  simp only [FailureKind.all, List.map_cons, List.map_nil, sumOf_cons, sumOf_nil]
  -- Each entry counts once, in one of the seven counts.
  induction entries with
  | nil => rfl
  | cons entry entries ih =>
      simp only [List.count_cons, List.length_cons]
      rcases entry with _ | kind
      · simp
        omega
      · cases kind <;> simp <;> omega

/-- As many successes and failures are counted as entries were made. -/
theorem Grows.total (hgrows : Grows format entries before after) :
    after.succeeded format + after.totalFailed format =
      before.succeeded format + before.totalFailed format + entries.length := by
  rw [← count_none_add_count_some entries, hgrows.succeeded]
  simp only [totalFailed, FailureKind.all, List.map_cons, List.map_nil, sumOf_cons, sumOf_nil,
    hgrows.failed, if_true]
  omega

/-- Under other formats nothing is counted. -/
theorem Grows.other (hgrows : Grows format entries before after) {other : WireFormat}
    (hother : other ≠ format) :
    after.succeeded other = before.succeeded other ∧
      ∀ kind, after.failed other kind = before.failed other kind := by
  refine ⟨?_, fun kind => ?_⟩
  · rw [hgrows.succeeded, if_neg hother, Nat.add_zero]
  · rw [hgrows.failed, if_neg hother, Nat.add_zero]

end Statistics

/-! ## What a submission counts -/

namespace Submission

/-- The entry that was made for a submission, if it was counted. -/
def mark? (submission : Submission) : Option (Option FailureKind) :=
  match submission.counted, submission.call.phase with
  | true, .finished (.returned result) => some (failureKind? result)
  | _, _ => none

/-- A submission is counted at its end only. -/
def CountsLast (submission : Submission) : Prop :=
  submission.counted = true → ∃ ending, submission.call.phase = .finished ending

theorem countsLast_ofBatch (pipeline : Pipeline) (format : WireFormat)
    (transaction : Transaction) : (ofBatch pipeline format transaction).CountsLast := by
  intro hcounted
  cases hcounted

/-- Who is not at the end was not counted. -/
private theorem CountsLast.not_counted {submission : Submission} (hlast : submission.CountsLast)
    (hgoing : ∀ ending, submission.call.phase ≠ .finished ending) :
    submission.counted = false := by
  by_contra hcounted
  obtain ⟨ending, hending⟩ := hlast (by simpa using hcounted)
  exact hgoing ending hending

/-- A step of a submission makes its entry or none, and goes on with the same transaction and under
the same format. -/
theorem grows_of_step? {now : Nat} {before after : Pipeline} {submission later : Submission}
    (hlast : submission.CountsLast)
    (hstep : submission.step? now before = some (after, later)) :
    later.transaction = submission.transaction ∧ later.format = submission.format ∧
      later.CountsLast ∧ ∃ entries,
        Statistics.Grows submission.format entries before.statistics after.statistics ∧
          later.mark?.toList = entries ++ submission.mark?.toList := by
  rcases step?_cases hstep with
    ⟨guards, resources, call, hact, rfl, rfl⟩ | ⟨result, hphase, hcounted, rfl, rfl⟩
  · -- The call goes on, and so it was not counted and is not.
    have hgoing : ∀ ending, submission.call.phase ≠ .finished ending := by
      intro ending hphase
      obtain ⟨transaction, protection, format, ⟨attempt, phase⟩, counted⟩ := submission
      obtain rfl : phase = .finished ending := hphase
      obtain ⟨later, phase⟩ := call
      cases hact with
      | skip hat => cases hat
      | answered hguard hhears => cases hhears
    have hcounted := hlast.not_counted hgoing
    refine ⟨rfl, rfl, ?_, [], .refl _ _, ?_⟩
    · intro hlater
      rw [hcounted] at hlater
      cases hlater
    · simp [mark?, hcounted]
  · -- The result is counted, and that is the entry.
    refine ⟨rfl, rfl, fun _ => ⟨_, hphase⟩, [failureKind? result],
      Statistics.grows_record .., ?_⟩
    simp [mark?, hphase, hcounted]

/-- To be cut short makes no entry. -/
theorem mark?_of_cut? {pipeline : Pipeline} {submission later : Submission}
    {chosen : Deadline → Bool} (hlast : submission.CountsLast)
    (hcut : (operation pipeline).cut? chosen submission = some later) :
    later.transaction = submission.transaction ∧ later.format = submission.format ∧
      later.CountsLast ∧ later.mark? = submission.mark? := by
  obtain ⟨held, state, state', hphase, -, rfl⟩ := cut?_cases hcut
  have hcounted : submission.counted = false := by
    apply hlast.not_counted
    intro ending hending
    rw [hphase] at hending
    cases hending
  refine ⟨rfl, rfl, ?_, ?_⟩
  · intro hlater
    rw [hcounted] at hlater
    cases hlater
  · simp [mark?, hcounted]

/-- The entry of a submission that has ended is that of its result. -/
theorem mark?_of_ending? {submission : Submission} {result : Except Failure Transaction}
    (hending : submission.ending? = some (.returned result)) :
    submission.mark? = some (failureKind? result) := by
  obtain ⟨hphase, hcounted⟩ := finished_of_ending? hending
  simp [mark?, hphase, hcounted result rfl]

end Submission

end Clearing
