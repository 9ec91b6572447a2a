import Clearing.Failure

/-!
# Statistics

The statistics of a pipeline are the list of everything it recorded: for each
transaction the format it was counted under and, if it failed, the kind of
failure.  All numbers are counts over this list, so that no record can be
counted twice or under two headings.
-/

namespace Clearing

/-- Everything that was recorded, the last first. -/
structure Statistics where
  outcomes : List (WireFormat × Option FailureKind)
  deriving DecidableEq

namespace Statistics

/-- Nothing was recorded. -/
def empty : Statistics := ⟨[]⟩

/-- One more outcome; no kind of failure means success. -/
def record (statistics : Statistics) (format : WireFormat) (failure : Option FailureKind) :
    Statistics :=
  ⟨(format, failure) :: statistics.outcomes⟩

/-- The number of successes. -/
def succeeded (statistics : Statistics) (format : WireFormat) : Nat :=
  statistics.outcomes.count (format, none)

/-- The number of failures of a kind. -/
def failed (statistics : Statistics) (format : WireFormat) (kind : FailureKind) : Nat :=
  statistics.outcomes.count (format, some kind)

/-- The number of failures of any kind. -/
def totalFailed (statistics : Statistics) (format : WireFormat) : Nat :=
  sumOf (FailureKind.all.map (statistics.failed format))

@[simp] theorem succeeded_record (statistics : Statistics) (format other : WireFormat)
    (failure : Option FailureKind) :
    (statistics.record format failure).succeeded other =
      statistics.succeeded other + if format = other ∧ failure = none then 1 else 0 := by
  simp [succeeded, record, List.count_cons]

@[simp] theorem failed_record (statistics : Statistics) (format other : WireFormat)
    (failure : Option FailureKind) (kind : FailureKind) :
    (statistics.record format failure).failed other kind =
      statistics.failed other kind + if format = other ∧ failure = some kind then 1 else 0 := by
  simp [failed, record, List.count_cons]

end Statistics

end Clearing
