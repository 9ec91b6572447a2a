import Clearing.Proofs.Crowd.Task
import Clearing.Proofs.Operation.Punctual
import Clearing.Proofs.Processing.Checking
import Clearing.Proofs.Session.Solitary

/-!
# Checks that are asked for

If a session is told to check a transaction it replies with what the check comes to, when that
is the time (`Session.tell_validate`).
-/

namespace Clearing

namespace Task

/-- A workplace without workers, with these resources. -/
def vacantPlace (pipeline : Pipeline) (resources : Resources) : Workplace :=
  .new { pipeline with resources }

theorem unstirred_vacantPlace (pipeline : Pipeline) (resources : Resources) :
    (schedule pipeline).Unstirred (vacantPlace pipeline resources) where
  news := rfl
  idle _ := rfl
  resume := rfl
  alarm := rfl
  ring _ := by
    simp [schedule, vacantPlace, Workplace.ring, Workplace.alarms, Workplace.new]

/-- The command to check a transaction, while the check is underway. -/
def checking (transaction : Option Transaction) (check : Timed CheckState) : Task :=
  { command := .validate transaction, state := .validating check }

theorem operation_hosts_check (pipeline : Pipeline) (transaction : Option Transaction) :
    (operation pipeline).Hosts
      (timedValidation pipeline.clock pipeline.settings.deadlineMillis transaction)
      (vacantPlace pipeline) (checking transaction) where
  step hstep := by
    simp only [operation, step?, checking, stepOn, validation, vacantPlace, Workplace.new, hstep,
      Option.map_some]
    rfl
  still hstep hending := by
    simp only [operation, step?, checking, stepOn, validation, vacantPlace, Workplace.new, hstep,
      hending, Option.map_none]
  running _ := rfl
  alarms _ := rfl

/-- The states of a command to check a transaction. -/
inductive Checks (transaction : Option Transaction) : Task → Prop
  | starting : Checks transaction (.new (.validate transaction))
  | checking {check : Timed CheckState} (hsound : check.state.Sound transaction) :
      Checks transaction (checking transaction check)
  | done (reply : Reply) :
      Checks transaction { command := .validate transaction, state := .done reply }

/-- More steps than this are not left of a check. -/
def checkEffort (pipeline : Pipeline) (task : Task) : Nat :=
  match task.state with
  | .starting => 12
  | .validating check =>
    (timedValidation pipeline.clock pipeline.settings.deadlineMillis none).effort check + 1
  | _ => 0

theorem checkEffort_le (pipeline : Pipeline) (task : Task) : checkEffort pipeline task ≤ 12 := by
  unfold checkEffort
  split
  · exact Nat.le_refl 12
  · rename_i check _
    have hcheck := effort_validation_le pipeline.clock none check.state
    simp only [timedValidation, Operation.timed]
    split <;> omega
  · exact Nat.zero_le 12

variable {pipeline : Pipeline} {transaction : Option Transaction} {now : Nat}
  {resources : Resources}

/-- Every step of a command to check a transaction is one of the check, or it begins or ends it. -/
theorem Checks.step? {place : Workplace} {task later : Task} (hchecks : Checks transaction task)
    (hstep : (operation pipeline).step? now (vacantPlace pipeline resources) task =
      some (place, later)) :
    (∃ next, place = vacantPlace pipeline next) ∧ Checks transaction later ∧
      checkEffort pipeline later < checkEffort pipeline task := by
  obtain ⟨command, state⟩ := later
  obtain ⟨hcommand, hact⟩ := act_of_step? hstep
  dsimp only at hcommand hact
  cases hchecks with
  | starting =>
      cases hact with
      | begin hbegin =>
          cases hbegin
          cases hcommand
          exact ⟨⟨resources, rfl⟩, .checking trivial, Nat.lt_succ_self 11⟩
  | checking hsound =>
      cases hact with
      | check hinner =>
          cases hcommand
          have hpunctual := (validation_punctual pipeline.clock transaction).timed validationStage
            pipeline.settings.deadlineMillis
          have hdwindles := (validation_dwindles pipeline.clock transaction).timed validationStage
            pipeline.settings.deadlineMillis
          exact ⟨⟨_, rfl⟩, .checking (hpunctual.keeps hsound hinner),
            Nat.succ_lt_succ (hdwindles.step _ _ _ _ _ hinner)⟩
      | checked hending =>
          cases hcommand
          exact ⟨⟨resources, rfl⟩, .done _, Nat.succ_pos _⟩
  | done reply => cases hact

/-- A command to check a transaction may have a session to itself. -/
theorem checks_solitary (pipeline : Pipeline) (transaction : Option Transaction) :
    (schedule pipeline).Solitary
      (fun place task => (∃ resources, place = vacantPlace pipeline resources) ∧
        Checks transaction task)
      (checkEffort pipeline) where
  quiet := by
    rintro world task ⟨⟨resources, rfl⟩, -⟩
    exact unstirred_vacantPlace pipeline resources
  keeps := by
    rintro now world next task later ⟨⟨resources, rfl⟩, hchecks⟩ hstep
    exact ⟨(hchecks.step? hstep).1, (hchecks.step? hstep).2.1⟩
  less := by
    rintro now world next task later ⟨⟨resources, rfl⟩, hchecks⟩ hstep
    exact (hchecks.step? hstep).2.2
  effort := by
    rintro world task ⟨-, hchecks⟩
    have hle := checkEffort_le pipeline task
    cases hchecks with
    | starting => exact Nat.le_of_ble_eq_true rfl
    | checking => exact Nat.le_trans hle (Nat.le_of_ble_eq_true rfl)
    | done reply => exact Nat.le_refl 0
  few := by
    rintro world task -
    exact Nat.lt_of_le_of_lt (checkEffort_le pipeline task) (by decide)
  waits := by
    rintro now world task ⟨⟨resources, rfl⟩, hchecks⟩ hstep hending
    cases hchecks with
    | starting => cases hstep
    | checking hsound =>
        have hpunctual := (validation_punctual pipeline.clock transaction).timed validationStage
          pipeline.settings.deadlineMillis
        have hnone := Option.map_eq_none_iff.mp hstep
        dsimp only [checking, stepOn] at hnone
        split at hnone
        · cases hnone
        · rename_i hinner
          exact hpunctual.waits hsound hinner (Option.map_eq_none_iff.mp hnone)
    | done reply => cases hending
  rings := by
    rintro due world task ⟨⟨resources, rfl⟩, hchecks⟩ hdue
    cases hchecks with
    | starting => rfl
    | checking hsound =>
        have hpunctual := (validation_punctual pipeline.clock transaction).timed validationStage
          pipeline.settings.deadlineMillis
        refine (Option.isSome_map ..).trans ?_
        dsimp only [checking, stepOn]
        split
        · rfl
        · rename_i hinner
          rw [Option.isSome_map]
          exact hpunctual.ends_of_rings hsound ⟨hdue.rings, hdue.earliest⟩ hinner
    | done reply =>
        obtain ⟨alarm, halarm, -⟩ := hdue.rings
        cases halarm

/-- The command comes to what the check comes to. -/
theorem comesTo_validate {ending : Ending Unit} {time : Nat} {after : Resources}
    (hcomes : (timedValidation pipeline.clock pipeline.settings.deadlineMillis transaction).ComesTo
      ⟨now, pipeline.resources, .start now pipeline.settings.deadlineMillis .starting⟩ ending time
      after) :
    (operation pipeline).ComesTo ⟨now, .new pipeline, .new (.validate transaction)⟩
      (.returned (.ok (.checked ending))) time (vacantPlace pipeline after) := by
  obtain ⟨check, hreaches, hending, hstep⟩ := hcomes
  have hchecked := (operation_hosts_check pipeline transaction).reaches hreaches
  refine ⟨{ command := .validate transaction, state := .done (.checked ending) },
    .head (.acts rfl) (hchecked.tail (.acts ?_)), rfl, rfl⟩
  simp only [operation, step?, checking, stepOn, validation, vacantPlace, Workplace.new, hstep,
    hending, Option.map_some]

end Task

/-- **If a session is told to check a transaction it replies with what the check comes to**, after
the time that the lookups take or when the time for a check is over. -/
theorem Session.tell_validate {session : Session} (transaction : Option Transaction)
    (hallowance : 12 < session.allowance) :
    ∃ allowance after,
      session.tell (.validate transaction) =
        (some (.checked ((Consultation.of transaction session.now
            session.pipeline.resources).timedEnding transaction session.pipeline.clock session.now
              session.pipeline.settings.deadlineMillis)),
          { now := session.now + min (Consultation.of transaction session.now
              session.pipeline.resources).millis session.pipeline.settings.deadlineMillis
            allowance
            pipeline := { session.pipeline with resources := after } }) ∧
      Consultation.Leaves transaction session.now session.pipeline.settings.deadlineMillis
        session.pipeline.resources after := by
  have hcomes := Task.comesTo_validate (timedValidation_ends session.pipeline.clock
    session.pipeline.settings.deadlineMillis session.now session.pipeline.resources transaction)
  obtain ⟨allowance, htell⟩ := Session.tell_of_comesTo
    (Task.checks_solitary session.pipeline transaction)
    ⟨⟨session.pipeline.resources, rfl⟩, .starting⟩ hcomes (Nat.le_of_ble_eq_true rfl) hallowance
  exact ⟨allowance, _, htell, Consultation.leaves_left ..⟩

end Clearing
