import Clearing.Proofs.Batch.Underway

/-!
# Attempts

What was attempted for a batch is read off the tallies of its workers: each job
is one attempt, and it has a result when it is done (`Tally.attemptsAt`).  If the
books are in order there is at most one attempt for each transaction of the
batch, and exactly one when all workers have finished.
-/

namespace Clearing

/-- An attempt at a transaction of a batch: the job that it was, and how it has ended, if it has. -/
structure Attempt where
  party : Party
  transaction : Transaction
  result? : Option (Except Failure Transaction)

/-- The results of those attempts that have ended. -/
def Attempt.results (attempts : List Attempt) : List (Except Failure Transaction) :=
  attempts.filterMap (·.result?)

namespace Tally

/-- The attempts of the worker at a position. -/
def attemptsAt (position : Nat) (tally : Tally) : List Attempt :=
  tally.ended.map (fun done =>
      ⟨.job position done.number, done.transaction, some done.result⟩) ++
    tally.worker.inHand.map fun job => ⟨.job position job.1, job.2.transaction, none⟩

/-- The attempts of workers at positions in a row. -/
def attemptsFrom (position : Nat) : List Tally → List Attempt
  | [] => []
  | tally :: tallies => tally.attemptsAt position ++ attemptsFrom (position + 1) tallies

theorem mem_attemptsFrom {position : Nat} {tallies : List Tally} {attempt : Attempt} :
    attempt ∈ attemptsFrom position tallies ↔
      ∃ (index : Nat) (tally : Tally), tallies[index]? = some tally ∧
        attempt ∈ tally.attemptsAt (position + index) := by
  induction tallies generalizing position with
  | nil => simp [attemptsFrom]
  | cons tally tallies ih =>
      rw [attemptsFrom, List.mem_append, ih]
      constructor
      · rintro (hfirst | ⟨index, other, hother, hattempt⟩)
        · exact ⟨0, tally, rfl, hfirst⟩
        · refine ⟨index + 1, other, hother, ?_⟩
          rwa [Nat.add_right_comm] at hattempt
      · rintro ⟨index, other, hother, hattempt⟩
        cases index with
        | zero =>
            cases hother
            exact .inl hattempt
        | succ index =>
            refine .inr ⟨index, other, hother, ?_⟩
            rwa [Nat.add_right_comm]

/-- The attempts of a worker are at the transactions that it has started. -/
theorem map_attemptsAt (position : Nat) (tally : Tally) :
    (tally.attemptsAt position).map (fun attempt => (attempt.party, attempt.transaction)) =
      tally.attempts.map fun attempt => (.job position attempt.1, attempt.2) := by
  simp only [attemptsAt, attempts, List.map_append, List.map_map]
  rfl

theorem party_attemptsAt (position : Nat) (tally : Tally) :
    (tally.attemptsAt position).map (·.party) =
      (tally.attempts.map (·.1)).map (Party.job position) := by
  have hparties := congrArg (List.map Prod.fst) (map_attemptsAt position tally)
  simpa only [List.map_map, Function.comp_def] using hparties

theorem exists_attemptsAt {position number : Nat} {transaction : Transaction} {tally : Tally}
    (hattempt : (number, transaction) ∈ tally.attempts) :
    ∃ attempt ∈ tally.attemptsAt position, attempt.party = .job position number ∧
      attempt.transaction = transaction := by
  have hmem := List.mem_map_of_mem (f := fun attempt => (Party.job position attempt.1, attempt.2))
    hattempt
  rw [← map_attemptsAt] at hmem
  obtain ⟨attempt, hattempt, hsame⟩ := List.mem_map.mp hmem
  exact ⟨attempt, hattempt, (Prod.mk.inj hsame).1, (Prod.mk.inj hsame).2⟩

/-- No two attempts are the same job. -/
theorem nodup_attemptsFrom {position : Nat} {tallies : List Tally}
    (hnodup : ∀ tally ∈ tallies, (tally.attempts.map (·.1)).Nodup) :
    ((attemptsFrom position tallies).map (·.party)).Nodup := by
  induction tallies generalizing position with
  | nil => exact List.nodup_nil
  | cons tally tallies ih =>
      rw [attemptsFrom, List.map_append, List.nodup_append]
      refine ⟨?_, ih fun other hother => hnodup other (List.mem_cons_of_mem _ hother), ?_⟩
      · rw [party_attemptsAt]
        have hjobs : ∀ number other : Nat, number ≠ other →
            Party.job position number ≠ .job position other := by
          intro number other hne hsame
          exact hne (Party.job.inj hsame).2
        exact List.Pairwise.map _ hjobs (hnodup tally List.mem_cons_self)
      · -- The others are at later positions.
        intro party hparty other hother hsame
        rw [party_attemptsAt] at hparty
        obtain ⟨number, -, rfl⟩ := List.mem_map.mp hparty
        obtain ⟨attempt, hattempt, rfl⟩ := List.mem_map.mp hother
        obtain ⟨index, later, -, hattempt⟩ := mem_attemptsFrom.mp hattempt
        have hlater := List.mem_map_of_mem (f := (·.party)) hattempt
        rw [party_attemptsAt, ← hsame] at hlater
        obtain ⟨_, -, hjob⟩ := List.mem_map.mp hlater
        have hposition := (Party.job.inj hjob).1
        omega

theorem transaction_attemptsFrom (position : Nat) (tallies : List Tally) :
    (attemptsFrom position tallies).map (·.transaction) =
      tallies.flatMap fun tally => tally.attempts.map (·.2) := by
  induction tallies generalizing position with
  | nil => rfl
  | cons tally tallies ih =>
      have hfirst := congrArg (List.map Prod.snd) (map_attemptsAt position tally)
      simp only [List.map_map, Function.comp_def] at hfirst
      rw [attemptsFrom, List.map_append, ih, List.flatMap_cons, hfirst]

theorem results_attemptsFrom (position : Nat) (tallies : List Tally) :
    Attempt.results (attemptsFrom position tallies) =
      tallies.flatMap fun tally => tally.ended.map (·.result) := by
  induction tallies generalizing position with
  | nil => rfl
  | cons tally tallies ih =>
      rw [attemptsFrom, Attempt.results, List.filterMap_append, ← Attempt.results,
        ← Attempt.results, ih, List.flatMap_cons]
      congr 1
      simp only [Attempt.results, attemptsAt, List.filterMap_append, List.filterMap_map]
      simp

end Tally

/-! ## What was dealt and what was attempted -/

/-- What is collected from a list is all parts, if it is one part for each element. -/
private theorem perm_flatten_of_getElem? {α β : Type} {items : List α} {parts : List (List β)}
    {collect : α → List β} (hlength : items.length = parts.length)
    (hpart : ∀ (index : Nat) (item : α) (part : List β), items[index]? = some item →
      parts[index]? = some part → (collect item).Perm part) :
    (items.flatMap collect).Perm parts.flatten := by
  induction items generalizing parts with
  | nil =>
      obtain rfl := List.length_eq_zero_iff.mp hlength.symm
      exact .refl _
  | cons item items ih =>
      cases parts with
      | nil => cases hlength
      | cons part parts =>
          rw [List.flatMap_cons, List.flatten_cons]
          refine (hpart 0 item part rfl rfl).append (ih (Nat.succ.inj hlength) ?_)
          exact fun index => hpart (index + 1)

namespace Crowd

variable {format : WireFormat} {shares : List (List Transaction)} {base : Statistics}
  {idle : List Worker} {tallies : List Tally} {crowd : Crowd}

/-- Every tally has its share. -/
theorem Accounts.sound_of_mem (haccounts : Accounts format shares base idle tallies crowd)
    {tally : Tally} (htally : tally ∈ tallies) : ∃ share, tally.Sound format share := by
  obtain ⟨index, hindex⟩ := List.mem_iff_getElem?.mp htally
  have hlt := (List.getElem?_eq_some_iff.mp hindex).1
  rw [haccounts.length] at hlt
  exact ⟨_, haccounts.sound index tally _ hindex (List.getElem?_eq_getElem hlt)⟩

theorem Accounts.perm_shares (haccounts : Accounts format shares base idle tallies crowd) :
    (tallies.flatMap fun tally => tally.attempts.map (·.2) ++
      (tally.worker.pending ++ tally.worker.queue.flatten)).Perm shares.flatten :=
  perm_flatten_of_getElem? haccounts.length fun index tally share htally hshare =>
    (haccounts.sound index tally share htally hshare).balanced.dealt

/-- What was attempted is part of what was dealt. -/
theorem Accounts.subperm_shares (haccounts : Accounts format shares base idle tallies crowd) :
    (tallies.flatMap fun tally => tally.attempts.map (·.2)).Subperm shares.flatten := by
  -- The rest of what was dealt is still pending or queued.
  have hsplit := List.flatMap_append_perm tallies (fun tally => tally.attempts.map (·.2))
    fun tally => tally.worker.pending ++ tally.worker.queue.flatten
  have hpart := (List.sublist_append_left
    (tallies.flatMap fun tally => tally.attempts.map (·.2))
    (tallies.flatMap fun tally => tally.worker.pending ++ tally.worker.queue.flatten)).subperm
  exact hpart.trans (hsplit.trans haccounts.perm_shares).subperm

section Finished

variable (haccounts : Accounts format shares base idle tallies crowd)
  (hfinished : ∀ tally ∈ tallies, tally.worker.fate = .finished)

include haccounts hfinished

theorem Accounts.idle_of_finished {tally : Tally} (htally : tally ∈ tallies) :
    tally.worker.Idle := by
  obtain ⟨share, hsound⟩ := haccounts.sound_of_mem htally
  exact hsound.idle (hfinished tally htally)

/-- When all workers have finished what was dealt was attempted. -/
theorem Accounts.perm_of_finished :
    (tallies.flatMap fun tally => tally.attempts.map (·.2)).Perm shares.flatten := by
  refine List.Perm.trans (.of_eq ?_) haccounts.perm_shares
  apply List.flatMap_congr
  intro tally htally
  have hidle := haccounts.idle_of_finished hfinished htally
  rw [hidle.pending, hidle.queue, List.flatten_nil, List.append_nil, List.append_nil]

/-- When all workers have finished all attempts have a result. -/
theorem Accounts.ended_of_finished {position : Nat} {attempt : Attempt}
    (hattempt : attempt ∈ Tally.attemptsFrom position tallies) : attempt.result?.isSome := by
  obtain ⟨index, tally, htally, hattempt⟩ := Tally.mem_attemptsFrom.mp hattempt
  have hidle := haccounts.idle_of_finished hfinished (List.mem_of_getElem? htally)
  rw [Tally.attemptsAt, hidle.inHand, List.map_nil, List.append_nil] at hattempt
  obtain ⟨done, -, rfl⟩ := List.mem_map.mp hattempt
  rfl

/-- When all workers have finished the statistics have grown by the results. -/
theorem Accounts.grows_of_finished (position : Nat) :
    Statistics.Grows format
      ((Attempt.results (Tally.attemptsFrom position tallies)).map Submission.failureKind?) base
        crowd.place.pipeline.statistics := by
  refine haccounts.statistics.perm (.of_eq ?_)
  rw [Tally.results_attemptsFrom, List.map_flatMap]
  apply List.flatMap_congr
  intro tally htally
  have hidle := haccounts.idle_of_finished hfinished htally
  rw [Tally.entries, hidle.inHand, List.flatMap_nil, List.append_nil, List.map_map]
  rfl

omit hfinished in
/-- The workers have processed what has succeeded. -/
theorem Accounts.processed_eq (position : Nat) :
    tallies.flatMap (·.worker.processed) =
      (Attempt.results (Tally.attemptsFrom position tallies)).filterMap Except.toOption := by
  rw [Tally.results_attemptsFrom, List.filterMap_flatMap]
  apply List.flatMap_congr
  intro tally htally
  obtain ⟨share, hsound⟩ := haccounts.sound_of_mem htally
  rw [hsound.balanced.processed, List.filterMap_map]
  rfl

end Finished

end Crowd

end Clearing
