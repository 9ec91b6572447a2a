import Mathlib.Data.List.Induction
import Clearing.Proofs.Cache.Lookups

/-!
# The history of an expiring cache

Whoever asks a cache for a key and finds that the entry has expired removes it in a
step of its own, and in the meantime anything may happen to the cache.  Which entries
are in it depends therefore on who has asked, and when; what it answers does not, but
goes by what was inserted and invalidated alone (`History.get_answers_last_inserted`).

`ExpiringCache.History` keeps track of both.  Values are inserted and invalidated,
time passes, and any number of getters ask for keys and take their steps, all of this in
any order.

## Strategy

A row of the cache is the latest insertion of its key, and of the insertions that nothing
has undone only those that have expired can be missing (`History.Faithful`).  A removal
keeps this because it looks at the age again, and a wait because what is fresh later was
fresh before.  A getter answers what it saw when it looked (`History.getter_later`).
-/

namespace Clearing

namespace ExpiringCache

variable {κ ν : Type}

/-- How far somebody is who asks for the value of a key. -/
inductive Getter (κ ν : Type) where
  | looking (key : κ)
  /-- It found an entry that had expired and has yet to remove it. -/
  | removing (key : κ)
  | answered (found? : Option ν)
  deriving DecidableEq

/-- What can be done with a cache. -/
inductive Use (κ ν : Type) where
  | insert (key : κ) (value : ν)
  | invalidate (key : κ)
  | clear
  /-- Time passes. -/
  | wait (millis : Nat)
  /-- One more getter begins. -/
  | ask (key : κ)
  /-- A getter takes its next step. -/
  | go (getter : Nat)
  deriving DecidableEq

/-- What was known about a key before is no longer worth anything. -/
def Use.Supersedes (key : κ) : Use κ ν → Prop
  | .insert other _ => other = key
  | .invalidate other => other = key
  | .clear => True
  | _ => False

@[simp] theorem Use.supersedes_invalidate {key other : κ} :
    (Use.invalidate other : Use κ ν).Supersedes key ↔ other = key := Iff.rfl

/-- The latest insertion of a key, if nothing has undone it since; the past lists what was done
and when, the latest first. -/
def LastInserted (past : List (Use κ ν × Nat)) (key : κ) (entry : Aged ν) : Prop :=
  ∃ later earlier, past = later ++ (.insert key entry.value, entry.since) :: earlier ∧
    ∀ done ∈ later, ¬done.1.Supersedes key

section LastInserted

variable {past : List (Use κ ν × Nat)} {use : Use κ ν} {time : Nat} {key : κ} {entry : Aged ν}

theorem not_lastInserted_nil : ¬LastInserted ([] : List (Use κ ν × Nat)) key entry := by
  rintro ⟨later, earlier, hpast, -⟩
  cases later <;> cases hpast

theorem lastInserted_cons :
    LastInserted ((use, time) :: past) key entry ↔
      use = .insert key entry.value ∧ time = entry.since ∨
        ¬use.Supersedes key ∧ LastInserted past key entry := by
  constructor
  · rintro ⟨later, earlier, hpast, hquiet⟩
    cases later with
    | nil =>
        cases hpast
        exact .inl ⟨rfl, rfl⟩
    | cons latest later =>
        cases hpast
        obtain ⟨hlatest, hlater⟩ := List.forall_mem_cons.mp hquiet
        exact .inr ⟨hlatest, later, earlier, rfl, hlater⟩
  · rintro (⟨rfl, rfl⟩ | ⟨hlatest, later, earlier, rfl, hlater⟩)
    · exact ⟨[], past, rfl, nofun⟩
    · exact ⟨(use, time) :: later, earlier, rfl, List.forall_mem_cons.mpr ⟨hlatest, hlater⟩⟩

/-- What is done to other keys at most leaves the last insertion of a key. -/
theorem lastInserted_note (hquiet : ¬use.Supersedes key) :
    LastInserted ((use, time) :: past) key entry ↔ LastInserted past key entry := by
  rw [lastInserted_cons, and_iff_right hquiet, or_iff_right]
  rintro ⟨rfl, -⟩
  exact hquiet rfl

end LastInserted

variable [Ord κ]

/-- One step of a getter. -/
def Getter.step (now : Nat) (cache : ExpiringCache κ ν) :
    Getter κ ν → ExpiringCache κ ν × Getter κ ν
  | .looking key =>
    match cache.look? now key with
    | some value => (cache, .answered (some value))
    | none => (cache, if (cache.entries.find? key).isSome then .removing key else .answered none)
  | .removing key => (cache.dropExpired now key, .answered none)
  | .answered found? => (cache, .answered found?)

/-- With nothing in between, the steps of a getter are `get`. -/
theorem step_step_looking (now : Nat) (cache : ExpiringCache κ ν) (key : κ) :
    let looked := (Getter.looking key).step now cache
    looked.2.step now looked.1 =
      ((cache.get now key).2, .answered (cache.get now key).1) := by
  cases hlook : cache.look? now key with
  | some value =>
      have hsame := dropExpired_of_look?_isSome (Option.isSome_of_eq_some hlook)
      simp only [Getter.step, get, hlook, hsame]
  | none =>
      cases hfound : cache.entries.find? key with
      | some entry => simp [Getter.step, get, hlook, hfound]
      | none => simp [Getter.step, get, dropExpired, hlook, hfound]

/-- A step of a getter does nothing to the cache unless it removes. -/
theorem Getter.fst_step (getter : Getter κ ν) (now : Nat) (cache : ExpiringCache κ ν) :
    (getter.step now cache).1 = cache ∨
      ∃ key, getter = .removing key ∧ (getter.step now cache).1 = cache.dropExpired now key := by
  cases getter with
  | looking key =>
      left
      simp only [Getter.step]
      split <;> rfl
  | removing key => exact .inr ⟨key, rfl, rfl⟩
  | answered found? => exact .inl rfl

/-! ## Histories -/

/-- A cache in use: the time, those who ask, and what was done and when, the latest first. -/
structure History (κ ν : Type) where
  cache : ExpiringCache κ ν
  now : Nat
  getters : List (Getter κ ν)
  past : List (Use κ ν × Nat)

namespace History

/-- A cache without entries, which nobody has used. -/
def begin (lifetimeMillis : Nat) : History κ ν :=
  { cache := .empty lifetimeMillis, now := 0, getters := [], past := [] }

/-- What a use does to the cache, the clock and the getters. -/
def act (history : History κ ν) : Use κ ν → History κ ν
  | .insert key value => { history with cache := history.cache.insert history.now key value }
  | .invalidate key => { history with cache := history.cache.invalidate key }
  | .clear => { history with cache := history.cache.clear }
  | .wait millis => { history with now := history.now + millis }
  | .ask key => { history with getters := history.getters ++ [.looking key] }
  | .go getter =>
    match history.getters[getter]? with
    | some before =>
      { history with
        cache := (before.step history.now history.cache).1
        getters := history.getters.set getter (before.step history.now history.cache).2 }
    | none => history

/-- The history with one more use. -/
def step (history : History κ ν) (use : Use κ ν) : History κ ν :=
  { history.act use with past := (use, history.now) :: history.past }

/-- The history with more uses, one after the other. -/
def run (history : History κ ν) (uses : List (Use κ ν)) : History κ ν :=
  uses.foldl step history

variable {history : History κ ν} {lifetimeMillis asker : Nat} {key : κ}

theorem run_cons (use : Use κ ν) (uses : List (Use κ ν)) :
    history.run (use :: uses) = (history.step use).run uses := rfl

theorem run_append (uses more : List (Use κ ν)) :
    history.run (uses ++ more) = (history.run uses).run more :=
  List.foldl_append

/-- What should be answered about a key: what was inserted last, if that is younger than a
lifetime. -/
def Current (history : History κ ν) (lifetimeMillis : Nat) (key : κ) (value : ν) : Prop :=
  ∃ since ≤ history.now, LastInserted history.past key ⟨value, since⟩ ∧
    history.now - since < lifetimeMillis

/-! ## What is in the cache -/

/-- The cache holds what was inserted last, except that what has expired can be missing. -/
structure Faithful (lifetimeMillis : Nat) (history : History κ ν) : Prop where
  lifetime : history.cache.lifetimeMillis = lifetimeMillis
  ascending : history.cache.entries.Ascending
  inserted {key : κ} {entry : Aged ν} (hrow : (key, entry) ∈ history.cache.entries) :
    LastInserted history.past key entry
  since_le {key : κ} {entry : Aged ν} (hinserted : LastInserted history.past key entry) :
    entry.since ≤ history.now
  kept {key : κ} {entry : Aged ν} (hinserted : LastInserted history.past key entry)
    (hfresh : history.now < entry.since + lifetimeMillis) : (key, entry) ∈ history.cache.entries

theorem faithful_begin (lifetimeMillis : Nat) :
    (begin lifetimeMillis : History κ ν).Faithful lifetimeMillis where
  lifetime := rfl
  ascending := List.Pairwise.nil
  inserted hrow := absurd hrow List.not_mem_nil
  since_le hinserted := absurd hinserted not_lastInserted_nil
  kept hinserted := absurd hinserted not_lastInserted_nil

variable [Std.LawfulEqOrd κ] [Std.TransOrd κ]

namespace Faithful

variable (hfaithful : history.Faithful lifetimeMillis)

include hfaithful

theorem insert (key : κ) (value : ν) :
    (history.step (.insert key value)).Faithful lifetimeMillis where
  lifetime := hfaithful.lifetime
  ascending := Table.ascending_insert hfaithful.ascending
  inserted {other entry} hrow := by
    refine lastInserted_cons.mpr ?_
    by_cases hkey : key = other
    · have hfound := Table.find?_of_mem (Table.ascending_insert hfaithful.ascending) hrow
      rw [← hkey, Table.find?_insert_self, Option.some.injEq] at hfound
      rw [← hkey, ← hfound]
      exact .inl ⟨rfl, rfl⟩
    · refine .inr ⟨hkey, ?_⟩
      rcases Table.mem_of_mem_insert hrow with hnew | hold
      · exact absurd (Prod.ext_iff.mp hnew).1.symm hkey
      · exact hfaithful.inserted hold
  since_le hinserted := by
    rcases lastInserted_cons.mp hinserted with ⟨-, hnow⟩ | ⟨-, hold⟩
    · exact Nat.le_of_eq hnow.symm
    · exact hfaithful.since_le hold
  kept {other entry} hinserted hfresh := by
    rcases lastInserted_cons.mp hinserted with ⟨hnew, hnow⟩ | ⟨hkey, hold⟩
    · cases hnew
      cases entry
      cases hnow
      exact Table.self_mem_insert _ _ _
    · exact Table.mem_insert_of_mem (hfaithful.kept hold hfresh) (Ne.symm hkey)

omit [Std.TransOrd κ] in
theorem invalidate (key : κ) : (history.step (.invalidate key)).Faithful lifetimeMillis where
  lifetime := hfaithful.lifetime
  ascending := Table.ascending_erase hfaithful.ascending key
  inserted hrow := by
    refine (lastInserted_note ?_).mpr (hfaithful.inserted (Table.mem_of_mem_erase hrow))
    exact mt Use.supersedes_invalidate.mp (Table.ne_of_mem_erase hrow)
  since_le hinserted := by
    rcases lastInserted_cons.mp hinserted with ⟨hnew, -⟩ | ⟨-, hold⟩
    · cases hnew
    · exact hfaithful.since_le hold
  kept hinserted hfresh := by
    rcases lastInserted_cons.mp hinserted with ⟨hnew, -⟩ | ⟨hkey, hold⟩
    · cases hnew
    · exact (Table.mem_erase_iff (Ne.symm (mt Use.supersedes_invalidate.mpr hkey))).mpr
        (hfaithful.kept hold hfresh)

omit [Std.LawfulEqOrd κ] [Std.TransOrd κ] in
theorem clear : (history.step .clear).Faithful lifetimeMillis where
  lifetime := hfaithful.lifetime
  ascending := List.Pairwise.nil
  inserted hrow := absurd hrow List.not_mem_nil
  since_le hinserted := by
    rcases lastInserted_cons.mp hinserted with ⟨hnew, -⟩ | ⟨hkey, -⟩
    · cases hnew
    · exact absurd trivial hkey
  kept hinserted := by
    rcases lastInserted_cons.mp hinserted with ⟨hnew, -⟩ | ⟨hkey, -⟩
    · cases hnew
    · exact absurd trivial hkey

omit [Std.LawfulEqOrd κ] [Std.TransOrd κ] in
/-- The cache stays faithful while nothing is inserted or invalidated and only such rows go as
have expired. -/
theorem quiet {use : Use κ ν} {after : History κ ν} (hquiet : ∀ key, ¬use.Supersedes key)
    (hpast : after.past = (use, history.now) :: history.past) (hnow : history.now ≤ after.now)
    (hlifetime : after.cache.lifetimeMillis = history.cache.lifetimeMillis)
    (hascending : after.cache.entries.Ascending)
    (hrows : ∀ row ∈ after.cache.entries, row ∈ history.cache.entries)
    (hexpired : ∀ row ∈ history.cache.entries, row ∉ after.cache.entries →
      row.2.since + lifetimeMillis ≤ history.now) :
    after.Faithful lifetimeMillis where
  lifetime := hlifetime.trans hfaithful.lifetime
  ascending := hascending
  inserted hrow := by
    rw [hpast, lastInserted_note (hquiet _)]
    exact hfaithful.inserted (hrows _ hrow)
  since_le hinserted := by
    rw [hpast, lastInserted_note (hquiet _)] at hinserted
    exact Nat.le_trans (hfaithful.since_le hinserted) hnow
  kept hinserted hfresh := by
    rw [hpast, lastInserted_note (hquiet _)] at hinserted
    have hearlier := Nat.lt_of_le_of_lt hnow hfresh
    by_contra hgone
    exact Nat.not_le_of_lt hearlier (hexpired _ (hfaithful.kept hinserted hearlier) hgone)

/-- A row that is gone after a step of a getter has expired. -/
theorem expired_of_go {row : κ × Aged ν} (hrow : row ∈ history.cache.entries)
    (hgone : row ∉ (history.step (.go asker)).cache.entries) :
    history.getters[asker]? = some (.removing row.1) ∧
      row.2.since + lifetimeMillis ≤ history.now := by
  simp only [step, act] at hgone
  split at hgone
  · rename_i getter hgetter
    rcases getter.fst_step history.now history.cache with hsame | ⟨key, rfl, hdrop⟩
    · rw [hsame] at hgone
      exact absurd hrow hgone
    · rw [hdrop] at hgone
      obtain ⟨rfl, hexpired⟩ := expired_of_not_mem_dropExpired hfaithful.ascending hrow hgone
      have hsince := hfaithful.since_le (hfaithful.inserted hrow)
      rw [hfaithful.lifetime] at hexpired
      exact ⟨hgetter, by omega⟩
  · exact absurd hrow hgone

theorem go (asker : Nat) : (history.step (.go asker)).Faithful lifetimeMillis := by
  have hexpired (row) (hrow : row ∈ history.cache.entries)
      (hgone : row ∉ (history.step (.go asker)).cache.entries) :=
    (hfaithful.expired_of_go hrow hgone).2
  have hcache : (history.step (.go asker)).cache = history.cache ∨
      ∃ key, (history.step (.go asker)).cache = history.cache.dropExpired history.now key := by
    simp only [step, act]
    split
    · rename_i getter hgetter
      exact (getter.fst_step history.now history.cache).imp_right
        fun ⟨key, _, hdrop⟩ => ⟨key, hdrop⟩
    · exact .inl rfl
  have hnow : (history.step (.go asker)).now = history.now := by
    simp only [step, act]
    split <;> rfl
  rcases hcache with hsame | ⟨key, hdrop⟩
  · exact hfaithful.quiet (fun _ => id) rfl (Nat.le_of_eq hnow.symm) (by rw [hsame])
      (by rw [hsame]; exact hfaithful.ascending) (fun row hrow => by rwa [hsame] at hrow) hexpired
  · exact hfaithful.quiet (fun _ => id) rfl (Nat.le_of_eq hnow.symm)
      (by rw [hdrop, lifetimeMillis_dropExpired])
      (by rw [hdrop]; exact ascending_dropExpired hfaithful.ascending)
      (fun row hrow => mem_of_mem_dropExpired (hdrop ▸ hrow)) hexpired

theorem step (use : Use κ ν) : (history.step use).Faithful lifetimeMillis := by
  cases use with
  | insert key value => exact hfaithful.insert key value
  | invalidate key => exact hfaithful.invalidate key
  | clear => exact hfaithful.clear
  | wait millis =>
      exact hfaithful.quiet (fun _ => id) rfl (Nat.le_add_right _ _) rfl hfaithful.ascending
        (fun _ => id) fun _ hrow hgone => absurd hrow hgone
  | ask key =>
      exact hfaithful.quiet (fun _ => id) rfl (Nat.le_refl _) rfl hfaithful.ascending
        (fun _ => id) fun _ hrow hgone => absurd hrow hgone
  | go asker => exact hfaithful.go asker

theorem run (uses : List (Use κ ν)) : (history.run uses).Faithful lifetimeMillis := by
  induction uses generalizing history with
  | nil => exact hfaithful
  | cons use uses ih => exact ih (hfaithful.step use)

/-- What a look finds is what is current. -/
theorem look?_eq_some_iff_current {value : ν} :
    history.cache.look? history.now key = some value ↔
      history.Current lifetimeMillis key value := by
  rw [look?_eq_some_iff hfaithful.ascending, hfaithful.lifetime]
  constructor
  · rintro ⟨since, hrow, hfresh⟩
    have hinserted := hfaithful.inserted hrow
    exact ⟨since, hfaithful.since_le hinserted, hinserted, hfresh⟩
  · rintro ⟨since, hsince, hinserted, hfresh⟩
    exact ⟨since, hfaithful.kept hinserted (by dsimp only; omega), hfresh⟩

end Faithful

/-! ## What getters answer -/

omit [Std.LawfulEqOrd κ] [Std.TransOrd κ]

section Getters

variable {getter : Getter κ ν} (hgetter : history.getters[asker]? = some getter)

include hgetter

theorem getElem?_getters_go :
    (history.step (.go asker)).getters[asker]? =
      some (getter.step history.now history.cache).2 := by
  simp only [step, act, hgetter]
  exact List.getElem?_set_self (List.getElem?_eq_some_iff.mp hgetter).1

/-- Nobody but a getter itself changes how far it is. -/
theorem getElem?_getters_of_ne {use : Use κ ν} (hother : use ≠ .go asker) :
    (history.step use).getters[asker]? = some getter := by
  cases use with
  | ask key =>
      have hindex := (List.getElem?_eq_some_iff.mp hgetter).1
      exact (List.getElem?_append_left hindex).trans hgetter
  | go other =>
      have hne : other ≠ asker := fun hsame => hother (hsame ▸ rfl)
      simp only [step, act]
      split
      · exact (List.getElem?_set_ne hne).trans hgetter
      · exact hgetter
  | _ => exact hgetter

end Getters

/-- What a getter has answered it has answered for good. -/
theorem getElem?_getters_answered {found? : Option ν}
    (hanswered : history.getters[asker]? = some (.answered found?)) (after : List (Use κ ν)) :
    (history.run after).getters[asker]? = some (.answered found?) := by
  induction after generalizing history with
  | nil => exact hanswered
  | cons use after ih =>
      refine ih ?_
      by_cases hself : use = .go asker
      · rw [hself, getElem?_getters_go hanswered, Getter.step]
      · exact getElem?_getters_of_ne hanswered hself

/-- A getter that is about to remove does so in its next step, and answers nothing. -/
theorem getElem?_getters_removing
    (hremoving : history.getters[asker]? = some (.removing key)) (after : List (Use κ ν)) :
    (history.run after).getters[asker]? = some (.answered none) ∨
      (history.run after).getters[asker]? = some (.removing key) ∧ Use.go asker ∉ after := by
  induction after generalizing history with
  | nil => exact .inr ⟨hremoving, List.not_mem_nil⟩
  | cons use after ih =>
      by_cases hself : use = .go asker
      · refine .inl (getElem?_getters_answered ?_ after)
        rw [hself, getElem?_getters_go hremoving, Getter.step]
      · refine (ih (getElem?_getters_of_ne hremoving hself)).imp_right ?_
        rintro ⟨hstill, hafter⟩
        exact ⟨hstill, List.not_mem_cons_of_ne_of_not_mem (Ne.symm hself) hafter⟩

/-- A getter answers what it saw when it looked; until then it can be that it has to remove. -/
theorem getter_later (hlooking : history.getters[asker]? = some (.looking key))
    (after : List (Use κ ν)) :
    let later := history.run (.go asker :: after)
    later.getters[asker]? = some (.answered (history.cache.look? history.now key)) ∨
      later.getters[asker]? = some (.removing key) ∧ Use.go asker ∉ after ∧
        history.cache.look? history.now key = none := by
  have hlooked := getElem?_getters_go hlooking
  intro later
  rw [Getter.step] at hlooked
  cases hlook : history.cache.look? history.now key with
  | some value =>
      rw [hlook] at hlooked
      exact .inl (getElem?_getters_answered hlooked after)
  | none =>
      rw [hlook] at hlooked
      dsimp only at hlooked
      split at hlooked
      · rcases getElem?_getters_removing hlooked after with hanswered | ⟨hstill, hafter⟩
        · exact .inl hanswered
        · exact .inr ⟨hstill, hafter, rfl⟩
      · exact .inl (getElem?_getters_answered hlooked after)

/-- **What a cache answers is settled by its history.**  Whatever was done before and is done
while somebody asks for a key, the answer is the value that was inserted last for the key and not
invalidated, if that was younger than the lifetime when the asker looked, and nothing otherwise;
and what it removes afterwards has expired. -/
theorem get_answers_last_inserted [Std.LawfulEqOrd κ] [Std.TransOrd κ] (lifetimeMillis : Nat)
    (before after : List (Use κ ν)) {asker : Nat} {key : κ}
    (hlooking : ((begin lifetimeMillis).run before).getters[asker]? = some (.looking key)) :
    let looked := (begin lifetimeMillis).run before
    let later := looked.run (.go asker :: after)
    ((later.getters[asker]? = some (.removing key) ∧ Use.go asker ∉ after ∧
        ∀ value, ¬looked.Current lifetimeMillis key value) ∨
      ∃ found?, later.getters[asker]? = some (.answered found?) ∧
        ∀ value, found? = some value ↔ looked.Current lifetimeMillis key value) ∧
    ∀ row ∈ later.cache.entries, row ∉ (later.step (.go asker)).cache.entries →
      row.1 = key ∧ row.2.since + lifetimeMillis ≤ later.now := by
  intro looked later
  have hfaithful : looked.Faithful lifetimeMillis := (faithful_begin lifetimeMillis).run before
  have hlook (value : ν) : looked.cache.look? looked.now key = some value ↔
      looked.Current lifetimeMillis key value := hfaithful.look?_eq_some_iff_current
  have hlater := getter_later hlooking after
  refine ⟨?_, fun row hrow hgone => ?_⟩
  · rcases hlater with hanswered | ⟨hremoving, hafter, hnone⟩
    · exact .inr ⟨_, hanswered, hlook⟩
    · refine .inl ⟨hremoving, hafter, fun value hcurrent => ?_⟩
      rw [← hlook, hnone] at hcurrent
      cases hcurrent
  · obtain ⟨hremoving, hexpired⟩ := (hfaithful.run _).expired_of_go hrow hgone
    refine ⟨?_, hexpired⟩
    rcases hlater with hanswered | ⟨hstill, -⟩
    · cases hremoving.symm.trans hanswered
    · cases hremoving.symm.trans hstill
      rfl

/-- A customer is inserted again after its entry was found expired, at the same instant: the asker
is not told of it, but leaves it in the cache. -/
theorem get_answers_last_inserted_reinserted :
    let looked : History Int Bool := (begin 10).run [.insert 7 true, .wait 10, .ask 7]
    let later := looked.run [.go 0, .insert 7 false]
    later.getters[0]? = some (.removing 7) ∧ (∀ value, ¬looked.Current 10 7 value) ∧
      (7, ⟨false, 10⟩) ∈ (later.step (.go 0)).cache.entries := by
  intro looked later
  have hlooking : looked.getters[0]? = some (.looking 7) := by decide
  have hremoving : later.getters[0]? = some (.removing 7) := by decide
  obtain ⟨hanswer, hexpired⟩ :=
    get_answers_last_inserted 10 [.insert 7 true, .wait 10, .ask 7] [.insert 7 false] hlooking
  refine ⟨hremoving, ?_, ?_⟩
  · rcases hanswer with ⟨-, -, hnone⟩ | ⟨found?, hanswered, -⟩
    · exact hnone
    · cases hremoving.symm.trans hanswered
  · by_contra hgone
    have hrow : (7, ⟨false, 10⟩) ∈ later.cache.entries := by decide
    exact absurd (hexpired _ hrow hgone).2 (by decide)

end History

end ExpiringCache

end Clearing
