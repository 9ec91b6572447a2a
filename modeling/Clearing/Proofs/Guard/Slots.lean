import Mathlib.Data.List.Perm.Basic
import Mathlib.Logic.Relation
import Clearing.Guard.Bulkhead
import Clearing.Number.Power

/-!
# Slots and tickets

Whoever deals with a bulkhead has some of its slots, and a ticket while standing in
line: that is a stake in it.  `Bulkhead.Deal` lists what can be done about a bulkhead
and one's own stake, and a bulkhead is in order with some stakes (`Bulkhead.InOrder`)
if they account for all that is not free.

A bulkhead stays in order whatever is dealt (`InOrder.deals`): a slot is never lost, a
ticket is never given out twice, and nobody waits while a slot is free.
-/

namespace Clearing

theorem sumOf_perm {numbers others : List Nat} (hperm : numbers.Perm others) :
    sumOf numbers = sumOf others := by
  induction hperm with
  | nil => rfl
  | cons number _ ih => rw [sumOf_cons, sumOf_cons, ih]
  | swap first second rest =>
      simp only [sumOf_cons]
      omega
  | trans _ _ hfirst hsecond => exact hfirst.trans hsecond

/-- What someone has of a bulkhead: slots, and a ticket while standing in line. -/
structure Stake where
  slots : Nat
  ticket? : Option Nat
  deriving DecidableEq

/-- The slots that someone has, with the one that is assigned to the ticket. -/
def Stake.worth (bulkhead : Bulkhead) (stake : Stake) : Nat :=
  stake.slots + if stake.ticket?.any (· ∈ bulkhead.assigned) then 1 else 0

theorem Stake.worth_none (bulkhead : Bulkhead) (slots : Nat) :
    (⟨slots, none⟩ : Stake).worth bulkhead = slots := rfl

theorem Stake.worth_some (bulkhead : Bulkhead) (slots ticket : Nat) :
    (⟨slots, some ticket⟩ : Stake).worth bulkhead =
      slots + if ticket ∈ bulkhead.assigned then 1 else 0 := by
  simp [Stake.worth]

namespace Bulkhead

/-- One thing that is done about a bulkhead and the stake of whoever does it. -/
inductive Deal : Bulkhead × Stake → Bulkhead × Stake → Prop
  /-- A free slot is taken. -/
  | take {bulkhead taken : Bulkhead} {slots : Nat} (htake : bulkhead.take? = some taken) :
      Deal (bulkhead, ⟨slots, none⟩) (taken, ⟨slots + 1, none⟩)
  /-- A ticket is drawn. -/
  | queue {bulkhead : Bulkhead} {slots : Nat} (hfull : bulkhead.take? = none) :
      Deal (bulkhead, ⟨slots, none⟩) (bulkhead.queue.2, ⟨slots, some bulkhead.queue.1⟩)
  /-- The slot that is assigned to a ticket is taken. -/
  | claim {bulkhead claimed : Bulkhead} {slots ticket : Nat}
      (hclaim : bulkhead.claim? ticket = some claimed) :
      Deal (bulkhead, ⟨slots, some ticket⟩) (claimed, ⟨slots + 1, none⟩)
  /-- A ticket is given up. -/
  | giveUp {bulkhead : Bulkhead} {slots ticket : Nat} :
      Deal (bulkhead, ⟨slots, some ticket⟩) (bulkhead.giveUp ticket, ⟨slots, none⟩)
  /-- A slot is given back. -/
  | release {bulkhead : Bulkhead} {slots : Nat} {ticket? : Option Nat} :
      Deal (bulkhead, ⟨slots + 1, ticket?⟩) (bulkhead.release, ⟨slots, ticket?⟩)

/-- Some things, one after the other. -/
abbrev Deals : Bulkhead × Stake → Bulkhead × Stake → Prop :=
  Relation.ReflTransGen Deal

theorem take?_eq_some_iff {bulkhead taken : Bulkhead} :
    bulkhead.take? = some taken ↔
      0 < bulkhead.free ∧ taken = { bulkhead with free := bulkhead.free - 1 } := by
  unfold take?
  split <;> simp_all [eq_comm]

theorem take?_eq_none_iff {bulkhead : Bulkhead} : bulkhead.take? = none ↔ bulkhead.free = 0 := by
  unfold take?
  split
  · rename_i hfree
    exact iff_of_false nofun (by omega)
  · rename_i hfull
    exact iff_of_true rfl (by omega)

theorem claim?_eq_some_iff {bulkhead claimed : Bulkhead} {ticket : Nat} :
    bulkhead.claim? ticket = some claimed ↔
      ticket ∈ bulkhead.assigned ∧
        claimed = { bulkhead with assigned := bulkhead.assigned.erase ticket } := by
  unfold claim?
  split <;> simp_all [eq_comm]

theorem claim?_eq_none_iff {bulkhead : Bulkhead} {ticket : Nat} :
    bulkhead.claim? ticket = none ↔ ticket ∉ bulkhead.assigned := by
  unfold claim?
  split <;> simp_all

theorem capacity_of_deals {before after : Bulkhead × Stake} (hdeals : Deals before after) :
    after.1.capacity = before.1.capacity := by
  induction hdeals with
  | refl => rfl
  | tail _ hdeal ih =>
      rw [← ih]
      cases hdeal with
      | take htake => rw [(take?_eq_some_iff.mp htake).2]
      | queue => rfl
      | claim hclaim => rw [(claim?_eq_some_iff.mp hclaim).2]
      | giveUp =>
          show (Bulkhead.giveUp _ _).capacity = _
          unfold Bulkhead.giveUp
          split
          · rename_i hclaim
            rw [capacity_release, (claim?_eq_some_iff.mp hclaim).2]
          · rfl
      | release => exact capacity_release _

/-- A bulkhead and what those who deal with it have of it: their slots and the tickets in line. -/
structure InOrder (bulkhead : Bulkhead) (stakes : List Stake) : Prop where
  total : bulkhead.free + bulkhead.assigned.length + sumOf (stakes.map (·.slots)) =
    bulkhead.capacity
  tickets : (stakes.filterMap (·.ticket?)).Perm (bulkhead.waiting ++ bulkhead.assigned)
  distinct : (bulkhead.waiting ++ bulkhead.assigned).Nodup
  issued : ∀ ticket ∈ bulkhead.waiting ++ bulkhead.assigned, ticket < bulkhead.nextTicket
  busy : bulkhead.free = 0 ∨ bulkhead.waiting = []

theorem inOrder_new (settings : BulkheadSettings) : (new settings).InOrder [] :=
  ⟨rfl, .nil, List.nodup_nil, nofun, .inr rfl⟩

namespace InOrder

variable {bulkhead : Bulkhead} {stake : Stake} {stakes others : List Stake} {slots ticket : Nat}

/-- It does not matter in which order the stakes are listed. -/
theorem perm (horder : bulkhead.InOrder stakes) (hperm : stakes.Perm others) :
    bulkhead.InOrder others where
  total := by
    rw [← sumOf_perm (hperm.map _)]
    exact horder.total
  tickets := (hperm.filterMap _).symm.trans horder.tickets
  distinct := horder.distinct
  issued := horder.issued
  busy := horder.busy

/-- Who has nothing does not count. -/
theorem cons_nothing_iff : bulkhead.InOrder (⟨0, none⟩ :: stakes) ↔ bulkhead.InOrder stakes := by
  constructor
  all_goals
    intro horder
    refine ⟨?_, horder.tickets, horder.distinct, horder.issued, horder.busy⟩
    have htotal := horder.total
    simp only [List.map_cons, sumOf_cons] at htotal ⊢
    omega

/-! ## What is dealt keeps a bulkhead in order -/

theorem take {taken : Bulkhead} (horder : bulkhead.InOrder (⟨slots, none⟩ :: stakes))
    (htake : bulkhead.take? = some taken) : taken.InOrder (⟨slots + 1, none⟩ :: stakes) := by
  obtain ⟨hfree, rfl⟩ := take?_eq_some_iff.mp htake
  refine ⟨?_, horder.tickets, horder.distinct, horder.issued, ?_⟩
  · have htotal := horder.total
    simp only [List.map_cons, sumOf_cons] at htotal ⊢
    omega
  · exact .inr (horder.busy.resolve_left (by omega))

theorem queue (horder : bulkhead.InOrder (⟨slots, none⟩ :: stakes))
    (hfull : bulkhead.take? = none) :
    bulkhead.queue.2.InOrder (⟨slots, some bulkhead.queue.1⟩ :: stakes) := by
  -- The new ticket is larger than all others and goes to the end of the line.
  have hnew : ((bulkhead.waiting ++ [bulkhead.nextTicket]) ++ bulkhead.assigned).Perm
      (bulkhead.nextTicket :: (bulkhead.waiting ++ bulkhead.assigned)) := by
    rw [List.append_assoc]
    exact List.perm_middle
  have hfree : bulkhead.free = 0 := take?_eq_none_iff.mp hfull
  refine ⟨horder.total, ?_, ?_, ?_, .inl hfree⟩
  · exact (horder.tickets.cons _).trans hnew.symm
  · refine hnew.nodup_iff.mpr (List.nodup_cons.mpr ⟨?_, horder.distinct⟩)
    exact fun hold => Nat.lt_irrefl _ (horder.issued _ hold)
  · intro ticket hticket
    show ticket < bulkhead.nextTicket + 1
    rcases List.mem_cons.mp (hnew.mem_iff.mp hticket) with rfl | hold
    · exact Nat.lt_succ_self _
    · exact Nat.lt_succ_of_lt (horder.issued ticket hold)

/-- The ticket of a stake is in line or has a slot assigned to it. -/
theorem mem_of_ticket (horder : bulkhead.InOrder (⟨slots, some ticket⟩ :: stakes)) :
    ticket ∈ bulkhead.waiting ++ bulkhead.assigned :=
  horder.tickets.mem_iff.mp List.mem_cons_self

/-- The tickets of the others are the other tickets. -/
theorem tickets_erase (horder : bulkhead.InOrder (⟨slots, some ticket⟩ :: stakes)) :
    (stakes.filterMap (·.ticket?)).Perm ((bulkhead.waiting ++ bulkhead.assigned).erase ticket) := by
  have hothers := horder.tickets.erase ticket
  rwa [List.filterMap_cons_some (f := Stake.ticket?) rfl, List.erase_cons_head] at hothers

theorem claim {claimed : Bulkhead} (horder : bulkhead.InOrder (⟨slots, some ticket⟩ :: stakes))
    (hclaim : bulkhead.claim? ticket = some claimed) :
    claimed.InOrder (⟨slots + 1, none⟩ :: stakes) := by
  obtain ⟨hassigned, rfl⟩ := claim?_eq_some_iff.mp hclaim
  have hwaiting : ticket ∉ bulkhead.waiting := fun hmem =>
    (List.nodup_append.mp horder.distinct).2.2 ticket hmem ticket hassigned rfl
  have herase : (bulkhead.waiting ++ bulkhead.assigned).erase ticket =
      bulkhead.waiting ++ bulkhead.assigned.erase ticket :=
    List.erase_append_right _ hwaiting
  refine ⟨?_, ?_, ?_, ?_, horder.busy⟩
  · have htotal := horder.total
    have hlength := List.length_erase_of_mem hassigned
    have hpos := List.length_pos_of_mem hassigned
    simp only [List.map_cons, sumOf_cons] at htotal ⊢
    omega
  · exact herase ▸ horder.tickets_erase
  · exact herase ▸ horder.distinct.erase ticket
  · intro other hother
    exact horder.issued other (List.mem_of_mem_erase (herase ▸ hother))

theorem release {ticket? : Option Nat} (horder : bulkhead.InOrder (⟨slots + 1, ticket?⟩ :: stakes)) :
    bulkhead.release.InOrder (⟨slots, ticket?⟩ :: stakes) := by
  have htotal := horder.total
  simp only [List.map_cons, sumOf_cons] at htotal
  unfold Bulkhead.release
  split
  · rename_i hwaiting
    refine ⟨?_, horder.tickets, horder.distinct, horder.issued, .inr hwaiting⟩
    simp only [List.map_cons, sumOf_cons]
    omega
  · -- The slot goes to the oldest ticket, which leaves the line.
    rename_i oldest rest hwaiting
    have hmoved : (bulkhead.waiting ++ bulkhead.assigned).Perm
        (rest ++ (bulkhead.assigned ++ [oldest])) := by
      rw [hwaiting, List.cons_append, ← List.append_assoc]
      exact (List.perm_append_singleton ..).symm
    have hfree : bulkhead.free = 0 := horder.busy.resolve_right (by simp [hwaiting])
    refine ⟨?_, horder.tickets.trans hmoved, hmoved.nodup_iff.mp horder.distinct, ?_, .inl hfree⟩
    · simp only [List.map_cons, sumOf_cons, List.length_append, List.length_singleton]
      omega
    · exact fun ticket hticket => horder.issued ticket (hmoved.mem_iff.mpr hticket)

theorem giveUp (horder : bulkhead.InOrder (⟨slots, some ticket⟩ :: stakes)) :
    (bulkhead.giveUp ticket).InOrder (⟨slots, none⟩ :: stakes) := by
  unfold Bulkhead.giveUp
  split
  · -- A slot was assigned to the ticket already: it is taken and given back.
    rename_i claimed hclaim
    exact (horder.claim hclaim).release
  · rename_i hclaim
    have hassigned := claim?_eq_none_iff.mp hclaim
    have hwaiting : ticket ∈ bulkhead.waiting :=
      (List.mem_append.mp horder.mem_of_ticket).resolve_right hassigned
    have herase : (bulkhead.waiting ++ bulkhead.assigned).erase ticket =
        bulkhead.waiting.erase ticket ++ bulkhead.assigned :=
      List.erase_append_left _ hwaiting
    have hfree : bulkhead.free = 0 := horder.busy.resolve_right (List.ne_nil_of_mem hwaiting)
    refine ⟨horder.total, ?_, ?_, ?_, .inl hfree⟩
    · exact herase ▸ horder.tickets_erase
    · exact herase ▸ horder.distinct.erase ticket
    · exact fun other hother => horder.issued other (List.mem_of_mem_erase (herase ▸ hother))

theorem deal {after : Bulkhead} {later : Stake} (horder : bulkhead.InOrder (stake :: stakes))
    (hdeal : Deal (bulkhead, stake) (after, later)) : after.InOrder (later :: stakes) := by
  cases hdeal with
  | take htake => exact horder.take htake
  | queue hfull => exact horder.queue hfull
  | claim hclaim => exact horder.claim hclaim
  | giveUp => exact horder.giveUp
  | release => exact horder.release

/-- **A bulkhead stays in order**, whatever one of those who deal with it does. -/
theorem deals {after : Bulkhead} {later : Stake} (horder : bulkhead.InOrder (stake :: stakes))
    (hdeals : Deals (bulkhead, stake) (after, later)) : after.InOrder (later :: stakes) := by
  have hrun : ∀ last, Deals (bulkhead, stake) last → last.1.InOrder (last.2 :: stakes) := by
    intro last hdeals
    induction hdeals with
    | refl => exact horder
    | tail _ hdeal ih => exact ih.deal hdeal
  exact hrun _ hdeals

/-! ## What a bulkhead in order is like -/

/-- The stakes are worth all slots that are not free. -/
theorem sum_worth (horder : bulkhead.InOrder stakes) :
    sumOf (stakes.map (·.worth bulkhead)) + bulkhead.free = bulkhead.capacity := by
  -- Every assigned slot belongs to one of the tickets, and to only one of them.
  have hsum : ∀ stakes : List Stake, sumOf (stakes.map (·.worth bulkhead)) =
      sumOf (stakes.map (·.slots)) +
        (stakes.filterMap (·.ticket?)).countP (· ∈ bulkhead.assigned) := by
    intro stakes
    induction stakes with
    | nil => rfl
    | cons stake stakes ih =>
        obtain ⟨slots, ticket?⟩ := stake
        cases ticket? <;>
          simp only [List.map_cons, sumOf_cons, List.filterMap_cons, List.countP_cons, ih,
            Stake.worth_none, Stake.worth_some, decide_eq_true_eq]
        all_goals omega
  have hassigned : (bulkhead.waiting ++ bulkhead.assigned).countP (· ∈ bulkhead.assigned) =
      bulkhead.assigned.length := by
    have hwaiting : bulkhead.waiting.countP (· ∈ bulkhead.assigned) = 0 := by
      rw [List.countP_eq_zero]
      intro ticket hticket hassigned
      exact (List.nodup_append.mp horder.distinct).2.2 ticket hticket ticket
        (of_decide_eq_true hassigned) rfl
    rw [List.countP_append, hwaiting, Nat.zero_add, List.countP_eq_length]
    exact fun ticket hticket => decide_eq_true hticket
  have htotal := horder.total
  rw [hsum, horder.tickets.countP_eq, hassigned]
  omega

/-- No slot is free while a ticket waits for one. -/
theorem free_eq_zero (horder : bulkhead.InOrder stakes) (hstake : stake ∈ stakes)
    (hticket : stake.ticket? = some ticket) (hwaits : ticket ∉ bulkhead.assigned) :
    bulkhead.free = 0 := by
  have hmem : ticket ∈ stakes.filterMap (·.ticket?) := List.mem_filterMap.mpr ⟨stake, hstake, hticket⟩
  have hwaiting : ticket ∈ bulkhead.waiting :=
    (List.mem_append.mp (horder.tickets.mem_iff.mp hmem)).resolve_right hwaits
  exact horder.busy.resolve_right (List.ne_nil_of_mem hwaiting)

end InOrder

end Bulkhead

end Clearing
