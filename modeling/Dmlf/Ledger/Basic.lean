import Dmlf.LTS.Basic
import Mathlib.Data.Multiset.AddSub
import Mathlib.Data.Multiset.UnionInter
import Mathlib.Data.Int.Order.Basic
import Mathlib.Order.MinMax

/-!
# Durable work items and their volatile tickets

Work items are kept in durable storage, each with a phase, a retry counter and a limit for it.
Besides there are *tickets*: volatile requests to work on an item, waiting in some list or held
by somebody.  A ticket is issued together with the write that makes its item `waiting`
(`submit`, `retry`), spent by the write that makes the item `active` (`use`), and lost in a
crash, after which one ticket per waiting item is issued anew (`restart`).

* `Ledger.inv_reachable` : no waiting item is without a ticket, and the number of uses of an
  item plus its tickets is bounded by one more than the number of its retries, whatever the
  order of the actions and the crashes.
* `Ledger.exact_iff` : the retry counter counts the retries exactly as long as every retry
  writes one more than the stored value.
* `Ledger.clean_iff` : every item has one ticket if it is waiting and none otherwise, exactly
  as long as no item is retried or closed while it is waiting.
* `Ledger.settled_step`, `Ledger.closed_step` : closed items stay closed if none is retried, and
  none is closed a second way or while it still has a ticket.
* `Ledger.apply_addTickets` : tickets that are out of reach do no harm.
-/

namespace Dmlf

/-- The phase of a work item; a closed item has an outcome in `ω`. -/
inductive Phase (ω : Type*) where
  | waiting
  | active
  | closed (o : ω)
  deriving DecidableEq

/-- The durable record of a work item. -/
structure Item (ω : Type*) where
  phase : Phase ω
  retries : ℤ
  limit : ℤ

/-- Durable items, tickets in circulation, and how often each item was retried and used. -/
structure Ledger (κ ω : Type*) where
  item : κ → Option (Item ω)
  tickets : Multiset κ
  retried : κ → ℕ
  used : κ → ℕ

namespace Ledger

variable {κ ω : Type*}

@[ext] theorem ext {L L' : Ledger κ ω} (hi : ∀ k, L.item k = L'.item k)
    (ht : L.tickets = L'.tickets) (hr : ∀ k, L.retried k = L'.retried k)
    (hu : ∀ k, L.used k = L'.used k) : L = L' := by
  cases L; cases L'
  simp only [mk.injEq]
  exact ⟨funext hi, ht, funext hr, funext hu⟩

/-- The ledger without items. -/
def empty : Ledger κ ω := ⟨fun _ => none, 0, fun _ => 0, fun _ => 0⟩

/-- The item `k` is waiting. -/
def Waiting (L : Ledger κ ω) (k : κ) : Prop := ∃ it, L.item k = some it ∧ it.phase = .waiting

/-- The item `k` is closed with outcome `o`. -/
def Closed (L : Ledger κ ω) (k : κ) (o : ω) : Prop :=
  ∃ it, L.item k = some it ∧ it.phase = .closed o

/-- The actions on a ledger. -/
inductive Act (κ ω : Type*) where
  | submit (k : κ) (limit : ℤ)
  | retry (k : κ) (retries : ℤ)
  | use (k : κ)
  | close (k : κ) (o : ω)
  | restart (tickets : Multiset κ)
  | idle

variable [DecidableEq κ]

/-- Overwrite the phase of item `k`. -/
def setPhase (L : Ledger κ ω) (k : κ) (p : Phase ω) : κ → Option (Item ω) :=
  fun k' => if k' = k then (L.item k).map fun it => { it with phase := p } else L.item k'

/-- The effect of an action. -/
def apply (L : Ledger κ ω) : Act κ ω → Ledger κ ω
  | .submit k limit =>
    { L with item := fun k' => if k' = k then some ⟨.waiting, 0, limit⟩ else L.item k'
             tickets := k ::ₘ L.tickets }
  | .retry k r =>
    { L with
        item := fun k' =>
          if k' = k then (L.item k).map fun it => { it with phase := .waiting, retries := r }
          else L.item k'
        tickets := k ::ₘ L.tickets
        retried := fun k' => L.retried k' + if k' = k then 1 else 0 }
  | .use k =>
    { L with item := L.setPhase k .active
             tickets := L.tickets.erase k
             used := fun k' => L.used k' + if k' = k then 1 else 0 }
  | .close k o => { L with item := L.setPhase k (.closed o) }
  | .restart ts => { L with tickets := ts }
  | .idle => L

/-- When an action is possible: items are submitted once, a retry stays within the limit, a
ticket is needed to use an item, and a restart issues one ticket per waiting item. -/
def Enabled (L : Ledger κ ω) : Act κ ω → Prop
  | .submit k _ => L.item k = none
  | .retry k r => ∃ it, L.item k = some it ∧ r ≤ it.limit
  | .use k => (∃ it, L.item k = some it) ∧ k ∈ L.tickets
  | .close k _ => ∃ it, L.item k = some it
  | .restart ts => ts.Nodup ∧ ∀ k, k ∈ ts ↔ L.Waiting k
  | .idle => True

/-- The ledger as a transition system. -/
def lts : LTS (Ledger κ ω) (Act κ ω) := ⟨fun L a L' => L.Enabled a ∧ L' = L.apply a⟩

theorem apply_close_of_none {L : Ledger κ ω} {k : κ} {o : ω} (h : L.item k = none) :
    L.apply (.close k o) = L := by
  refine ext (fun k' => ?_) rfl (fun _ => rfl) fun _ => rfl
  simp only [apply, setPhase]
  split_ifs with hk <;> simp [*]

/-! ### What every run keeps -/

/-- A waiting item has a ticket. -/
def Kept (L : Ledger κ ω) : Prop := ∀ k, L.Waiting k → k ∈ L.tickets

/-- The invariant of all runs. -/
structure Inv (L : Ledger κ ω) : Prop where
  /-- No waiting item is without a ticket. -/
  kept : L.Kept
  /-- Uses and tickets are paid for by the submission and the retries. -/
  budget : ∀ k, L.used k + L.tickets.count k ≤ if (L.item k).isSome then 1 + L.retried k else 0
  /-- The stored counter stays within the limit. -/
  bound : ∀ k it, L.item k = some it → it.retries ≤ max 0 it.limit
  /-- An unknown item was never retried. -/
  fresh : ∀ k, L.item k = none → L.retried k = 0

theorem inv_empty : (empty : Ledger κ ω).Inv where
  kept := by rintro k ⟨it, h, -⟩; cases h
  budget := by simp [empty]
  bound := by simp [empty]
  fresh := fun _ _ => rfl

theorem item_setPhase {L : Ledger κ ω} {k k' : κ} {p : Phase ω} {it : Item ω}
    (h : L.setPhase k p k' = some it) : ∃ it', L.item k' = some it' ∧ it.retries = it'.retries ∧
      it.limit = it'.limit ∧ (if k' = k then it.phase = p else it = it') := by
  unfold setPhase at h
  split_ifs at h with hk
  · obtain ⟨it', hit', rfl⟩ := Option.map_eq_some_iff.1 h
    exact ⟨it', hk ▸ hit', rfl, rfl, by simp [hk]⟩
  · exact ⟨it, h, rfl, rfl, by simp [hk]⟩

theorem isSome_setPhase (L : Ledger κ ω) (k k' : κ) (p : Phase ω) :
    (L.setPhase k p k').isSome = (L.item k').isSome := by
  unfold setPhase
  split_ifs with hk <;> simp [hk]

/-! ### Waiting items -/

theorem waiting_submit {L : Ledger κ ω} {k k' : κ} {limit : ℤ} :
    (L.apply (.submit k limit)).Waiting k' ↔ k' = k ∨ L.Waiting k' := by
  by_cases hk : k' = k <;> simp [Waiting, apply, hk]

theorem waiting_retry {L : Ledger κ ω} {k k' : κ} {r : ℤ} (h : ∃ it, L.item k = some it) :
    (L.apply (.retry k r)).Waiting k' ↔ k' = k ∨ L.Waiting k' := by
  obtain ⟨it, hit⟩ := h
  by_cases hk : k' = k <;> simp [Waiting, apply, hk, hit]

theorem waiting_setPhase {L : Ledger κ ω} {k k' : κ} {p : Phase ω} (hp : p ≠ .waiting) :
    (∃ it, L.setPhase k p k' = some it ∧ it.phase = .waiting) ↔ k' ≠ k ∧ L.Waiting k' := by
  constructor
  · rintro ⟨it, hit, hw⟩
    obtain ⟨it', hit', -, -, hphase⟩ := item_setPhase hit
    by_cases hk : k' = k
    · simp only [hk, if_true] at hphase
      exact absurd (hphase.symm.trans hw) hp
    · simp only [hk, if_false] at hphase
      subst hphase
      exact ⟨hk, it, hit', hw⟩
  · rintro ⟨hk, it, hit, hw⟩
    exact ⟨it, by simp [setPhase, hk, hit], hw⟩

theorem waiting_use {L : Ledger κ ω} {k k' : κ} :
    (L.apply (.use k)).Waiting k' ↔ k' ≠ k ∧ L.Waiting k' :=
  waiting_setPhase (by simp)

theorem waiting_close {L : Ledger κ ω} {k k' : κ} {o : ω} :
    (L.apply (.close k o)).Waiting k' ↔ k' ≠ k ∧ L.Waiting k' :=
  waiting_setPhase (by simp)

/-! ### What every action keeps -/

/-- **No action leaves a waiting item without a ticket.** -/
theorem kept_step {L : Ledger κ ω} {a : Act κ ω} (hL : L.Kept) (ha : L.Enabled a) :
    (L.apply a).Kept := by
  intro k' hw
  cases a with
  | submit k limit =>
    rcases waiting_submit.1 hw with rfl | hw
    · exact Multiset.mem_cons_self k' L.tickets
    · exact Multiset.mem_cons_of_mem (hL k' hw)
  | retry k r =>
    obtain ⟨it, hit, -⟩ := ha
    rcases (waiting_retry ⟨it, hit⟩).1 hw with rfl | hw
    · exact Multiset.mem_cons_self k' L.tickets
    · exact Multiset.mem_cons_of_mem (hL k' hw)
  | use k =>
    obtain ⟨hk, hw⟩ := waiting_use.1 hw
    exact (Multiset.mem_erase_of_ne hk).2 (hL k' hw)
  | close k o => exact hL k' (waiting_close.1 hw).2
  | restart ts => exact (ha.2 k').2 hw
  | idle => exact hL k' hw

/-- Every new use or ticket is paid for. -/
theorem budget_step {L : Ledger κ ω} {a : Act κ ω} (hL : L.Inv) (ha : L.Enabled a) (k' : κ) :
    (L.apply a).used k' + (L.apply a).tickets.count k' ≤
      if ((L.apply a).item k').isSome then 1 + (L.apply a).retried k' else 0 := by
  have hb := hL.budget k'
  cases a with
  | submit k limit =>
    have hnone : L.item k = none := ha
    by_cases hk : k' = k
    · subst hk
      rw [hnone] at hb
      -- an unknown item has neither uses nor tickets, and now it has one ticket
      simp only [apply, Multiset.count_cons_self, if_true, Option.isSome_some]
      simp only [Option.isSome_none, Bool.false_eq_true, if_false] at hb
      omega
    · simpa [apply, hk, Multiset.count_cons_of_ne] using hb
  | retry k r =>
    obtain ⟨it₀, hit₀, -⟩ := ha
    by_cases hk : k' = k
    · subst hk
      -- one retry more pays for the new ticket
      simp only [hit₀, Option.isSome_some, if_true] at hb
      simp only [apply, hit₀, if_true, Option.map_some, Option.isSome_some,
        Multiset.count_cons_self]
      omega
    · simpa [apply, hk, Multiset.count_cons_of_ne] using hb
  | use k =>
    have hpos : 0 < L.tickets.count k := Multiset.count_pos.2 ha.2
    rw [show ((L.apply (.use k)).item k').isSome = (L.item k').isSome from
      isSome_setPhase L k k' _]
    by_cases hk : k' = k
    · -- one use more for one ticket less
      subst hk
      simp only [apply, if_true, Multiset.count_erase_self]
      omega
    · simpa [apply, hk, Multiset.count_erase_of_ne hk] using hb
  | close k o =>
    rw [show ((L.apply (.close k o)).item k').isSome = (L.item k').isSome from
      isSome_setPhase L k k' _]
    exact hb
  | restart ts =>
    obtain ⟨hnd, hts⟩ := ha
    refine le_trans ?_ hb
    by_cases hk : k' ∈ ts
    · -- the new ticket replaces one the waiting item had before the crash
      have hold := Multiset.count_pos.2 (hL.kept k' ((hts k').1 hk))
      have hone : ts.count k' = 1 := Multiset.count_eq_one_of_mem hnd hk
      simp only [apply, hone]
      omega
    · simp [apply, Multiset.count_eq_zero_of_notMem hk]
  | idle => exact hb

theorem bound_step {L : Ledger κ ω} {a : Act κ ω} (hL : L.Inv) (ha : L.Enabled a) {k' : κ}
    {it : Item ω} (hit : (L.apply a).item k' = some it) : it.retries ≤ max 0 it.limit := by
  have hphase : ∀ {k p}, L.setPhase k p k' = some it → it.retries ≤ max 0 it.limit := by
    intro k p h
    obtain ⟨it', hit', hret, hlim, -⟩ := item_setPhase h
    rw [hret, hlim]
    exact hL.bound k' it' hit'
  cases a with
  | submit k limit =>
    by_cases hk : k' = k
    · simp only [apply, hk, if_true] at hit
      obtain rfl := Option.some.inj hit
      exact le_max_left _ _
    · simp only [apply, hk, if_false] at hit
      exact hL.bound k' it hit
  | retry k r =>
    obtain ⟨it₀, hit₀, hr⟩ := ha
    by_cases hk : k' = k
    · simp only [apply, hk, if_true, hit₀, Option.map_some, Option.some.injEq] at hit
      subst hit
      exact le_max_of_le_right hr
    · simp only [apply, hk, if_false] at hit
      exact hL.bound k' it hit
  | use | close => exact hphase hit
  | restart | idle => exact hL.bound k' it hit

theorem fresh_step {L : Ledger κ ω} {a : Act κ ω} (hL : L.Inv) (ha : L.Enabled a) {k' : κ}
    (hn : (L.apply a).item k' = none) : (L.apply a).retried k' = 0 := by
  have hphase : ∀ {k p}, L.setPhase k p k' = none → L.retried k' = 0 := by
    intro k p h
    have hsome := isSome_setPhase L k k' p
    rw [h] at hsome
    exact hL.fresh k' (by simpa using hsome.symm)
  cases a with
  | submit k limit =>
    by_cases hk : k' = k
    · simp [apply, hk] at hn
    · exact hL.fresh k' (by simpa [apply, hk] using hn)
  | retry k r =>
    obtain ⟨it₀, hit₀, -⟩ := ha
    by_cases hk : k' = k
    · simp [apply, hk, hit₀] at hn
    · simpa [apply, hk] using hL.fresh k' (by simpa [apply, hk] using hn)
  | use | close => exact hphase hn
  | restart | idle => exact hL.fresh k' hn

/-- **Every action keeps the invariant.** -/
theorem inv_step {L : Ledger κ ω} {a : Act κ ω} (hL : L.Inv) (ha : L.Enabled a) :
    (L.apply a).Inv where
  kept := kept_step hL.kept ha
  budget := budget_step hL ha
  bound := fun _ _ => bound_step hL ha
  fresh := fun _ => fresh_step hL ha

theorem inv_reachable {L L' : Ledger κ ω} (hL : L.Inv) (h : lts.Reachable L L') : L'.Inv := by
  refine h.keeps ?_ hL
  rintro L a _ ⟨ha, rfl⟩ ih
  exact inv_step ih ha

/-! ### The retry counter -/

/-- The stored counter of every item is the number of its retries. -/
def Exact (L : Ledger κ ω) : Prop := ∀ k it, L.item k = some it → it.retries = L.retried k

/-- A retry writes one more than the stored counter. -/
def FreshRetry (L : Ledger κ ω) : Act κ ω → Prop
  | .retry k r => ∀ it, L.item k = some it → r = it.retries + 1
  | _ => True

/-- **The counter stays exact exactly when no retry writes a stale value.** -/
theorem exact_iff {L : Ledger κ ω} {a : Act κ ω} (hL : L.Inv) (hE : L.Exact)
    (ha : L.Enabled a) : (L.apply a).Exact ↔ L.FreshRetry a := by
  cases a with
  | submit k limit =>
    refine iff_of_true (fun k' it hit => ?_) trivial
    by_cases hk : k' = k
    · simp only [apply, hk, if_true, Option.some.injEq] at hit
      subst hit
      simp [apply, hk, hL.fresh k ha]
    · simp only [apply, hk, if_false] at hit
      exact hE k' it hit
  | retry k r =>
    obtain ⟨it₀, hit₀, -⟩ := ha
    have hold := hE k it₀ hit₀
    constructor
    · intro h it hit
      obtain rfl : it = it₀ := Option.some.inj (hit.symm.trans hit₀)
      have := h k { it with phase := .waiting, retries := r } (by simp [apply, hit])
      simp only [apply, if_true] at this
      push_cast at this
      omega
    · intro h k' it hit
      by_cases hk : k' = k
      · subst hk
        simp only [apply, if_true, hit₀, Option.map_some, Option.some.injEq] at hit
        subst hit
        simp only [apply, if_true, h it₀ hit₀, hold]
        push_cast
        rfl
      · simp only [apply, hk, if_false] at hit
        simpa [apply, hk] using hE k' it hit
  | use k =>
    refine iff_of_true (fun k' it hit => ?_) trivial
    obtain ⟨it', hit', hret, -, -⟩ := item_setPhase hit
    rw [hret]
    exact hE k' it' hit'
  | close k o =>
    refine iff_of_true (fun k' it hit => ?_) trivial
    obtain ⟨it', hit', hret, -, -⟩ := item_setPhase hit
    rw [hret]
    exact hE k' it' hit'
  | restart ts => exact iff_of_true hE trivial
  | idle => exact iff_of_true hE trivial

/-! ### One ticket per waiting item -/

/-- A waiting item has one ticket, any other item none. -/
def Clean (L : Ledger κ ω) : Prop :=
  ∀ k, (L.Waiting k → L.tickets.count k = 1) ∧ (¬ L.Waiting k → L.tickets.count k = 0)

/-- No item is retried or closed while it is waiting. -/
def NotWaiting (L : Ledger κ ω) : Act κ ω → Prop
  | .retry k _ => ¬ L.Waiting k
  | .close k _ => ¬ L.Waiting k
  | _ => True

theorem Clean.nodup {L : Ledger κ ω} (hC : L.Clean) : L.tickets.Nodup := by
  refine Multiset.nodup_iff_count_le_one.2 fun k => ?_
  by_cases hw : L.Waiting k
  · exact ((hC k).1 hw).le
  · exact ((hC k).2 hw).le.trans (Nat.zero_le 1)

/-- **Tickets stay one per waiting item exactly when no waiting item is retried or closed.** -/
theorem clean_iff {L : Ledger κ ω} {a : Act κ ω} (hC : L.Clean) (ha : L.Enabled a) :
    (L.apply a).Clean ↔ L.NotWaiting a := by
  cases a with
  | submit k limit =>
    refine iff_of_true (fun k' => ?_) trivial
    rw [waiting_submit]
    by_cases hk : k' = k
    · subst hk
      have hw : ¬ L.Waiting k' := by rintro ⟨it, hit, -⟩; rw [ha] at hit; cases hit
      refine ⟨fun _ => ?_, fun h => absurd (.inl rfl) h⟩
      simp [apply, (hC k').2 hw]
    · simpa [apply, hk, Multiset.count_cons_of_ne hk] using hC k'
  | retry k r =>
    obtain ⟨it₀, hit₀, -⟩ := ha
    have hwaiting : ∀ k', (L.apply (.retry k r)).Waiting k' ↔ k' = k ∨ L.Waiting k' :=
      fun k' => waiting_retry ⟨it₀, hit₀⟩
    constructor
    · -- a second ticket for an item that has one
      intro h hw
      have h1 := (h k).1 ((hwaiting k).2 (.inl rfl))
      have h2 := (hC k).1 hw
      simp [apply, h2] at h1
    · intro hw k'
      rw [hwaiting]
      by_cases hk : k' = k
      · subst hk
        exact ⟨fun _ => by simp [apply, (hC k').2 hw], fun h => absurd (.inl rfl) h⟩
      · simpa [apply, hk, Multiset.count_cons_of_ne hk] using hC k'
  | use k =>
    refine iff_of_true (fun k' => ?_) trivial
    rw [waiting_use]
    by_cases hk : k' = k
    · subst hk
      have hle : L.tickets.count k' ≤ 1 := Multiset.nodup_iff_count_le_one.1 hC.nodup k'
      refine ⟨fun h => absurd rfl h.1, fun _ => ?_⟩
      simp only [apply, Multiset.count_erase_self]
      omega
    · simpa [apply, Multiset.count_erase_of_ne hk, hk] using hC k'
  | close k o =>
    constructor
    · -- the ticket of an item that is not waiting any more
      intro h hw
      have h1 := (h k).2 fun h' => (waiting_close.1 h').1 rfl
      have h2 := (hC k).1 hw
      simp [apply, h2] at h1
    · intro hw k'
      rw [waiting_close]
      by_cases hk : k' = k
      · subst hk
        exact ⟨fun h => absurd rfl h.1, fun _ => (hC k').2 hw⟩
      · simpa [hk, apply] using hC k'
  | restart ts =>
    refine iff_of_true (fun k' => ⟨fun hw => ?_, fun hw => ?_⟩) trivial
    · exact Multiset.count_eq_one_of_mem ha.1 ((ha.2 k').2 hw)
    · exact Multiset.count_eq_zero_of_notMem fun h => hw ((ha.2 k').1 h)
  | idle => exact iff_of_true hC trivial

/-- An action that leaves no item with two tickets, and closes none that is waiting. -/
theorem clean_of_nodup {L : Ledger κ ω} {a : Act κ ω} (hC : L.Clean) (ha : L.Enabled a)
    (hnd : (L.apply a).tickets.Nodup) (hclose : ∀ k o, a = .close k o → ¬ L.Waiting k) :
    (L.apply a).Clean := by
  refine (clean_iff hC ha).2 ?_
  cases a with
  | retry k r =>
    -- a waiting item would have a second ticket now
    intro hw
    have hmem : k ∈ L.tickets := Multiset.one_le_count_iff_mem.1 ((hC k).1 hw).ge
    exact (Multiset.nodup_cons.1 hnd).1 hmem
  | close k o => exact hclose k o rfl
  | submit | use | restart | idle => trivial

theorem Clean.tickets_eq {L : Ledger κ ω} (hC : L.Clean) {ts : Multiset κ}
    (h : L.Enabled (.restart ts)) : L.tickets = ts := by
  ext k
  by_cases hw : L.Waiting k
  · rw [(hC k).1 hw, Multiset.count_eq_one_of_mem h.1 ((h.2 k).2 hw)]
  · rw [(hC k).2 hw, Multiset.count_eq_zero_of_notMem fun hk => hw ((h.2 k).1 hk)]

/-! ### Closed items -/

/-- A closed item has no ticket. -/
def Settled (L : Ledger κ ω) : Prop := ∀ k o, L.Closed k o → k ∉ L.tickets

/-- A retry finds an item that is not closed; closing finds an item that is closed the same way
already, or one that is not closed and has no ticket left. -/
def Respects (L : Ledger κ ω) : Act κ ω → Prop
  | .retry k _ => ∀ o, ¬ L.Closed k o
  | .close k o => L.Closed k o ∨ (∀ o', ¬ L.Closed k o') ∧ k ∉ L.tickets
  | _ => True

omit [DecidableEq κ] in
theorem Closed.unique {L : Ledger κ ω} {k : κ} {o o' : ω} (h : L.Closed k o)
    (h' : L.Closed k o') : o = o' := by
  obtain ⟨it, hit, hp⟩ := h
  obtain ⟨it', hit', hp'⟩ := h'
  obtain rfl : it = it' := Option.some.inj (hit.symm.trans hit')
  exact Phase.closed.inj (hp.symm.trans hp')

theorem closed_setPhase {L : Ledger κ ω} {k k' : κ} {p : Phase ω} {o : ω} (hk : k' ≠ k) :
    (∃ it, L.setPhase k p k' = some it ∧ it.phase = .closed o) ↔ L.Closed k' o := by
  simp [Closed, setPhase, hk]

/-- An action that respects the closed items leaves them without a ticket. -/
theorem settled_step {L : Ledger κ ω} {a : Act κ ω} (hS : L.Settled) (ha : L.Enabled a)
    (hR : L.Respects a) : (L.apply a).Settled := by
  intro k' o hc
  cases a with
  | submit k limit =>
    obtain ⟨it, hit, hp⟩ := hc
    by_cases hk : k' = k
    · simp only [apply, hk, if_true, Option.some.injEq] at hit
      subst hit; cases hp
    · simp only [apply, hk, if_false] at hit
      simpa [apply, hk] using hS k' o ⟨it, hit, hp⟩
  | retry k r =>
    obtain ⟨it, hit, hp⟩ := hc
    by_cases hk : k' = k
    · simp only [apply, hk, if_true] at hit
      obtain ⟨it', -, rfl⟩ := Option.map_eq_some_iff.1 hit
      cases hp
    · simp only [apply, hk, if_false] at hit
      simpa [apply, hk] using hS k' o ⟨it, hit, hp⟩
  | use k =>
    by_cases hk : k' = k
    · obtain ⟨it, hit, hp⟩ := hc
      obtain ⟨it', -, -, -, hphase⟩ := item_setPhase hit
      simp [hk, hp] at hphase
    · simpa [apply, Multiset.mem_erase_of_ne hk] using hS k' o ((closed_setPhase hk).1 hc)
  | close k o' =>
    by_cases hk : k' = k
    · subst hk
      -- it had no ticket when it was closed first, or has none now
      rcases hR with hc' | ⟨-, hmem⟩
      · exact hS k' o' hc'
      · exact hmem
    · exact hS k' o ((closed_setPhase hk).1 hc)
  | restart ts =>
    intro hmem
    obtain ⟨it, hit, hp⟩ := hc
    obtain ⟨it', hit', hw⟩ := (ha.2 k').1 hmem
    obtain rfl : it = it' := Option.some.inj (hit.symm.trans hit')
    cases hp.symm.trans hw
  | idle => exact hS k' o hc

/-- **One step keeps closed items closed**, with their outcome and without a further use. -/
theorem closed_step {L : Ledger κ ω} {a : Act κ ω} (hS : L.Settled) (ha : L.Enabled a)
    (hR : L.Respects a) {k' : κ} {o : ω} (hc : L.Closed k' o) :
    (L.apply a).Closed k' o ∧ (L.apply a).used k' = L.used k' := by
  cases a with
  | submit k limit =>
    obtain ⟨it, hit, hp⟩ := hc
    have hk : k' ≠ k := by
      rintro rfl
      rw [ha] at hit; cases hit
    exact ⟨⟨it, by simp [apply, hk, hit], hp⟩, rfl⟩
  | retry k r =>
    have hk : k' ≠ k := by rintro rfl; exact hR o hc
    obtain ⟨it, hit, hp⟩ := hc
    exact ⟨⟨it, by simp [apply, hk, hit], hp⟩, rfl⟩
  | use k =>
    have hk : k' ≠ k := by rintro rfl; exact hS k' o hc ha.2
    exact ⟨(closed_setPhase hk).2 hc, by simp [apply, hk]⟩
  | close k o' =>
    refine ⟨?_, rfl⟩
    by_cases hk : k' = k
    · subst hk
      -- it is closed the same way again
      rcases hR with hc' | ⟨hn, -⟩
      · obtain rfl := hc.unique hc'
        obtain ⟨it, hit, -⟩ := hc
        exact ⟨{ it with phase := .closed o }, by simp [apply, setPhase, hit], rfl⟩
      · exact absurd hc (hn o)
    · exact (closed_setPhase hk).2 hc
  | restart | idle => exact ⟨hc, rfl⟩

/-! ### Tickets that are out of reach -/

/-- The ledger with the tickets of `ts` besides its own. -/
def addTickets (L : Ledger κ ω) (ts : Multiset κ) : Ledger κ ω :=
  { L with tickets := L.tickets + ts }

omit [DecidableEq κ] in
theorem enabled_addTickets {L : Ledger κ ω} {a : Act κ ω} (ha : L.Enabled a) (ts : Multiset κ) :
    (L.addTickets ts).Enabled a := by
  cases a with
  | use k => exact ⟨ha.1, Multiset.mem_add.2 (.inl ha.2)⟩
  | submit | retry | close | restart | idle => exact ha

/-- **Tickets that nobody uses change no action**, but a restart, which takes them away. -/
theorem apply_addTickets {L : Ledger κ ω} {a : Act κ ω} (ha : L.Enabled a)
    (hrestart : ∀ us, a ≠ .restart us) (ts : Multiset κ) :
    (L.addTickets ts).apply a = (L.apply a).addTickets ts := by
  cases a with
  | submit k limit =>
    exact ext (fun _ => rfl) (Multiset.cons_add k L.tickets ts).symm (fun _ => rfl) fun _ => rfl
  | retry k r =>
    exact ext (fun _ => rfl) (Multiset.cons_add k L.tickets ts).symm (fun _ => rfl) fun _ => rfl
  | use k =>
    exact ext (fun _ => rfl) (Multiset.erase_add_left_pos ts ha.2) (fun _ => rfl) fun _ => rfl
  | close | idle => rfl
  | restart us => exact absurd rfl (hrestart us)

end Ledger

end Dmlf
