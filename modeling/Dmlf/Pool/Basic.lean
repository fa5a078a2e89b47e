import Mathlib.Data.List.Basic
import Mathlib.Data.List.Count
import Mathlib.Data.List.Perm.Subperm

/-!
# Worker pools

A server hands its calls to a bounded number of workers, first come, first served.  A call may hold
its worker until something happens that only another call can bring about.

* `Pool.Jammed` : every worker is held; then no waiting call is taken.
* `Pool.jammed_or_free` : otherwise there is a free worker, or one that is not held.
* `Pool.jammed_of_held` : as many calls that hold a worker as there are workers jam the pool.
-/

namespace Dmlf

/-- The calls that no worker has taken yet, the oldest first, and those that have a worker. -/
structure Pool (κ : Type*) where
  waiting : List κ
  busy : List κ

namespace Pool

variable {κ : Type*}

/-- No call has come yet. -/
def new : Pool κ := ⟨[], []⟩

variable (s : Pool κ) (cap : ℕ)

/-- A call comes. -/
def arrive (c : κ) : Pool κ := { s with waiting := s.waiting ++ [c] }

/-- One of `cap` workers takes the oldest call. -/
def take : Option (κ × Pool κ) :=
  if s.busy.length < cap then
    match s.waiting with
    | [] => none
    | c :: waiting => some (c, ⟨waiting, s.busy ++ [c]⟩)
  else none

/-- The call at place `i` returns. -/
def finish (i : ℕ) : Pool κ := { s with busy := s.busy.eraseIdx i }

/-- There are no more busy workers than workers. -/
def Bounded : Prop := s.busy.length ≤ cap

/-- All workers are held. -/
structure Jammed (holds : κ → Prop) : Prop where
  full : s.busy.length = cap
  held : ∀ c ∈ s.busy, holds c

variable {s cap} {s' : Pool κ} {c : κ} {i : ℕ} {holds : κ → Prop}

theorem take_eq_some (h : s.take cap = some (c, s')) :
    s.busy.length < cap ∧ s.waiting = c :: s'.waiting ∧ s'.busy = s.busy ++ [c] := by
  obtain ⟨hlt, h⟩ := Option.ite_none_right_eq_some.1 h
  split at h
  · cases h
  · rename_i hw
    cases h
    exact ⟨hlt, hw, rfl⟩

theorem take_of_lt (hlt : s.busy.length < cap) {rest : List κ} (hw : s.waiting = c :: rest) :
    s.take cap = some (c, ⟨rest, s.busy ++ [c]⟩) := by
  rw [take, if_pos hlt, hw]

theorem Bounded.take (h : s.take cap = some (c, s')) : s'.Bounded cap := by
  obtain ⟨hlt, -, hbusy⟩ := take_eq_some h
  rw [Bounded, hbusy, List.length_append]
  exact hlt

theorem Bounded.finish (h : s.Bounded cap) (i : ℕ) : (s.finish i).Bounded cap :=
  Nat.le_trans (List.length_eraseIdx_le s.busy i) h

theorem countP_finish (p : κ → Bool) (hi : s.busy[i]? = some c) :
    s.busy.countP p = (s.finish i).busy.countP p + if p c then 1 else 0 := by
  obtain ⟨hlt, rfl⟩ := List.getElem?_eq_some_iff.1 hi
  have hcount := (List.getElem_cons_eraseIdx_perm hlt).countP_eq p
  rw [List.countP_cons] at hcount
  exact hcount.symm

theorem length_finish (h : s.Bounded cap) (hi : s.busy[i]? = some c) :
    (s.finish i).busy.length < cap := by
  obtain ⟨hlt, -⟩ := List.getElem?_eq_some_iff.1 hi
  have hb : s.busy.length ≤ cap := h
  rw [finish, List.length_eraseIdx, if_pos hlt]
  omega

/-- **Either all workers are held**, or one is free, or has a call that does not hold it. -/
theorem jammed_or_free (h : s.Bounded cap) : s.Jammed cap holds ∨ s.busy.length < cap ∨
    ∃ (i : ℕ) (c : κ), s.busy[i]? = some c ∧ ¬ holds c := by
  rcases Nat.lt_or_eq_of_le h with hlt | hfull
  · exact .inr (.inl hlt)
  · by_cases hheld : ∀ c ∈ s.busy, holds c
    · exact .inl ⟨hfull, hheld⟩
    · push Not at hheld
      obtain ⟨c, hc, hno⟩ := hheld
      obtain ⟨i, hi⟩ := List.mem_iff_getElem?.1 hc
      exact .inr (.inr ⟨i, c, hi, hno⟩)

/-- **Enough calls that hold their workers** jam the pool. -/
theorem jammed_of_held (h : s.Bounded cap) {l : List κ} (hnd : l.Nodup) (hmem : l ⊆ s.busy)
    (hheld : ∀ c ∈ l, holds c) (hlen : cap ≤ l.length) : s.Jammed cap holds := by
  have hsub : l.Subperm s.busy := List.subperm_of_subset hnd hmem
  have hb : s.busy.length ≤ cap := h
  have hperm : l.Perm s.busy := hsub.perm_of_length_le (Nat.le_trans hb hlen)
  refine ⟨?_, fun c hc => hheld c (hperm.mem_iff.2 hc)⟩
  have := hperm.length_eq
  omega

end Pool

end Dmlf
