import Mathlib.Data.List.Dedup
import Mathlib.Data.List.MinMax
import Mathlib.Data.List.Sort

/-!
# Ordered, grouped and joined rows

What `ORDER BY ... DESC`, `MAX(...) ... GROUP BY` and `LEFT JOIN` make of lists of rows.  A database
is free to put rows with equal keys in any order, and to let any of the rows with the greatest key
of a group stand for it.  Here it is the first one, and the results are about keys that differ.

* `orderByDesc_of_increasing`, `argmax_of_increasing` : rows that have come in the order of their
  keys are read backwards, and the last one of a group stands for it.
* `leftJoin_groupMax` : a join with grouped rows finds one row for each row on the left, if any.
-/

namespace Dmlf

variable {ρ σ γ α : Type*}

/-! ### Orders -/

section Order

variable [LinearOrder α] {key : ρ → α} {rows : List ρ}

/-- `ORDER BY key DESC`. -/
def orderByDesc (key : ρ → α) (rows : List ρ) : List ρ :=
  rows.insertionSort fun a b => key b ≤ key a

theorem orderByDesc_of_increasing (h : (rows.map key).Pairwise (· < ·)) :
    orderByDesc key rows = rows.reverse := by
  have hperm : (orderByDesc key rows).Perm rows :=
    List.perm_insertionSort (fun a b => key b ≤ key a) rows
  have hrev : rows.reverse.Pairwise fun a b => key b ≤ key a :=
    List.pairwise_reverse.2 ((List.pairwise_map.1 h).imp le_of_lt)
  refine (hperm.trans rows.reverse_perm.symm).eq_of_pairwise (fun a b ha hb hab hba => ?_)
    (List.pairwise_insertionSort _ rows) hrev
  have hnd : (rows.map key).Nodup := h.imp ne_of_lt
  exact List.inj_on_of_nodup_map hnd (hperm.subset ha) (List.mem_reverse.1 hb) (le_antisymm hba hab)

theorem argmax_of_increasing (h : (rows.map key).Pairwise (· < ·)) :
    rows.argmax key = rows.getLast? := by
  induction rows using List.reverseRecOn with
  | nil => rfl
  | append_singleton rows last ih =>
    rw [List.map_append, List.pairwise_append] at h
    rw [List.argmax_concat, ih h.1, List.getLast?_concat]
    cases hlast : rows.getLast? with
    | none => rfl
    | some r =>
      have hlt : key r < key last := h.2.2 _ (List.mem_map_of_mem (List.mem_of_getLast? hlast)) _
        (List.mem_singleton_self _)
      exact if_pos hlt

end Order

/-! ### Groups -/

section Group

variable [DecidableEq γ] [LinearOrder α]

/-- `SELECT ..., MAX(key) FROM ... GROUP BY group`: of each group the row with the greatest key. -/
def groupMax (group : ρ → γ) (key : ρ → α) (rows : List ρ) : List ρ :=
  (rows.map group).dedup.filterMap fun g => (rows.filter fun r => group r = g).argmax key

variable {group : ρ → γ} {key : ρ → α} {rows : List ρ} {g : γ}

theorem filterMap_ite_of_nodup {l : List γ} (h : l.Nodup) (g : γ) (o : Option ρ) :
    l.filterMap (fun g' => if g' = g then o else none) = if g ∈ l then o.toList else [] := by
  induction l with
  | nil => rfl
  | cons g' l ih =>
    obtain ⟨hnot, hnd⟩ := List.nodup_cons.1 h
    rw [List.filterMap_cons, ih hnd]
    by_cases hg : g' = g
    · subst hg
      cases o <;> simp [hnot]
    · simp [hg, Ne.symm hg]

theorem filter_groupMax (group : ρ → γ) (key : ρ → α) (rows : List ρ) (g : γ) :
    (groupMax group key rows).filter (fun r => group r = g) =
      ((rows.filter fun r => group r = g).argmax key).toList := by
  have hgroup : ∀ g', ((rows.filter fun r => group r = g').argmax key).filter
      (fun r => group r = g) =
        if g' = g then (rows.filter fun r => group r = g).argmax key else none := by
    intro g'
    -- the row that stands for a group is one of it
    have hmem : ∀ r, (rows.filter fun r => group r = g').argmax key = some r → group r = g' :=
      fun r hr => of_decide_eq_true (List.mem_filter.1 (List.argmax_mem hr)).2
    by_cases hg : g' = g
    · subst hg
      rw [if_pos rfl]
      cases hr : (rows.filter fun r => group r = g').argmax key with
      | none => rfl
      | some r => simp [Option.filter_some, hmem r hr]
    · rw [if_neg hg]
      cases hr : (rows.filter fun r => group r = g').argmax key with
      | none => rfl
      | some r => simp [Option.filter_some, hmem r hr, hg]
  rw [groupMax, List.filter_filterMap]
  simp only [hgroup]
  rw [filterMap_ite_of_nodup (List.nodup_dedup _)]
  split_ifs with hg
  · rfl
  · have hnone : rows.filter (fun r => group r = g) = [] := by
      refine List.filter_eq_nil_iff.2 fun r hr hrg => hg (List.mem_dedup.2 ?_)
      exact of_decide_eq_true hrg ▸ List.mem_map_of_mem hr
    rw [hnone]
    rfl

/-- `LEFT JOIN ... ON ...`: each row on the left with those it goes with, or with `NULL`. -/
def leftJoin (on : ρ → σ → Bool) (left : List ρ) (right : List σ) : List (ρ × Option σ) :=
  left.flatMap fun r =>
    match right.filter (on r) with
    | [] => [(r, none)]
    | found => found.map fun s => (r, some s)

/-- **A join with the rows that stand for their groups** adds one of them to each row on the left,
if there is one. -/
theorem leftJoin_groupMax (f : ρ → γ) (left : List ρ) (group : σ → γ) (key : σ → α)
    (rows : List σ) :
    leftJoin (fun r s => group s = f r) left (groupMax group key rows) =
      left.map fun r => (r, (rows.filter fun s => group s = f r).argmax key) := by
  rw [leftJoin, List.map_eq_flatMap]
  refine congrArg left.flatMap (funext fun r => ?_)
  rw [filter_groupMax]
  cases (rows.filter fun s => group s = f r).argmax key <;> rfl

end Group

end Dmlf
