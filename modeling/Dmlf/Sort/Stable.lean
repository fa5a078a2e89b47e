import Mathlib.Data.List.Sort
import Mathlib.Data.List.Pairwise
import Mathlib.Data.List.TakeWhile

/-!
# Stable sorts

`List.insertionSort r` keeps elements that `r` does not separate in their order.  For a total
preorder `r` this says all about it: a list is sorted by `r` in one way only, once the order in
each class of ties is known.

* `eq_of_pairwise_of_ties` : sorted lists with the same classes of ties are equal.
* `insertionSort_insertionSort_append` : what has been sorted may be sorted again with more.
* `insertionSort_append_comm`, `exists_insertionSort_append_ties` : two elements that are appended
  before a sort commute if `r` separates them, and end up next to each other if it does not.
* `pairwise_insertionSort_of` : what a sort makes of its keys and of the ties between them.
-/

namespace Dmlf

variable {α : Type*} {r R : α → α → Prop} [DecidableRel r] {l l₁ l₂ : List α} {a b x : α}

variable (r) in
/-- The elements that `r` does not separate from `x`. -/
def ties (x : α) (l : List α) : List α := l.filter fun y => r x y ∧ r y x

theorem mem_ties : a ∈ ties r x l ↔ a ∈ l ∧ r x a ∧ r a x := by simp [ties]

theorem ties_append : ties r x (l₁ ++ l₂) = ties r x l₁ ++ ties r x l₂ := List.filter_append ..

theorem ties_cons_of_tie (h : r x a ∧ r a x) : ties r x (a :: l) = a :: ties r x l :=
  List.filter_cons_of_pos (by simpa using h)

theorem ties_cons_of_not (h : ¬ (r x a ∧ r a x)) : ties r x (a :: l) = ties r x l :=
  List.filter_cons_of_neg (by simpa using h)

theorem ties_eq_nil (h : ∀ y ∈ l, ¬ (r x y ∧ r y x)) : ties r x l = [] :=
  List.filter_eq_nil_iff.2 fun y hy => by simpa using h y hy

/-- **Sorted lists with the same classes of ties are equal.** -/
theorem eq_of_pairwise_of_ties [Std.Total r] (h₁ : l₁.Pairwise r) (h₂ : l₂.Pairwise r)
    (h : ∀ x, ties r x l₁ = ties r x l₂) : l₁ = l₂ := by
  have hself : ∀ x : α, r x x ∧ r x x := fun x => ⟨Std.Refl.refl x, Std.Refl.refl x⟩
  have hmem : ∀ x, x ∈ l₁ ↔ x ∈ l₂ := fun x => by
    have hx := mem_ties (r := r) (a := x) (x := x) (l := l₁)
    rw [h x, mem_ties] at hx
    simpa [hself x] using hx.symm
  induction l₁ generalizing l₂ with
  | nil => exact (List.eq_nil_iff_forall_not_mem.2 fun x hx => by simpa using (hmem x).2 hx).symm
  | cons a l₁ ih =>
    cases l₂ with
    | nil => exact absurd ((hmem a).1 List.mem_cons_self) List.not_mem_nil
    | cons b l₂ =>
      obtain ⟨ha, hl₁⟩ := List.pairwise_cons.1 h₁
      obtain ⟨hb, hl₂⟩ := List.pairwise_cons.1 h₂
      -- the two heads tie, so they are the first of the same class
      have hab : r a b := by
        rcases List.mem_cons.1 ((hmem b).2 List.mem_cons_self) with rfl | hmem
        · exact (hself b).1
        · exact ha b hmem
      have hba : r b a := by
        rcases List.mem_cons.1 ((hmem a).1 List.mem_cons_self) with rfl | hmem
        · exact (hself a).1
        · exact hb a hmem
      have hheads := h a
      rw [ties_cons_of_tie (hself a), ties_cons_of_tie ⟨hab, hba⟩] at hheads
      obtain rfl := (List.cons.inj hheads).1
      have htails : ∀ x, ties r x l₁ = ties r x l₂ := by
        intro x
        have hx := h x
        by_cases htie : r x a ∧ r a x
        · rw [ties_cons_of_tie htie, ties_cons_of_tie htie] at hx
          exact (List.cons.inj hx).2
        · rwa [ties_cons_of_not htie, ties_cons_of_not htie] at hx
      rw [ih hl₁ hl₂ htails fun x => by
        have hx := mem_ties (r := r) (a := x) (x := x) (l := l₁)
        rw [htails x, mem_ties] at hx
        simpa [hself x] using hx.symm]

/-- A sort keeps elements in their order that are in order already. -/
theorem filter_insertionSort {p : α → Bool} (h : (l.filter p).Pairwise r) :
    (l.insertionSort r).filter p = l.filter p := by
  have hsub : (l.filter p).Sublist (l.insertionSort r) :=
    List.sublist_insertionSort h List.filter_sublist
  have hfilter := hsub.filter p
  rw [List.filter_filter, show (fun a => p a && p a) = p from funext fun a => Bool.and_self _]
    at hfilter
  exact (hfilter.eq_of_length ((List.perm_insertionSort r l).filter _).length_eq.symm).symm

theorem ties_insertionSort [IsTrans α r] (x : α) (l : List α) :
    ties r x (l.insertionSort r) = ties r x l := by
  refine filter_insertionSort (List.pairwise_of_forall_mem_list fun a ha b hb => ?_)
  exact Trans.trans (mem_ties.1 ha).2.2 (mem_ties.1 hb).2.1

variable [Std.Total r] [IsTrans α r]

/-- What has been sorted may be sorted again with more. -/
theorem insertionSort_insertionSort_append (l₁ l₂ : List α) :
    (l₁.insertionSort r ++ l₂).insertionSort r = (l₁ ++ l₂).insertionSort r :=
  eq_of_pairwise_of_ties (List.pairwise_insertionSort r _) (List.pairwise_insertionSort r _)
    fun x => by simp only [ties_insertionSort, ties_append]

/-- **Two appended elements commute** if `r` separates them. -/
theorem insertionSort_append_comm (h : ¬ (r a b ∧ r b a)) (l : List α) :
    (l ++ [a, b]).insertionSort r = (l ++ [b, a]).insertionSort r := by
  refine eq_of_pairwise_of_ties (List.pairwise_insertionSort r _) (List.pairwise_insertionSort r _)
    fun x => ?_
  simp only [ties_insertionSort, ties_append]
  congr 1
  by_cases ha : r x a ∧ r a x
  · -- `x` ties with at most one of them
    have hb : ¬ (r x b ∧ r b x) := fun hb =>
      h ⟨Trans.trans ha.2 hb.1, Trans.trans hb.2 ha.1⟩
    rw [ties_cons_of_tie ha, ties_cons_of_not hb, ties_cons_of_not hb, ties_cons_of_tie ha]
  · rw [ties_cons_of_not ha]
    by_cases hb : r x b ∧ r b x
    · rw [ties_cons_of_tie hb, ties_cons_of_tie hb, ties_cons_of_not ha]
    · rw [ties_cons_of_not hb, ties_cons_of_not hb, ties_cons_of_not ha]

/-- **Two appended elements that tie** end up next to each other, in their order, at a place that
depends on their class only. -/
theorem exists_insertionSort_append_ties (a : α) (l : List α) : ∃ l₁ l₂, ∀ b c,
    (r a b ∧ r b a) → (r a c ∧ r c a) → (l ++ [b, c]).insertionSort r = l₁ ++ b :: c :: l₂ := by
  set s := l.insertionSort r with hs
  have hsorted : s.Pairwise r := List.pairwise_insertionSort r l
  rw [← List.takeWhile_append_dropWhile (p := fun y => decide (r y a)) (l := s)] at hsorted
  obtain ⟨h₁, h₂, h₁₂⟩ := List.pairwise_append.1 hsorted
  set l₁ := s.takeWhile fun y => decide (r y a)
  set l₂ := s.dropWhile fun y => decide (r y a) with hl₂
  have hle : ∀ y ∈ l₁, r y a := fun y hy => by simpa using List.mem_takeWhile_imp hy
  -- behind the first element that comes after `a` there are only such elements
  have hgt : ∀ y ∈ l₂, ¬ r y a := by
    intro y hy hya
    have hne : l₂ ≠ [] := List.ne_nil_of_mem hy
    have hhead : ¬ r (l₂.head hne) a := by
      simpa using List.head_dropWhile_not (fun y => decide (r y a)) hne
    rw [← List.cons_head_tail hne] at hy h₂
    rcases List.mem_cons.1 hy with heq | hy
    · exact hhead (heq ▸ hya)
    · exact hhead (Trans.trans ((List.pairwise_cons.1 h₂).1 y hy) hya)
  refine ⟨l₁, l₂, fun b c hb hc => ?_⟩
  have hbl : ∀ y ∈ l₂, r b y := fun y hy =>
    Trans.trans hb.2 ((Std.Total.total a y).resolve_right (hgt y hy))
  have hcl : ∀ y ∈ l₂, r c y := fun y hy =>
    Trans.trans hc.2 ((Std.Total.total a y).resolve_right (hgt y hy))
  refine eq_of_pairwise_of_ties (List.pairwise_insertionSort r _) ?_ fun x => ?_
  · refine List.pairwise_append.2
      ⟨h₁, List.pairwise_cons.2 ⟨?_, List.pairwise_cons.2 ⟨hcl, h₂⟩⟩, ?_⟩
    · intro y hy
      rcases List.mem_cons.1 hy with rfl | hy
      · exact Trans.trans hb.2 hc.1
      · exact hbl y hy
    · intro y hy z hz
      rcases List.mem_cons.1 hz with rfl | hz
      · exact Trans.trans (hle y hy) hb.1
      · rcases List.mem_cons.1 hz with rfl | hz
        · exact Trans.trans (hle y hy) hc.1
        · exact h₁₂ y hy z hz
  · have hl : ties r x l = ties r x l₁ ++ ties r x l₂ := by
      rw [← ties_append, List.takeWhile_append_dropWhile, hs, ties_insertionSort]
    have hmid : ties r x ([b, c] ++ l₂) = ties r x l₂ ++ ties r x [b, c] := by
      by_cases hx : r x a ∧ r a x
      · -- no element behind them ties with `a`
        have hnil : ties r x l₂ = [] := ties_eq_nil fun y hy hxy =>
          hgt y hy (Trans.trans hxy.2 hx.1)
        rw [ties_append, hnil, List.append_nil, List.nil_append]
      · have hb' : ¬ (r x b ∧ r b x) := fun h =>
          hx ⟨Trans.trans h.1 hb.2, Trans.trans hb.1 h.2⟩
        have hc' : ¬ (r x c ∧ r c x) := fun h =>
          hx ⟨Trans.trans h.1 hc.2, Trans.trans hc.1 h.2⟩
        have hnil : ties r x [b, c] = [] := by
          rw [ties_cons_of_not hb', ties_cons_of_not hc']; rfl
        rw [ties_append, hnil, List.append_nil, List.nil_append]
    rw [ties_insertionSort, ties_append, hl, List.append_assoc, ← hmid, ← ties_append]
    rfl

/-! ### Orders of the sorted list -/

theorem pairwise_ties_insertionSort (h : l.Pairwise fun a b => r a b → r b a → R a b) :
    (l.insertionSort r).Pairwise fun a b => r b a → R a b := by
  induction l with
  | nil => exact .nil
  | cons x l ih =>
    obtain ⟨hx, hl⟩ := List.pairwise_cons.1 h
    have hsorted := List.pairwise_insertionSort r (x :: l)
    rw [List.insertionSort_cons_eq_take_drop] at hsorted ⊢
    obtain ⟨-, hdrop, -⟩ := List.pairwise_append.1 hsorted
    have hrest := ih hl
    rw [← List.takeWhile_append_dropWhile (p := fun b => decide ¬ r x b)
      (l := l.insertionSort r)] at hrest
    obtain ⟨h₁, h₂, h₁₂⟩ := List.pairwise_append.1 hrest
    refine List.pairwise_append.2 ⟨h₁, List.pairwise_cons.2 ⟨fun b hb => ?_, h₂⟩, ?_⟩
    · -- `x` was in front of `b`, and still is
      have hmem : b ∈ l := (List.mem_insertionSort r).1 ((List.dropWhile_sublist _).subset hb)
      exact hx b hmem ((List.pairwise_cons.1 hdrop).1 b hb)
    · intro a ha b hb hba
      rcases List.mem_cons.1 hb with rfl | hb
      · exact absurd hba (by simpa using List.mem_takeWhile_imp ha)
      · exact h₁₂ a ha b hb hba

/-- **A stable sort** by `r` is in the order `R` if `r` separates as `R` does, and what it does not
separate is in the order `R` before. -/
theorem pairwise_insertionSort_of (hlt : ∀ a ∈ l, ∀ b ∈ l, r a b → ¬ r b a → R a b)
    (htie : l.Pairwise fun a b => r a b → r b a → R a b) : (l.insertionSort r).Pairwise R := by
  have hboth := (List.pairwise_insertionSort r l).and (pairwise_ties_insertionSort htie)
  refine hboth.imp_of_mem fun {a b} ha hb h => ?_
  by_cases hba : r b a
  · exact h.2 hba
  · exact hlt a ((List.mem_insertionSort r).1 ha) b ((List.mem_insertionSort r).1 hb) h.1 hba

end Dmlf
