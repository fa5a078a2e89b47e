import Mathlib.Data.List.DropRight

/-!
# Trimming and matching

Lists over any alphabet, as a program takes them apart: what is around them is trimmed off, or a
pattern is searched in them.

* `trim_eq_iff` : what is trimmed to a given list has that list in its middle.
* `Pattern` : all the ways to match the front of a list, in the order in which a backtracking
  matcher tries them; `Pattern.search` takes the first one at the leftmost place.
* `Pattern.head?_seq` : if the first way to match goes on to a match, it is the first one.
-/

namespace Dmlf

variable {α β γ : Type*} {p : α → Bool} {l l₁ l₂ m : List α}

/-! ### Trimming -/

variable (p) in
/-- Without the elements at both ends that satisfy `p`. -/
def trim (l : List α) : List α := (l.dropWhile p).rdropWhile p

theorem trim_sublist_dropWhile (l : List α) : (trim p l).Sublist (l.dropWhile p) :=
  (List.rdropWhile_prefix p (l.dropWhile p)).sublist

theorem dropWhile_eq_self_of_trim (h : trim p l = l) : l.dropWhile p = l := by
  refine (List.dropWhile_sublist p).eq_of_length_le ?_
  calc l.length = (trim p l).length := by rw [h]
    _ ≤ (l.dropWhile p).length := (trim_sublist_dropWhile l).length_le

theorem trim_append (h : trim p m = m) (h₁ : ∀ a ∈ l₁, p a) (h₂ : ∀ a ∈ l₂, p a) :
    trim p (l₁ ++ m ++ l₂) = m := by
  have hdrop : (m ++ l₂).dropWhile p = if m = [] then [] else m ++ l₂ := by
    split_ifs with hm
    · subst hm
      exact List.dropWhile_eq_nil_iff.2 h₂
    · rw [List.dropWhile_append, dropWhile_eq_self_of_trim h]
      simp [hm]
  rw [trim, List.append_assoc, List.dropWhile_append_of_pos h₁, hdrop]
  split_ifs with hm
  · rw [hm]
    rfl
  · have hm' : m.rdropWhile p = m := by
      have h' := h
      rwa [trim, dropWhile_eq_self_of_trim h] at h'
    rw [List.rdropWhile, List.reverse_append,
      List.dropWhile_append_of_pos (by simpa using h₂)]
    exact hm'

/-- **What is trimmed to `m`** has `m` in its middle. -/
theorem trim_eq_iff (h : trim p m = m) : trim p l = m ↔
    ∃ l₁ l₂, (∀ a ∈ l₁, p a) ∧ (∀ a ∈ l₂, p a) ∧ l = l₁ ++ m ++ l₂ := by
  constructor
  · rintro rfl
    refine ⟨l.takeWhile p, (l.dropWhile p).rtakeWhile p, fun a ha => List.mem_takeWhile_imp ha,
      fun a ha => List.mem_rtakeWhile_imp ha, ?_⟩
    rw [trim, List.append_assoc, List.rdropWhile_append_rtakeWhile, List.takeWhile_append_dropWhile]
  · rintro ⟨l₁, l₂, h₁, h₂, rfl⟩
    exact trim_append h h₁ h₂

/-! ### Patterns -/

/-- The ways to match the front of a list, the one that is tried first in front, each with what it
matches and what it leaves. -/
abbrev Pattern (α β : Type*) := List α → List (β × List α)

namespace Pattern

variable {x : β} {rest : List α} {P : Pattern α β} {Q : β → Pattern α γ}

/-- One element that satisfies `p`. -/
def one (p : α → Bool) : Pattern α α
  | [] => []
  | a :: l => if p a then [(a, l)] else []

/-- Any number of elements that satisfy `p`, as many as possible first. -/
def many (p : α → Bool) : Pattern α (List α)
  | [] => [([], [])]
  | a :: l => if p a then (many p l).map (fun r => (a :: r.1, r.2)) ++ [([], a :: l)]
    else [([], a :: l)]

/-- One pattern, and then another one. -/
def seq (P : Pattern α β) (Q : β → Pattern α γ) : Pattern α γ := fun l =>
  (P l).flatMap fun r => Q r.1 r.2

/-- A pattern that matches without an element. -/
def value (x : β) : Pattern α β := fun l => [(x, l)]

/-- One pattern, or else another one. -/
def or (P Q : Pattern α β) : Pattern α β := fun l => P l ++ Q l

/-- A pattern, or else nothing. -/
def optional (P : Pattern α β) : Pattern α (Option β) :=
  or (seq P fun x => value (some x)) (value none)

/-- These elements. -/
def literal [DecidableEq α] : List α → Pattern α Unit
  | [] => value ()
  | a :: l => seq (one fun b => b = a) fun _ => literal l

/-- At least one element that satisfies `p`, as many as possible first. -/
def many₁ (p : α → Bool) : Pattern α (List α) :=
  seq (one p) fun a => seq (many p) fun l => value (a :: l)

/-- The first match at the leftmost place. -/
def search (P : Pattern α β) : List α → Option β
  | [] => (P []).head?.map Prod.fst
  | a :: l => ((P (a :: l)).head?.map Prod.fst).or (search P l)

/-- If the first way to match goes on to a match, it is the first one. -/
theorem head?_seq (hP : (P l).head? = some (x, rest)) {r : γ × List α}
    (hQ : (Q x rest).head? = some r) : (seq P Q l).head? = some r := by
  obtain ⟨tail, htail⟩ := List.head?_eq_some_iff.1 hP
  rw [seq, htail, List.flatMap_cons, List.head?_append, hQ]
  rfl

theorem head?_one {a : α} (h : p a) : (one p (a :: l)).head? = some (a, l) := by
  rw [one, if_pos h]
  rfl

theorem head?_many (l : List α) :
    (many p l).head? = some (l.takeWhile p, l.dropWhile p) := by
  induction l with
  | nil => rfl
  | cons a l ih =>
    rw [many]
    by_cases h : p a
    · rw [if_pos h, List.head?_append, List.head?_map, ih, List.takeWhile_cons_of_pos h,
        List.dropWhile_cons_of_pos h]
      rfl
    · rw [if_neg h, List.takeWhile_cons_of_neg h, List.dropWhile_cons_of_neg h]
      rfl

theorem head?_many₁ (hne : l ≠ []) (h : ∀ a ∈ l, p a) (hrest : ∀ a ∈ rest.head?, ¬ p a) :
    (many₁ p (l ++ rest)).head? = some (l, rest) := by
  have hdrop : rest.dropWhile p = rest ∧ rest.takeWhile p = [] := by
    cases rest with
    | nil => exact ⟨rfl, rfl⟩
    | cons b rest =>
      have hb : ¬ p b := hrest b rfl
      exact ⟨List.dropWhile_cons_of_neg hb, List.takeWhile_cons_of_neg hb⟩
  cases l with
  | nil => exact absurd rfl hne
  | cons a l =>
    have hl : ∀ b ∈ l, p b := fun b hb => h b (List.mem_cons_of_mem _ hb)
    have ha : (one p (a :: (l ++ rest))).head? = some (a, l ++ rest) :=
      head?_one (h a List.mem_cons_self)
    refine head?_seq ha (head?_seq (head?_many _) ?_)
    rw [List.takeWhile_append_of_pos hl, List.dropWhile_append_of_pos hl, hdrop.1, hdrop.2,
      List.append_nil]
    rfl

theorem head?_optional (hP : (P l).head? = some (x, rest)) :
    (optional P l).head? = some (some x, rest) := by
  rw [optional, or, List.head?_append, head?_seq hP (show (value (some x) rest).head? = _ from rfl)]
  rfl

theorem search_of_head? (h : (P l).head? = some (x, rest)) : search P l = some x := by
  cases l with
  | nil => rw [search, h]; rfl
  | cons a l => rw [search, h]; rfl

end Pattern

end Dmlf
