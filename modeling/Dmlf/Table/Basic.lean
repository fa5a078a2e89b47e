import Mathlib.Data.List.Nodup
import Mathlib.Data.List.Basic
import Mathlib.Data.List.Perm.Basic

/-!
# Tables with a primary key

A `Table key` is a list of rows, in insertion order, no two of which have the same `key`.  The
operations are the statements a program sends to a database: `find?` (a `SELECT` by primary
key), `modify` (an `UPDATE ... WHERE`, which may not change a key) and `insert?` (an `INSERT`,
which fails on a duplicate key).
-/

namespace Dmlf

/-- Rows in insertion order with pairwise different keys. -/
structure Table {κ ρ : Type*} (key : ρ → κ) where
  /-- The rows, the oldest first. -/
  rows : List ρ
  /-- No key occurs twice. -/
  nodup : (rows.map key).Nodup

namespace Table

variable {κ ρ : Type*} {key : ρ → κ}

/-- The table without rows. -/
def empty : Table key := ⟨[], List.nodup_nil⟩

theorem map_key_modify (rows : List ρ) (p : ρ → Bool) (f : ρ → ρ)
    (hf : ∀ r, key (f r) = key r) :
    (rows.map fun r => if p r then f r else r).map key = rows.map key := by
  rw [List.map_map]
  refine List.map_congr_left fun r _ => ?_
  simp only [Function.comp_apply]
  split <;> simp [hf]

/-- Apply `f` to the rows satisfying `p`; `f` keeps the key. -/
def modify (t : Table key) (p : ρ → Bool) (f : ρ → ρ) (hf : ∀ r, key (f r) = key r) :
    Table key :=
  ⟨t.rows.map fun r => if p r then f r else r, by
    rw [map_key_modify t.rows p f hf]; exact t.nodup⟩

@[ext] theorem ext {t t' : Table key} (h : t.rows = t'.rows) : t = t' := by
  cases t
  cases t'
  cases h
  rfl

/-- Two updates commute if neither changes what the other one selects, and they commute on the rows
that both select. -/
theorem modify_comm (t : Table key) {p q : ρ → Bool} {f g : ρ → ρ} (hf : ∀ r, key (f r) = key r)
    (hg : ∀ r, key (g r) = key r) (hp : ∀ r, p (g r) = p r) (hq : ∀ r, q (f r) = q r)
    (h : ∀ r, p r → q r → g (f r) = f (g r)) :
    (t.modify p f hf).modify q g hg = (t.modify q g hg).modify p f hf := by
  refine ext ?_
  simp only [modify, List.map_map]
  refine List.map_congr_left fun r _ => ?_
  cases hpr : p r <;> cases hqr : q r <;> simp [hpr, hqr, hp, hq]
  exact h r hpr hqr

variable [DecidableEq κ]

/-- The row with key `k`, if there is one. -/
def find? (t : Table key) (k : κ) : Option ρ := t.rows.find? fun r => key r = k

/-- Add a row at the end; `none` when its key is already there. -/
def insert? (t : Table key) (r : ρ) : Option (Table key) :=
  if h : key r ∉ t.rows.map key then
    some ⟨t.rows ++ [r], by
      rw [List.map_append, List.map_singleton]
      exact List.nodup_append.2 ⟨t.nodup, List.nodup_singleton _, by
        rintro a ha b hb rfl
        exact h (by rwa [List.mem_singleton.1 hb] at ha)⟩⟩
  else none

theorem mem_of_find? {t : Table key} {k : κ} {r : ρ} (h : t.find? k = some r) : r ∈ t.rows :=
  List.mem_of_find?_eq_some h

theorem key_of_find? {t : Table key} {k : κ} {r : ρ} (h : t.find? k = some r) : key r = k := by
  simpa using List.find?_some h

theorem find?_eq_none_iff {t : Table key} {k : κ} : t.find? k = none ↔ k ∉ t.rows.map key := by
  simp [find?, List.find?_eq_none]

theorem find?_of_mem {t : Table key} {r : ρ} (h : r ∈ t.rows) : t.find? (key r) = some r := by
  cases hf : t.find? (key r) with
  | none => exact absurd (List.mem_map_of_mem h) (find?_eq_none_iff.1 hf)
  | some r' =>
    rw [List.inj_on_of_nodup_map t.nodup (mem_of_find? hf) h (key_of_find? hf)]

@[simp] theorem find?_modify (t : Table key) (p : ρ → Bool) (f : ρ → ρ)
    (hf : ∀ r, key (f r) = key r) (k : κ) :
    (t.modify p f hf).find? k = (t.find? k).map fun r => if p r then f r else r := by
  simp only [find?, modify, List.find?_map]
  congr 2
  funext r
  simp only [Function.comp_apply]
  split <;> simp [hf]

theorem find?_insert? {t t' : Table key} {r : ρ} (h : t.insert? r = some t') (k : κ) :
    t'.find? k = if key r = k then some r else t.find? k := by
  unfold insert? at h
  split at h
  · rename_i hnew
    obtain rfl := Option.some.inj h
    simp only [find?, List.find?_append, List.find?_singleton, decide_eq_true_eq]
    split_ifs with hk
    · -- the new row is the first one with its key
      subst hk
      have hnone : t.rows.find? (fun x => decide (key x = key r)) = none :=
        find?_eq_none_iff.2 hnew
      simp [hnone]
    · simp
  · cases h

theorem rows_insert? {t t' : Table key} {r : ρ} (h : t.insert? r = some t') :
    t'.rows = t.rows ++ [r] ∧ t.find? (key r) = none := by
  unfold insert? at h
  split at h
  · rename_i hnew
    obtain rfl := Option.some.inj h
    exact ⟨rfl, find?_eq_none_iff.2 hnew⟩
  · cases h

theorem insert?_eq_none_iff {t : Table key} {r : ρ} :
    t.insert? r = none ↔ t.rows.any (fun r' => key r' = key r) = true := by
  have hany : t.rows.any (fun r' => key r' = key r) = true ↔ key r ∈ t.rows.map key := by
    simp only [List.any_eq_true, decide_eq_true_eq, List.mem_map]
  rw [hany, insert?]
  split_ifs with hnew
  · simpa using hnew
  · simpa using hnew

/-- A table with the keys of `t` whose rows are found as those of `t`, mapped by `f`, has the rows
of `t`, mapped by `f`. -/
theorem rows_eq_map {t t' : Table key} {f : ρ → ρ} (hkeys : t'.rows.map key = t.rows.map key)
    (h : ∀ k, t'.find? k = (t.find? k).map f) : t'.rows = t.rows.map f := by
  have hlen : t'.rows.length = t.rows.length := by simpa using congrArg List.length hkeys
  refine List.ext_getElem (by simpa using hlen) fun i hi' hi => ?_
  rw [List.length_map] at hi
  -- the rows at place `i` have the same key, and each is the one that is found by it
  have hkey : key t'.rows[i] = key t.rows[i] := by
    have hget := congrArg (fun l => l[i]?) hkeys
    simpa [hi, hi'] using hget
  have hfind := h (key t.rows[i])
  rw [find?_of_mem (List.getElem_mem hi), ← hkey, find?_of_mem (List.getElem_mem hi')] at hfind
  simpa using hfind

theorem countP_modify {t : Table key} {k : κ} {r : ρ} (h : t.find? k = some r) {f : ρ → ρ}
    (hf : ∀ r, key (f r) = key r) (q : ρ → Bool) :
    (t.modify (fun r => key r = k) f hf).rows.countP q + (if q r then 1 else 0) =
      t.rows.countP q + if q (f r) then 1 else 0 := by
  obtain ⟨l₁, l₂, hrows⟩ := List.append_of_mem (mem_of_find? h)
  have hk : key r = k := key_of_find? h
  -- the other rows have other keys
  have hnd := t.nodup
  rw [hrows, List.map_append, List.map_cons, List.nodup_middle] at hnd
  have hne : ∀ r' ∈ l₁ ++ l₂, key r' ≠ k := by
    rintro r' hr' heq
    refine (List.nodup_cons.1 hnd).1 ?_
    rw [← List.map_append, hk, ← heq]
    exact List.mem_map_of_mem hr'
  have hid : ∀ l ⊆ l₁ ++ l₂, (l.map fun r' => if key r' = k then f r' else r') = l := by
    intro l hl
    refine (List.map_congr_left (g := id) fun r' hr' => ?_).trans l.map_id
    exact if_neg (hne r' (hl hr'))
  have hmod : (t.modify (fun r => key r = k) f hf).rows = l₁ ++ f r :: l₂ := by
    simp only [modify, hrows, decide_eq_true_eq, List.map_append, List.map_cons, hk, if_true,
      hid l₁ (List.subset_append_left _ _), hid l₂ (List.subset_append_right _ _)]
  rw [hmod, hrows]
  simp only [List.countP_append, List.countP_cons]
  omega

end Table

end Dmlf
