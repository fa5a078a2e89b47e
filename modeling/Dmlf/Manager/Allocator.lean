import Dmlf.Manager.Queue
import Dmlf.Text.Python

/-!
# The allocator

`NodeAllocator` (`dmlf/manager/allocator.py`) scores the nodes by their hardware and takes the
best.  Weights and scores are exact rationals here.

* `NodeAllocator.allocate_best` : the nodes that are taken, by their places in the list of the
  available ones.
-/

namespace Dmlf

/-! ### Memory sizes -/

/-- The units of a memory size. -/
inductive MemoryUnit where
  | gb
  | mb
  deriving DecidableEq

/-- The pattern `(\d+(\.\d+)?)\s*(GB|MB)`: the digits before and after the point, and the unit. -/
def memoryPattern : Pattern Char ((List Char × Option (List Char)) × MemoryUnit) :=
  .seq (.many₁ isDecimal) fun whole =>
  .seq (.optional (.seq (.one fun c => c = '.') fun _ => .many₁ isDecimal)) fun fraction =>
  .seq (.many isSpace) fun _ =>
  .seq (.or (.seq (.literal "GB".toList) fun _ => .value .gb)
    (.seq (.literal "MB".toList) fun _ => .value .mb)) fun unit =>
  .value ((whole, fraction), unit)

/-- `float` of the digits before and after a point, exactly. -/
def decimalNumber (whole : List Char) (fraction : Option (List Char)) : ℚ :=
  let digits := fraction.getD []
  decimalValue whole + decimalValue digits / 10 ^ digits.length

/-- `NodeAllocator._parse_memory`: a size in megabytes. -/
def parseMemory (memStr : String) : ℚ :=
  if memStr = "" then 0
  else match memoryPattern.search (upper memStr).toList with
    | none => 0
    | some ((whole, fraction), .gb) => decimalNumber whole fraction * 1024
    | some ((whole, fraction), .mb) => decimalNumber whole fraction

/-! ### Scores -/

/-- The weights of the three parts of a score. -/
structure NodeAllocator where
  gpuWeight : ℚ
  cpuWeight : ℚ
  ramWeight : ℚ

namespace NodeAllocator

variable (al : NodeAllocator)

/-- `score_node`, of the three keys that it reads of a node; a key may be absent. -/
def score (gpuModel : Option String) (cpuCount : Option ℤ) (ramTotal : Option String) : ℚ :=
  let model := gpuModel.getD ""
  let hasGpu := if model ≠ "" ∧ model ≠ "None" then 1 else 0
  let gpuScore := hasGpu * 1000 * al.gpuWeight
  let cpuScore := cpuCount.getD 1 * al.cpuWeight
  let ramMb := parseMemory (ramTotal.getD "0MB")
  let ramScore := ramMb / 1024 * al.ramWeight
  gpuScore + cpuScore + ramScore

/-- `score_node` of a row, which has all keys. -/
def scoreNode (node : NodeRow) : ℚ :=
  al.score (some node.gpuModel) (some node.cpuCount) (some node.ramTotal)

end NodeAllocator

/-! ### The choice -/

section Best

variable {α : Type*} (score : α → ℚ) (l : List α)

/-- The first place is taken before the second: by score, and among equal scores by place. -/
def Before (i j : Fin l.length) : Prop :=
  score (l.get j) < score (l.get i) ∨ score (l.get j) = score (l.get i) ∧ i < j

/-- The places of a list, the best first. -/
def ranking : List (Fin l.length) :=
  (List.finRange l.length).insertionSort fun i j => score (l.get j) ≤ score (l.get i)

theorem perm_ranking : (ranking score l).Perm (List.finRange l.length) :=
  List.perm_insertionSort _ _

theorem nodup_ranking : (ranking score l).Nodup :=
  (perm_ranking score l).nodup_iff.2 (List.nodup_finRange _)

theorem length_ranking : (ranking score l).length = l.length := by
  rw [(perm_ranking score l).length_eq, List.length_finRange]

theorem mem_ranking (i : Fin l.length) : i ∈ ranking score l :=
  (perm_ranking score l).mem_iff.2 (List.mem_finRange i)

theorem map_ranking :
    (ranking score l).map l.get = l.insertionSort fun a b => score b ≤ score a := by
  have hmap : (ranking score l).map l.get =
      ((List.finRange l.length).map l.get).insertionSort fun a b => score b ≤ score a :=
    List.map_insertionSort _ _ _ _ fun i _ j _ => Iff.rfl
  rw [hmap, List.map_get_finRange]

theorem pairwise_ranking : (ranking score l).Pairwise (Before score l) := by
  refine pairwise_insertionSort_of (fun i _ j _ _ hnot => .inl (not_le.1 hnot)) ?_
  refine (List.pairwise_lt_finRange _).imp fun {i j} hlt hij hji => ?_
  exact .inr ⟨le_antisymm hij hji, hlt⟩

/-- **The best `k`**: what is cut off the ranking comes after all that is kept. -/
theorem before_of_take (k : ℕ) {i j : Fin l.length} (hi : i ∈ (ranking score l).take k)
    (hj : j ∉ (ranking score l).take k) : Before score l i j := by
  have hsplit := pairwise_ranking score l
  rw [← List.take_append_drop k (ranking score l)] at hsplit
  have hdrop : j ∈ (ranking score l).drop k := by
    have hmem := mem_ranking score l j
    rw [← List.take_append_drop k (ranking score l)] at hmem
    exact (List.mem_append.1 hmem).resolve_left hj
  exact (List.pairwise_append.1 hsplit).2.2 i hi j hdrop

end Best

namespace NodeAllocator

/-- `allocate`. -/
def allocate (al : NodeAllocator) (availableNodes : List NodeRow) (requiredNodes : ℤ) :
    List NodeRow :=
  Dmlf.allocate al.scoreNode availableNodes requiredNodes

/-- **Allocation takes the best nodes**: none when there are too few; otherwise as many as
required, at different places of the list, in an order in which a node of a higher score, or of
the same score and an earlier place, comes first, and before all that are left out. -/
theorem allocate_best (al : NodeAllocator) (nodes : List NodeRow) (requiredNodes : ℕ) :
    (nodes.length < requiredNodes → al.allocate nodes requiredNodes = []) ∧
      (requiredNodes ≤ nodes.length → ∃ places : List (Fin nodes.length),
        al.allocate nodes requiredNodes = places.map nodes.get ∧
        places.length = requiredNodes ∧ places.Nodup ∧
        places.Pairwise (Before al.scoreNode nodes) ∧
        ∀ i ∈ places, ∀ j ∉ places, Before al.scoreNode nodes i j) := by
  constructor
  · intro hfew
    rw [allocate, Dmlf.allocate, if_pos (by exact_mod_cast hfew)]
  · intro henough
    refine ⟨(ranking al.scoreNode nodes).take requiredNodes, ?_, ?_, ?_, ?_, ?_⟩
    · rw [allocate, Dmlf.allocate, if_neg (by exact_mod_cast not_lt.2 henough), sliceTo,
        if_pos (Int.natCast_nonneg _), Int.toNat_natCast, ← map_ranking, List.map_take]
    · rw [List.length_take, length_ranking, min_eq_left henough]
    · exact (nodup_ranking _ _).sublist (List.take_sublist _ _)
    · exact (pairwise_ranking _ _).sublist (List.take_sublist _ _)
    · exact fun i hi j hj => before_of_take _ _ _ hi hj

end NodeAllocator

end Dmlf
