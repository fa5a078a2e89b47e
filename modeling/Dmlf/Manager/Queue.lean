import Dmlf.Registry.Basic
import Dmlf.Sort.Stable

/-!
# The job queue and the node allocator

`JobQueue` (`dmlf/manager/queue.py`) keeps a list of job dicts, sorted by priority and age on
every append; `NodeAllocator.allocate` (`dmlf/manager/allocator.py`) picks nodes by score.  Both
rest on Python's stable descending sort, which is `List.insertionSort` by the relation "not
after".
-/

namespace Dmlf

/-! ### JobQueue -/

/-- The sort key of a queue entry, `(priority, -created_at)`, an absent key being `0`. -/
def JobDict.sortKey (job : JobDict) : ℤ × ℚ := (job.priority.getD 0, -job.createdAt.getD 0)

/-- In descending order of the keys `a` does not come after `b`. -/
def JobDict.NotAfter (a b : JobDict) : Prop :=
  b.sortKey.1 < a.sortKey.1 ∨ a.sortKey.1 = b.sortKey.1 ∧ b.sortKey.2 ≤ a.sortKey.2

instance : DecidableRel JobDict.NotAfter := fun a b =>
  inferInstanceAs (Decidable (b.sortKey.1 < a.sortKey.1 ∨
    a.sortKey.1 = b.sortKey.1 ∧ b.sortKey.2 ≤ a.sortKey.2))

instance : Std.Total JobDict.NotAfter := ⟨fun a b => by
  rcases lt_trichotomy a.sortKey.1 b.sortKey.1 with h | h | h
  · exact .inr (.inl h)
  · rcases le_total a.sortKey.2 b.sortKey.2 with h' | h'
    · exact .inr (.inr ⟨h.symm, h'⟩)
    · exact .inl (.inr ⟨h, h'⟩)
  · exact .inl (.inl h)⟩

instance : IsTrans JobDict JobDict.NotAfter := ⟨fun a b c hab hbc => by
  rcases hab with hab | ⟨hab, hab'⟩ <;> rcases hbc with hbc | ⟨hbc, hbc'⟩
  · exact .inl (hbc.trans hab)
  · exact .inl (hbc ▸ hab)
  · exact .inl (hab ▸ hbc)
  · exact .inr ⟨hab.trans hbc, hbc'.trans hab'⟩⟩

/-- `queue.sort(key=..., reverse=True)`. -/
def sortQueue (queue : List JobDict) : List JobDict := queue.insertionSort JobDict.NotAfter

/-- The queue after `queue.append(job)` and the sort that follows it. -/
def appendSorted (queue : List JobDict) (job : JobDict) : List JobDict :=
  sortQueue (queue ++ [job])

/-- `_recover_pending_jobs`: the queue a starting manager builds from the table. -/
def recoverPendingJobs (reg : Registry) : List JobDict :=
  sortQueue ((reg.getJobs .pending).map JobRow.toDict)

/-- The job dict that `retry_job` writes and appends: one retry more, and pending. -/
def JobDict.retried (job : JobDict) : JobDict :=
  { job with retries := some (job.retries.getD 0 + 1), status := .pending }

theorem perm_appendSorted (queue : List JobDict) (job : JobDict) :
    (appendSorted queue job).Perm (job :: queue) :=
  (List.perm_insertionSort _ _).trans (List.perm_append_singleton _ _)

theorem perm_recoverPendingJobs (reg : Registry) :
    (recoverPendingJobs reg).Perm ((reg.getJobs .pending).map JobRow.toDict) :=
  List.perm_insertionSort _ _

theorem mem_recoverPendingJobs {reg : Registry} {row : JobRow} (hrow : row ∈ reg.jobs.rows) :
    row.jobId ∈ (recoverPendingJobs reg).map JobDict.jobId ↔ row.status = .pending := by
  rw [((perm_recoverPendingJobs reg).map _).mem_iff, List.map_map]
  constructor
  · intro h
    obtain ⟨row', hrow', hid⟩ := List.mem_map.1 h
    obtain ⟨hmem, hs⟩ := List.mem_filter.1 hrow'
    rw [← List.inj_on_of_nodup_map reg.jobs.nodup hmem hrow hid]
    simpa using hs
  · intro hs
    exact List.mem_map.2 ⟨row, List.mem_filter.2 ⟨hrow, by simpa using hs⟩, rfl⟩

/-! ### NodeAllocator -/

/-- Python's `l[:k]`, which drops the last `-k` elements for a negative `k`. -/
def sliceTo {α : Type*} (l : List α) (k : ℤ) : List α :=
  if 0 ≤ k then l.take k.toNat else l.take (l.length - (-k).toNat)

/-- `allocate`: the best nodes by score, none when there are too few. -/
def allocate (score : NodeRow → ℚ) (availableNodes : List NodeRow) (requiredNodes : ℤ) :
    List NodeRow :=
  -- a job that asks for no node at all gets none, or as many as a negative slice leaves
  if availableNodes.length < requiredNodes then []
  else sliceTo (availableNodes.insertionSort fun a b => score b ≤ score a) requiredNodes

theorem sublist_sliceTo {α : Type*} (l : List α) (k : ℤ) : (sliceTo l k).Sublist l := by
  unfold sliceTo
  split <;> exact List.take_sublist _ _

theorem subperm_allocate (score : NodeRow → ℚ) (available : List NodeRow) (k : ℤ) :
    (allocate score available k).Subperm available := by
  unfold allocate
  split
  · exact List.nil_subperm
  · exact (sublist_sliceTo _ _).subperm.trans (List.perm_insertionSort _ _).subperm

theorem mem_of_mem_allocate {score : NodeRow → ℚ} {available : List NodeRow} {k : ℤ}
    {node : NodeRow} (h : node ∈ allocate score available k) : node ∈ available :=
  (subperm_allocate score available k).subset h

end Dmlf
