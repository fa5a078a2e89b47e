import Dmlf.Manager.Calls

/-!
# The order of the queue

`submit_job` and `retry_job` sort the queue after their append, and `pop_top_job` takes its first
entry.  `requeue_job` puts the entry that was popped back to the front, as if nothing had been
appended in between.

* `JobQueue.exec` : the four operations, with at most one popped job in the hands of the scheduler.
* `JobQueue.sorted_iff` : the queue is sorted in all states of a run exactly if no job is put back
  in front of one that comes before it.
* `Conf.sorted_queue_iff` : the same for the queue of the manager, one call at a time.
-/

namespace Dmlf

namespace JobDict

/-- `a` has the higher priority, or the same one and is not younger; a missing value is `0`. -/
def InOrder (a b : JobDict) : Prop :=
  b.priority.getD 0 < a.priority.getD 0 ∨
    a.priority.getD 0 = b.priority.getD 0 ∧ a.createdAt.getD 0 ≤ b.createdAt.getD 0

instance : DecidableRel InOrder := fun a b =>
  inferInstanceAs (Decidable (b.priority.getD 0 < a.priority.getD 0 ∨
    a.priority.getD 0 = b.priority.getD 0 ∧ a.createdAt.getD 0 ≤ b.createdAt.getD 0))

theorem notAfter_iff_inOrder {a b : JobDict} : a.NotAfter b ↔ a.InOrder b := by
  simp [NotAfter, InOrder, sortKey]

end JobDict

theorem pairwise_sortQueue (queue : List JobDict) :
    (sortQueue queue).Pairwise JobDict.InOrder :=
  (List.pairwise_insertionSort JobDict.NotAfter queue).imp JobDict.notAfter_iff_inOrder.1

/-- The queue of a `JobQueue`, and the job that has been popped and is still held. -/
structure JobQueue where
  queue : List JobDict
  held : Option JobDict

namespace JobQueue

/-- The operations on the queue; `release` is the dispatch of the job that is held. -/
inductive Op where
  | submitJob (job : JobDict)
  | retryJob (job : JobDict)
  | popTopJob
  | requeueJob
  | release

/-- A queue that has been recovered from the pending jobs. -/
def recovered (pending : List JobDict) : JobQueue := ⟨sortQueue pending, none⟩

/-- One operation.  A job is popped only when none is held. -/
def exec (s : JobQueue) : Op → Option JobQueue
  | .submitJob job => some { s with queue := appendSorted s.queue { job with status := .pending } }
  | .retryJob job => some { s with queue := appendSorted s.queue job.retried }
  | .popTopJob =>
    match s.held, s.queue with
    | none, job :: queue => some ⟨queue, some job⟩
    | _, _ => none
  | .requeueJob => s.held.map fun job => ⟨job :: s.queue, none⟩
  | .release => s.held.map fun _ => ⟨s.queue, none⟩

/-- The operations in any order. -/
def lts : LTS JobQueue Op := LTS.ofExec exec

/-- The queue is sorted, so its first entry has the highest priority. -/
structure Sorted (s : JobQueue) : Prop where
  pairwise : s.queue.Pairwise JobDict.InOrder
  top : ∀ job queue, s.queue = job :: queue →
    ∀ other ∈ queue, other.priority.getD 0 ≤ job.priority.getD 0

/-- A job that is put back comes before no entry of the queue that comes before it. -/
def Fits (s : JobQueue) : Op → Prop
  | .requeueJob => ∀ job ∈ s.held, ∀ other ∈ s.queue, job.InOrder other
  | _ => True

variable {s s' : JobQueue} {op : Op}

theorem sorted_iff_pairwise : s.Sorted ↔ s.queue.Pairwise JobDict.InOrder := by
  refine ⟨Sorted.pairwise, fun h => ⟨h, fun job queue hq other hother => ?_⟩⟩
  rw [hq] at h
  rcases (List.pairwise_cons.1 h).1 other hother with hlt | ⟨heq, -⟩
  · exact hlt.le
  · exact heq.ge

/-- From a sorted queue an operation leads to a sorted one exactly if the job fits. -/
theorem sorted_step (h : s.Sorted) (hst : s.exec op = some s') : s'.Sorted ↔ s.Fits op := by
  rw [sorted_iff_pairwise] at h ⊢
  cases op with
  | submitJob job =>
    obtain rfl := Option.some.inj hst
    exact iff_of_true (pairwise_sortQueue _) trivial
  | retryJob job =>
    obtain rfl := Option.some.inj hst
    exact iff_of_true (pairwise_sortQueue _) trivial
  | popTopJob =>
    simp only [exec] at hst
    split at hst
    · rename_i job queue _ hq
      obtain rfl := Option.some.inj hst
      rw [hq] at h
      exact iff_of_true (List.pairwise_cons.1 h).2 trivial
    · cases hst
  | requeueJob =>
    obtain ⟨job, hjob, rfl⟩ := Option.map_eq_some_iff.1 hst
    simp only [Fits, hjob, Option.mem_some_iff, forall_eq']
    exact List.pairwise_cons.trans (and_iff_left h)
  | release =>
    obtain ⟨job, hjob, rfl⟩ := Option.map_eq_some_iff.1 hst
    exact iff_of_true h trivial

/-- **The queue is sorted in all states of a run**, and so its first entry has the highest priority,
exactly if every job that is put back fits in front of the queue. -/
theorem sorted_iff {pending : List JobDict} {tr : List (Op × JobQueue)}
    (h : lts.Run (recovered pending) tr) :
    LTS.StatesMeet Sorted (recovered pending) tr ↔ LTS.StepsMeet Fits (recovered pending) tr :=
  h.statesMeet_iff_stepsMeet (K := fun _ => True) (fun _ _ _ _ _ => trivial)
    (fun _ _ _ _ hs hst => sorted_step hs hst) trivial
    (sorted_iff_pairwise.2 (pairwise_sortQueue pending))

/-- A job is popped, and put back when a job of higher priority has been submitted. -/
def overtaken : List Op :=
  let job := (Sample.job 1 1).toDict "job-1"
  [.submitJob job, .popTopJob, .submitJob { job with jobId := "job-2", priority := some 1 },
    .requeueJob]

theorem sorted_iff_overtaken :
    LTS.StatesMeet Sorted (recovered []) (LTS.runOf exec (recovered []) overtaken) ↔
      LTS.StepsMeet Fits (recovered []) (LTS.runOf exec (recovered []) overtaken) :=
  sorted_iff (LTS.run_runOf _ _ _)

/-- The job that is put back stands in front of one of higher priority. -/
theorem sorted_fails :
    ¬ ∀ (pending : List JobDict) (s : JobQueue), lts.Reachable (recovered pending) s →
      s.Sorted := by
  intro hall
  obtain ⟨s, hs, hp⟩ := LTS.exists_of_exec exec (recovered []) overtaken
    (fun s => decide ¬ s.queue.Pairwise JobDict.InOrder) (by decide +kernel)
  exact of_decide_eq_true hp (hall [] s hs).pairwise

end JobQueue

/-! ### The queue of the manager -/

namespace Conf

variable {cfg : Setup} {c c' : Conf} {l : Label}

/-- The next call puts no entry back in front of one that comes before it. -/
def RequeueFits (c : Conf) : Label → Prop
  | .runTask i _ => ∀ job, c.tasks[i]? = some (.schedRequeue job) →
      ∀ other ∈ c.mgr.queue, job.InOrder other
  | _ => True

theorem sorted_queue_step (h : c.mgr.queue.Pairwise JobDict.InOrder)
    (hst : exec cfg c l = some c') :
    c'.mgr.queue.Pairwise JobDict.InOrder ↔ c.RequeueFits l := by
  rw [queue_step hst]
  cases l with
  | schedulerPass => exact iff_of_true h.tail trivial
  | restart => exact iff_of_true (pairwise_sortQueue _) trivial
  | runTask i now =>
    simp only [queueAfter, RequeueFits]
    cases hi : c.tasks[i]? with
    | none => exact iff_of_true h (by simp)
    | some t =>
      simp only [Option.map_some, Option.getD_some, Option.some.injEq]
      cases t with
      | submitAppend | retryAppend | monAppend =>
        exact iff_of_true (pairwise_sortQueue _) (by simp)
      | schedRequeue job =>
        simp only [Task.queueAfter, Task.schedRequeue.injEq, forall_eq']
        exact List.pairwise_cons.trans (and_iff_left h)
      | registerQueue | retrySetIdle | retryWrite | failWrite | closedSetIdle | schedSelect
        | schedReserve | schedSend | monJobs | monLoop | monCount => exact iff_of_true h (by simp)
  | registerNode | sendHeartbeat | listenForCommands | takeCommand | reportJobStatus | submitJob
    | monitorPass | probe => exact iff_of_true h trivial

/-- **The queue of the manager** is sorted in all states of a run exactly if the scheduler puts no
entry back in front of one that comes before it. -/
theorem sorted_queue_iff {reg : Registry} {tr : List (Label × Conf)}
    (h : (fine cfg).Run (start reg) tr) :
    LTS.StatesMeet (fun c => c.mgr.queue.Pairwise JobDict.InOrder) (start reg) tr ↔
      LTS.StepsMeet RequeueFits (start reg) tr :=
  h.statesMeet_iff_stepsMeet (K := fun _ => True) (fun _ _ _ _ _ => trivial)
    (fun _ _ _ _ hs hst => sorted_queue_step hs hst) trivial (pairwise_sortQueue _)

end Conf

end Dmlf
