import Dmlf.Manager.Effects

/-!
# Reports about different jobs

A status report reads one row of the job table and writes it, releases a node, and may append an
entry to the queue, which is then sorted.  Two reports about different jobs may be handled in
either order.

* `ReportAction` : what a report does, read from the row of its job.
* `Registry.act_comm` : two such actions on the tables commute.
* `Manager.reports_commute` : the tables, the gauges and the queue after two reports.  Only two
  entries that the sort does not tell apart are queued in the order of the reports.
-/

namespace Dmlf

/-- What a report about a job does. -/
inductive ReportAction where
  | ignore
  /-- Retry the job, whose row is `job`. -/
  | retry (job : JobRow)
  | fail
  | complete

namespace ReportAction

/-- The write to the row of the job. -/
def write (now : Time) : ReportAction → JobRow → JobRow
  | .ignore => id
  | .retry job => fun row => { row with status := .pending, retries := job.retries + 1 }
  | .fail => JobRow.withStatus .failed none (some 1) now
  | .complete => JobRow.withStatus .completed none (some 0) now

theorem jobId_write (now : Time) (a : ReportAction) (row : JobRow) :
    (a.write now row).jobId = row.jobId := by
  cases a <;> rfl

/-- The node that is set idle. -/
def releases (req : JobStatusRequest) : ReportAction → Option String
  | .ignore => none
  | .retry _ | .fail | .complete => some req.nodeId

/-- The entry that is appended. -/
def entry : ReportAction → Option JobDict
  | .retry job => some job.toDict.retried
  | .ignore | .fail | .complete => none

/-- The gauges after it. -/
def count (g : Gauges) : ReportAction → Gauges
  | .retry _ => { g with jobRetries := g.jobRetries + 1 }
  | .complete => { g with jobsRunning := g.jobsRunning - 1 }
  | .ignore | .fail => g

/-- The queue after it. -/
def enqueue (queue : List JobDict) (a : ReportAction) : List JobDict :=
  (a.entry.map (appendSorted queue)).getD queue

theorem count_comm (g : Gauges) (a b : ReportAction) :
    b.count (a.count g) = a.count (b.count g) := by
  cases a <;> cases b <;> rfl

end ReportAction

namespace Registry

variable {reg : Registry}

/-- Set a node idle, if there is one to set. -/
def release (reg : Registry) (n : Option String) : Registry :=
  (n.map fun n => reg.updateNodeState n .idle).getD reg

theorem release_comm (reg : Registry) (n n' : Option String) :
    (reg.release n).release n' = (reg.release n').release n := by
  cases n with
  | none => rfl
  | some n =>
    cases n' with
    | none => rfl
    | some n' =>
      simp only [release, Option.map_some, Option.getD_some, updateNodeState, updateNodes]
      congr 1
      exact Table.modify_comm _ _ _ (fun _ => rfl) (fun _ => rfl) fun _ _ _ => rfl

theorem jobs_release (reg : Registry) (n : Option String) : (reg.release n).jobs = reg.jobs := by
  cases n <;> rfl

theorem updateJob_comm {i j : String} (hne : i ≠ j) {f g : JobRow → JobRow} (hf hg) :
    (reg.updateJob i f hf).updateJob j g hg = (reg.updateJob j g hg).updateJob i f hf := by
  simp only [updateJob]
  congr 1
  refine Table.modify_comm _ _ _ (fun r => by rw [hg]) (fun r => by rw [hf]) fun r hi hj => ?_
  -- no row has both ids
  exact absurd ((of_decide_eq_true hi).symm.trans (of_decide_eq_true hj)) hne

/-- What an action does to the tables. -/
def act (reg : Registry) (a : ReportAction) (req : JobStatusRequest) (now : Time) : Registry :=
  (reg.updateJob req.jobId (a.write now) (a.jobId_write now)).release (a.releases req)

theorem updateJob_release (reg : Registry) (n : Option String) (j : String)
    (f : JobRow → JobRow) (hf) :
    (reg.release n).updateJob j f hf = (reg.updateJob j f hf).release n := by
  cases n <;> rfl

/-- **Actions on different jobs commute.** -/
theorem act_comm {r₁ r₂ : JobStatusRequest} (hne : r₁.jobId ≠ r₂.jobId) (reg : Registry)
    (a₁ a₂ : ReportAction) (t₁ t₂ : Time) :
    (reg.act a₁ r₁ t₁).act a₂ r₂ t₂ = (reg.act a₂ r₂ t₂).act a₁ r₁ t₁ := by
  simp only [act, updateJob_release]
  rw [release_comm, updateJob_comm hne]

theorem getJob_act (reg : Registry) (a : ReportAction) (req : JobStatusRequest) (now : Time)
    {j : String} (hne : j ≠ req.jobId) : (reg.act a req now).getJob j = reg.getJob j := by
  rw [act, getJob, jobs_release]
  exact (getJob_updateJob ..).trans (if_neg hne)

theorem act_ignore (reg : Registry) (req : JobStatusRequest) (now : Time) :
    reg.act .ignore req now = reg := by
  have hjobs : reg.jobs.modify (fun r => r.jobId = req.jobId) (ReportAction.write now .ignore)
      (ReportAction.jobId_write now .ignore) = reg.jobs := by
    refine Table.ext ?_
    simp [Table.modify, ReportAction.write]
  simp only [act, release, ReportAction.releases, Option.map_none, Option.getD_none, updateJob]
  rw [hjobs]

end Registry

namespace Manager

variable {m : Manager} {r₁ r₂ : JobStatusRequest}

/-- The action of a report. -/
def reportAction (m : Manager) (req : JobStatusRequest) : ReportAction :=
  if req.isFailure then
    match m.registry.getJob req.jobId with
    | none => .ignore
    | some job => if job.retries < job.maxRetries then .retry job else .fail
  else if req.isCompletion then .complete
  else .ignore

/-- **A report is its action**, on each part of the state. -/
theorem reportJobStatus_act (m : Manager) (req : JobStatusRequest) (now : Time) :
    (m.reportJobStatus req now).registry = m.registry.act (m.reportAction req) req now ∧
      (m.reportJobStatus req now).queue = (m.reportAction req).enqueue m.queue ∧
      (m.reportJobStatus req now).gauges = (m.reportAction req).count m.gauges ∧
      (m.reportJobStatus req now).commandQueues = m.commandQueues := by
  have heff := reportEffect m req now
  generalize m.reportJobStatus req now = m' at heff
  cases heff with
  | ignored hf hc =>
    rw [show m.reportAction req = .ignore by simp [reportAction, hf, hc], Registry.act_ignore]
    exact ⟨rfl, rfl, rfl, rfl⟩
  | unknown hf hj =>
    rw [show m.reportAction req = .ignore by simp [reportAction, hf, hj], Registry.act_ignore]
    exact ⟨rfl, rfl, rfl, rfl⟩
  | retried job hf hj hlt =>
    rw [show m.reportAction req = .retry job by simp [reportAction, hf, hj, hlt], Registry.act,
      ← Registry.jobId_of_getJob hj]
    exact ⟨rfl, rfl, rfl, rfl⟩
  | failed job hf hj hlt =>
    rw [show m.reportAction req = .fail by simp [reportAction, hf, hj, hlt]]
    exact ⟨rfl, rfl, rfl, rfl⟩
  | completed hf hc =>
    rw [show m.reportAction req = .complete by simp [reportAction, hf, hc]]
    exact ⟨rfl, rfl, rfl, rfl⟩

theorem reportAction_reportJobStatus (hne : r₁.jobId ≠ r₂.jobId) (m : Manager) (t : Time) :
    (m.reportJobStatus r₁ t).reportAction r₂ = m.reportAction r₂ := by
  rw [reportAction, (reportJobStatus_act m r₁ t).1, Registry.getJob_act _ _ _ _ hne.symm]
  rfl

theorem entry_reportAction {req : JobStatusRequest} {e : JobDict}
    (h : (m.reportAction req).entry = some e) :
    ∃ row, m.registry.getJob req.jobId = some row ∧ e = row.toDict.retried := by
  unfold reportAction at h
  split_ifs at h
  · cases hj : m.registry.getJob req.jobId with
    | none => rw [hj] at h; cases h
    | some job =>
      rw [hj] at h
      dsimp only at h
      split_ifs at h
      · exact ⟨job, rfl, (Option.some.inj h).symm⟩
      · cases h
  · cases h
  · cases h

/-- What is the same after two reports in either order. -/
structure ReportsCommute (m : Manager) (r₁ r₂ : JobStatusRequest) (m₁₂ m₂₁ : Manager) : Prop where
  nodes : m₁₂.registry.nodes = m₂₁.registry.nodes
  jobs : m₁₂.registry.jobs = m₂₁.registry.jobs
  gauges : m₁₂.gauges = m₂₁.gauges
  /-- The queues are the same, or the keys of the jobs are, and the new entries are exchanged. -/
  queue : m₁₂.queue = m₂₁.queue ∨ ∃ row₁ row₂,
    m.registry.getJob r₁.jobId = some row₁ ∧ m.registry.getJob r₂.jobId = some row₂ ∧
    (row₁.priority, row₁.createdAt) = (row₂.priority, row₂.createdAt) ∧ ∃ front back,
      m₁₂.queue = front ++ row₁.toDict.retried :: row₂.toDict.retried :: back ∧
      m₂₁.queue = front ++ row₂.toDict.retried :: row₁.toDict.retried :: back

theorem appendSorted_appendSorted (queue : List JobDict) (a b : JobDict) :
    appendSorted (appendSorted queue a) b = sortQueue (queue ++ [a, b]) := by
  rw [appendSorted, appendSorted, sortQueue, sortQueue, insertionSort_insertionSort_append,
    List.append_assoc]
  rfl

theorem key_eq_of_tie {row₁ row₂ : JobRow}
    (h : row₁.toDict.retried.NotAfter row₂.toDict.retried)
    (h' : row₂.toDict.retried.NotAfter row₁.toDict.retried) :
    (row₁.priority, row₁.createdAt) = (row₂.priority, row₂.createdAt) := by
  simp only [JobDict.NotAfter, JobDict.sortKey, JobDict.retried, JobRow.toDict, Option.getD_some,
    neg_le_neg_iff] at h h'
  have hp : row₁.priority = row₂.priority := by omega
  have hle : row₁.createdAt ≤ row₂.createdAt := (h.resolve_left (by omega)).2
  have hge : row₂.createdAt ≤ row₁.createdAt := (h'.resolve_left (by omega)).2
  rw [hp, le_antisymm hle hge]

/-- **Reports about different jobs commute.** -/
theorem reports_commute (hne : r₁.jobId ≠ r₂.jobId) (m : Manager) (t₁ t₂ : Time) :
    ReportsCommute m r₁ r₂ ((m.reportJobStatus r₁ t₁).reportJobStatus r₂ t₂)
      ((m.reportJobStatus r₂ t₂).reportJobStatus r₁ t₁) := by
  obtain ⟨hreg₁, hqueue₁, hgauges₁, -⟩ := reportJobStatus_act m r₁ t₁
  obtain ⟨hreg₂, hqueue₂, hgauges₂, -⟩ := reportJobStatus_act m r₂ t₂
  obtain ⟨hreg₁₂, hqueue₁₂, hgauges₁₂, -⟩ := reportJobStatus_act (m.reportJobStatus r₁ t₁) r₂ t₂
  obtain ⟨hreg₂₁, hqueue₂₁, hgauges₂₁, -⟩ := reportJobStatus_act (m.reportJobStatus r₂ t₂) r₁ t₁
  -- each of the two actions is the one of its report in the state before both
  rw [reportAction_reportJobStatus hne] at hreg₁₂ hqueue₁₂ hgauges₁₂
  rw [reportAction_reportJobStatus hne.symm] at hreg₂₁ hqueue₂₁ hgauges₂₁
  rw [hreg₁] at hreg₁₂
  rw [hreg₂] at hreg₂₁
  have hreg := (hreg₁₂.trans (Registry.act_comm hne ..)).trans hreg₂₁.symm
  refine ⟨congrArg Registry.nodes hreg, congrArg Registry.jobs hreg, ?_, ?_⟩
  · rw [hgauges₁₂, hgauges₂₁, hgauges₁, hgauges₂, ReportAction.count_comm]
  · rw [hqueue₁₂, hqueue₂₁, hqueue₁, hqueue₂]
    simp only [ReportAction.enqueue]
    cases he₁ : (m.reportAction r₁).entry with
    | none => exact .inl rfl
    | some e₁ =>
      cases he₂ : (m.reportAction r₂).entry with
      | none => exact .inl rfl
      | some e₂ =>
        obtain ⟨row₁, hrow₁, rfl⟩ := entry_reportAction he₁
        obtain ⟨row₂, hrow₂, rfl⟩ := entry_reportAction he₂
        simp only [Option.map_some, Option.getD_some, appendSorted_appendSorted]
        by_cases htie : row₁.toDict.retried.NotAfter row₂.toDict.retried ∧
            row₂.toDict.retried.NotAfter row₁.toDict.retried
        · have hself : row₁.toDict.retried.NotAfter row₁.toDict.retried := Std.Refl.refl _
          obtain ⟨front, back, h⟩ :=
            exists_insertionSort_append_ties (r := JobDict.NotAfter) row₁.toDict.retried m.queue
          exact .inr ⟨row₁, row₂, hrow₁, hrow₂, key_eq_of_tie htie.1 htie.2, front, back,
            h _ _ ⟨hself, hself⟩ htie, h _ _ htie ⟨hself, hself⟩⟩
        · exact .inl (insertionSort_append_comm htie m.queue)

/-- Two jobs that were submitted at the same time fail on one node. -/
theorem reports_commute_ties :
    let m := (((serve .empty []).submitJob "job-1" (Sample.job 1 1) 100).bind fun m =>
      m.submitJob "job-2" (Sample.job 1 1) 100).getD (serve .empty [])
    ReportsCommute m ⟨"node-1", "job-1", "failed"⟩ ⟨"node-1", "job-2", "failed"⟩
      ((m.reportJobStatus ⟨"node-1", "job-1", "failed"⟩ 101).reportJobStatus
        ⟨"node-1", "job-2", "failed"⟩ 102)
      ((m.reportJobStatus ⟨"node-1", "job-2", "failed"⟩ 102).reportJobStatus
        ⟨"node-1", "job-1", "failed"⟩ 101) :=
  reports_commute (by decide) _ 101 102

end Manager

end Dmlf
