import Dmlf.Manager.Effects

/-!
# A monitor pass from end to end

An iteration of the monitor loop reads the nodes, fails the running jobs over that lost one, and
marks the nodes that are late.  It uses two cutoffs: the timeout of the settings for the jobs, and
the default of `mark_offline_nodes` for the nodes.  `Manager.monitorPass_outcome` says what the
iteration does to the tables and to the queue, and that it leaves the rest alone.

* `Registry.Crashed` : the running jobs with a node that is late and not yet marked.
* `JobRow.restarted` : what becomes of such a job, however many of its nodes are late.
-/

namespace Dmlf

/-- The node is late, and neither marked as disconnected nor in maintenance. -/
def Registry.Late (reg : Registry) (cutoff : Time) (n : String) : Prop :=
  ∃ r ∈ reg.getNode n,
    r.lastHeartbeat < cutoff ∧ r.status ≠ .disconnected ∧ r.status ≠ .maintenance

/-- A running job with a late node. -/
def Registry.Crashed (reg : Registry) (cutoff : Time) (row : JobRow) : Prop :=
  row.status = .running ∧ ∃ n ∈ row.assignedNodes, reg.Late cutoff n

instance (reg : Registry) (cutoff : Time) (row : JobRow) : Decidable (reg.Crashed cutoff row) :=
  inferInstanceAs (Decidable (row.status = .running ∧ ∃ n ∈ row.assignedNodes,
    ∃ r ∈ reg.getNode n,
      r.lastHeartbeat < cutoff ∧ r.status ≠ .disconnected ∧ r.status ≠ .maintenance))

/-- The row of a job that is handled once: pending with one retry more, or failed if there is no
retry left. -/
def JobRow.restarted (now : Time) (row : JobRow) : JobRow :=
  if row.retries < row.maxRetries then { row with status := .pending, retries := row.retries + 1 }
  else { row with status := .failed, completedAt := some now, exitCode := some 1 }

/-- The row of a node that is late by the default timeout, and not in maintenance. -/
def NodeRow.disconnected (cutoff : Time) (r : NodeRow) : NodeRow :=
  if r.lastHeartbeat < cutoff ∧ r.status ≠ .maintenance then { r with status := .disconnected }
  else r

/-- What a monitor pass at time `now` does. -/
structure Manager.PassMonitors (cfg : Setup) (m : Manager) (now : Time) (m' : Manager) : Prop where
  /-- Each crashed job is handled once; the other rows are as they were. -/
  jobs : m'.registry.jobs.rows = m.registry.jobs.rows.map fun row =>
    if m.registry.Crashed (now - cfg.offlineTimeoutSec) row then row.restarted now else row
  /-- Each crashed job with a retry left gets one entry more. -/
  queue : m'.queue.Perm (m.queue ++ (m.registry.jobs.rows.filter fun row =>
    m.registry.Crashed (now - cfg.offlineTimeoutSec) row ∧ row.retries < row.maxRetries).map
      fun row => (row.restarted now).toDict)
  /-- The late nodes are marked; the other rows are as they were. -/
  nodes : m'.registry.nodes.rows = m.registry.nodes.rows.map (NodeRow.disconnected (now - 15))
  metrics : m'.registry.metrics = m.registry.metrics
  commandQueues : m'.commandQueues = m.commandQueues

namespace Manager

variable {cfg : Setup} {m : Manager} {now : Time} {offline : List String}

theorem late_iff {cutoff : Time} {n : String} : m.registry.Late cutoff n ↔
    n ∈ (m.registry.nodes.rows.filter (NodeRow.isStale cutoff)).map NodeRow.nodeId := by
  simp only [Registry.Late, List.mem_map, List.mem_filter, NodeRow.isStale, Bool.and_eq_true,
    decide_eq_true_eq, List.mem_cons, List.not_mem_nil, or_false, not_or, Option.mem_def]
  constructor
  · rintro ⟨r, hr, hstale⟩
    have hid := Registry.nodeId_of_getNode hr
    exact ⟨r, ⟨Registry.mem_nodes.2 (hid ▸ hr), hstale⟩, hid⟩
  · rintro ⟨r, ⟨hr, hstale⟩, rfl⟩
    exact ⟨r, Registry.mem_nodes.1 hr, hstale⟩

theorem crashed_iff {row : JobRow} : m.registry.Crashed (now - cfg.offlineTimeoutSec) row ↔
    row.status = .running ∧ row.lostNode (m.offlineNodes cfg now) = true := by
  simp only [Registry.Crashed, late_iff, JobRow.lostNode, List.any_eq_true, decide_eq_true_eq,
    offlineNodes]
  exact and_congr_right fun _ => exists_congr fun n => and_comm

theorem failedOver_eq {row : JobRow} : row.failedOver offline now =
    if row.lostNode offline then row.restarted now else row := rfl

theorem jobIds_failOverAll (m : Manager) (jobs : List JobRow) :
    (m.failOverAll offline now jobs).registry.jobs.rows.map JobRow.jobId =
      m.registry.jobs.rows.map JobRow.jobId := by
  refine failOverAll_frame (fun m => m.registry.jobs.rows.map JobRow.jobId)
    (fun m job => ?_) m jobs
  unfold failOver
  split_ifs
  · exact Table.map_key_modify _ _ _ fun _ => rfl
  · exact Table.map_key_modify _ _ _ (JobRow.jobId_withStatus .failed none (some 1) now)
  · rfl

theorem jobs_monitorPass (m : Manager) (now : Time) :
    (m.monitorPass cfg now).registry.jobs.rows = m.registry.jobs.rows.map fun row =>
      if m.registry.Crashed (now - cfg.offlineTimeoutSec) row then row.restarted now else row := by
  refine Table.rows_eq_map ?_ fun j => (getJob_monitorPass m j).trans ?_
  · rw [monitorPass_eq]
    exact jobIds_failOverAll m _
  · refine Option.map_congr fun row _ => ?_
    simp only [crashed_iff, failedOver_eq]
    by_cases hrun : row.status = .running <;> simp [hrun]

theorem failOverEntries_eq (m : Manager) (now : Time) :
    failOverEntries (m.offlineNodes cfg now) (m.registry.getJobs .running) =
      (m.registry.jobs.rows.filter fun row => m.registry.Crashed (now - cfg.offlineTimeoutSec) row ∧
        row.retries < row.maxRetries).map fun row => (row.restarted now).toDict := by
  rw [failOverEntries, Registry.getJobs, List.filter_filter]
  have hsame : ∀ row : JobRow, ((row.lostNode (m.offlineNodes cfg now) &&
      decide (row.retries < row.maxRetries)) && decide (row.status = .running)) =
      decide (m.registry.Crashed (now - cfg.offlineTimeoutSec) row ∧
        row.retries < row.maxRetries) := by
    intro row
    rw [Bool.eq_iff_iff]
    simp only [Bool.and_eq_true, decide_eq_true_eq, crashed_iff]
    tauto
  simp only [hsame]
  refine List.map_congr_left fun row hrow => ?_
  -- the entry carries what has been written to the row
  have hlt := (of_decide_eq_true (List.mem_filter.1 hrow).2).2
  rw [JobRow.restarted, if_pos hlt]
  rfl

theorem mark_eq_disconnected (cutoff : Time) :
    NodeRow.mark cutoff = NodeRow.disconnected cutoff := by
  funext r
  by_cases hdown : r.status = .disconnected
  · -- a node that is marked already stays so
    have hsame : ({ r with status := .disconnected } : NodeRow) = r := by rw [← hdown]
    simp [NodeRow.mark, NodeRow.disconnected, NodeRow.isStale, hdown, hsame]
  · simp [NodeRow.mark, NodeRow.disconnected, NodeRow.isStale, hdown]

theorem nodes_monitorPass (m : Manager) (now : Time) :
    (m.monitorPass cfg now).registry.nodes.rows =
      m.registry.nodes.rows.map (NodeRow.disconnected (now - 15)) := by
  have hfail : (m.failOverAll (m.offlineNodes cfg now) now
      (m.registry.getJobs .running)).registry.nodes = m.registry.nodes :=
    (failOverAll_keeps m _).1
  rw [monitorPass_eq]
  -- the nodes are marked twice
  have hrows : ∀ m' : Manager, m'.registry.nodes = m.registry.nodes →
      (m'.markAndCount now).registry.nodes.rows =
        (m.registry.nodes.rows.map (NodeRow.mark (now - 15))).map (NodeRow.mark (now - 15)) := by
    intro m' h
    rw [← h]
    rfl
  rw [hrows _ hfail, List.map_map, ← mark_eq_disconnected]
  exact List.map_congr_left fun r _ => r.mark_mark _

theorem metrics_failOverAll (m : Manager) (jobs : List JobRow) :
    (m.failOverAll offline now jobs).registry.metrics = m.registry.metrics := by
  refine failOverAll_frame (fun m => m.registry.metrics) (fun m job => ?_) m jobs
  unfold failOver
  split_ifs <;> rfl

/-- **A monitor pass from end to end.** -/
theorem monitorPass_outcome (cfg : Setup) (m : Manager) (now : Time) :
    PassMonitors cfg m now (m.monitorPass cfg now) where
  jobs := jobs_monitorPass m now
  queue := by
    rw [← failOverEntries_eq]
    exact (queue_monitorPass m).trans List.perm_append_comm
  nodes := nodes_monitorPass m now
  metrics := by
    rw [monitorPass_eq]
    exact metrics_failOverAll m _
  commandQueues := commandQueues_monitorPass m

end Manager

end Dmlf
