import Dmlf.Jobs.Duplicates
import Dmlf.Jobs.MonitorPass

/-!
# The gauge of running jobs

`JOBS_RUNNING` goes up by one with every dispatch and down by one with every completion report,
whatever the row of the job says.  No failure report and no monitor pass touches it.

* `Manager.excess` : what the gauge says beyond the number of rows that run.
* `Manager.excess_perform` : how much a handler or a pass adds to it.
* `Manager.runningExact_iff` : the gauge is exact in a run, exactly if all its steps that move a
  row out of `RUNNING` are the first completion reports of their jobs, and no job is dispatched
  while it runs.
-/

namespace Dmlf

namespace Registry

variable {reg : Registry} {j : String}

/-- Job `j` runs. -/
def Runs (reg : Registry) (j : String) : Prop := ∃ row ∈ reg.getJob j, row.status = .running

instance (reg : Registry) (j : String) : Decidable (reg.Runs j) :=
  inferInstanceAs (Decidable (∃ row ∈ reg.getJob j, row.status = .running))

/-- The number of rows that run. -/
def runningCount (reg : Registry) : ℤ := (reg.getJobs .running).length

theorem runningCount_eq_countP (reg : Registry) :
    reg.runningCount = reg.jobs.rows.countP fun row => row.status = .running := by
  rw [runningCount, getJobs, List.countP_eq_length_filter]

theorem runningCount_congr {reg' : Registry} (h : reg'.jobs = reg.jobs) :
    reg'.runningCount = reg.runningCount := by
  rw [runningCount, getJobs, h]
  rfl

theorem runs_iff {row : JobRow} (h : reg.getJob j = some row) :
    reg.Runs j ↔ row.status = .running := by
  simp [Runs, h]

theorem runningCount_updateJob {f : JobRow → JobRow} (hf) {row : JobRow}
    (hrow : reg.getJob j = some row) : (reg.updateJob j f hf).runningCount =
      reg.runningCount + (if (f row).status = .running then 1 else 0) -
        if row.status = .running then 1 else 0 := by
  have hcount := Table.countP_modify hrow hf fun row => decide (row.status = .running)
  have hjobs : (reg.updateJob j f hf).jobs = reg.jobs.modify (fun r => r.jobId = j) f hf := rfl
  rw [runningCount_eq_countP, runningCount_eq_countP, hjobs]
  simp only [decide_eq_true_eq] at hcount ⊢
  split_ifs at hcount ⊢ <;> omega

theorem runningCount_stop {f : JobRow → JobRow} (hf) (hstop : ∀ row, (f row).status ≠ .running) :
    (reg.updateJob j f hf).runningCount = reg.runningCount - if reg.Runs j then 1 else 0 := by
  cases hj : reg.getJob j with
  | none =>
    -- there is no row to write
    have hrows : (reg.updateJob j f hf).jobs.rows = reg.jobs.rows := by
      refine (List.map_congr_left (g := id) fun row hrow => ?_).trans (List.map_id _)
      have hne : row.jobId ≠ j := by
        rintro rfl
        exact Table.find?_eq_none_iff.1 hj (List.mem_map_of_mem hrow)
      exact if_neg (by simpa using hne)
    have hnot : ¬ reg.Runs j := by simp [Runs, hj]
    rw [runningCount_congr (Table.ext hrows), if_neg hnot, sub_zero]
  | some row =>
    rw [runningCount_updateJob hf hj, if_neg (hstop row), add_zero]
    simp only [runs_iff hj]

theorem runningCount_start {nodes : Option (List String)} {now : Time} (h : reg.Knows j) :
    (reg.updateJobStatus j .running nodes none now).runningCount =
      reg.runningCount + 1 - if reg.Runs j then 1 else 0 := by
  obtain ⟨row, hrow⟩ := h
  have hstart : (row.withStatus .running nodes none now).status = .running := rfl
  rw [updateJobStatus, runningCount_updateJob _ hrow, hstart, if_pos rfl]
  simp only [runs_iff hrow]

end Registry

namespace Manager

variable {cfg : Setup} {m m' : Manager} {now : Time} {l : Label}

/-- What the gauge says beyond the number of rows that run. -/
def excess (m : Manager) : ℤ := m.gauges.jobsRunning - m.registry.runningCount

/-- The gauge is the number of rows that run, and not negative. -/
def RunningExact (m : Manager) : Prop :=
  m.gauges.jobsRunning = (m.registry.getJobs .running).length ∧ 0 ≤ m.gauges.jobsRunning

instance : DecidablePred RunningExact := fun m =>
  inferInstanceAs (Decidable (m.gauges.jobsRunning = (m.registry.getJobs .running).length ∧
    0 ≤ m.gauges.jobsRunning))

theorem runningExact_iff_excess : m.RunningExact ↔ m.excess = 0 := by
  unfold RunningExact excess Registry.runningCount
  omega

/-- What a handler or a pass other than a restart adds to the excess of the gauge. -/
def drift (cfg : Setup) (m : Manager) : Label → ℤ
  | .reportJobStatus req _ =>
    if req.isFailure then if m.registry.Runs req.jobId then 1 else 0
    else if req.isCompletion then if m.registry.Runs req.jobId then 0 else -1
    else 0
  | .schedulerPass now =>
    if (m.dispatches cfg (.schedulerPass now)).any fun d => m.registry.Runs d.1 then 1 else 0
  | .monitorPass now =>
    (m.registry.getJobs .running).countP fun row => row.lostNode (m.offlineNodes cfg now)
  | _ => 0

theorem excess_reportJobStatus (m : Manager) (req : JobStatusRequest) (now : Time) :
    (m.reportJobStatus req now).excess = m.excess + m.drift cfg (.reportJobStatus req now) := by
  have heff := reportEffect m req now
  generalize m.reportJobStatus req now = m' at heff
  cases heff with
  | ignored hf hc => simp [drift, hf, hc]
  | unknown hf hj => simp [drift, hf, Registry.Runs, hj]
  | retried job hf hj hlt =>
    have hid := Registry.jobId_of_getJob hj
    simp only [drift, hf, if_true, ← hid]
    show m.gauges.jobsRunning - (m.registry.updateJob job.jobId
      (fun r => { r with status := .pending, retries := job.retries + 1 }) _).runningCount = _
    rw [Registry.runningCount_stop _ fun _ => JobState.noConfusion, excess]
    omega
  | failed job hf hj hlt =>
    have hid := JobRow.jobId_withStatus .failed none (some 1) now
    simp only [drift, hf, if_true]
    show m.gauges.jobsRunning - (m.registry.updateJob req.jobId
      (JobRow.withStatus .failed none (some 1) now) hid).runningCount = _
    rw [Registry.runningCount_stop hid fun _ => JobState.noConfusion, excess]
    omega
  | completed hf hc =>
    have hid := JobRow.jobId_withStatus .completed none (some 0) now
    simp only [drift, hf, hc, Bool.false_eq_true, if_false, if_true]
    show m.gauges.jobsRunning - 1 - (m.registry.updateJob req.jobId
      (JobRow.withStatus .completed none (some 0) now) hid).runningCount = _
    rw [Registry.runningCount_stop hid fun _ => JobState.noConfusion, excess]
    split_ifs <;> omega

theorem gauges_sendCommand (m : Manager) (n : String) (command : Command) :
    (m.sendCommand n command).gauges = m.gauges := by
  unfold sendCommand
  split <;> rfl

theorem gauges_sendCommands (m : Manager) (job : JobDict) (masterAddr : String)
    (nodes : List (NodeRow × ℕ)) :
    (m.sendCommands cfg job masterAddr nodes).gauges = m.gauges := by
  induction nodes generalizing m with
  | nil => rfl
  | cons x nodes ih => exact (ih _).trans (m.gauges_sendCommand x.1.nodeId _)

theorem excess_schedulerPass (hw : (⟨m, []⟩ : Conf).WellFormed) (now : Time) :
    (m.schedulerPass cfg now).excess = m.excess + m.drift cfg (.schedulerPass now) := by
  have heff := passEffect cfg m now
  generalize m.schedulerPass cfg now = m' at heff
  cases heff with
  | noJob hq => simp [drift, dispatches, hq]
  | requeued job queue hq hnone =>
    have hd : m.dispatches cfg (.schedulerPass now) = none := by simp [dispatches, hq, hnone]
    simp only [drift, hd, Option.any_none, Bool.false_eq_true, if_false, add_zero]
    rfl
  | dispatched job queue hq hsome =>
    have hd : m.dispatches cfg (.schedulerPass now) =
        some (job.jobId, (m.selectNodes cfg job now).map NodeRow.nodeId) := by
      simp [dispatches, hq, hsome]
    have hjob : m.registry.Knows job.jobId := hw.queue job (hq ▸ List.mem_cons_self)
    have hgauge : (((m.popTopJob queue now).reserveNodes
        (m.selectNodes cfg job now)).dispatchAllocatedJob cfg job (m.selectNodes cfg job now)
        now).gauges.jobsRunning = m.gauges.jobsRunning + 1 := by
      rw [dispatchAllocatedJob_eq, gauges_sendCommands, reserveNodes_eq]
      rfl
    rw [excess, hgauge, Registry.runningCount_congr (jobs_dispatch m queue job _),
      Registry.runningCount_start hjob, excess]
    simp only [drift, hd, Option.any_some, decide_eq_true_eq]
    split_ifs <;> omega

theorem runningCount_monitorPass (m : Manager) (now : Time) :
    (m.monitorPass cfg now).registry.runningCount =
      m.registry.runningCount - m.drift cfg (.monitorPass now) := by
  have hstill : ∀ row : JobRow,
      decide ((if m.registry.Crashed (now - cfg.offlineTimeoutSec) row then row.restarted now
        else row).status = .running) =
      (decide (row.status = .running) && !row.lostNode (m.offlineNodes cfg now)) := by
    intro row
    by_cases hrun : row.status = .running
    · by_cases hlost : row.lostNode (m.offlineNodes cfg now) = true
      · rw [if_pos (crashed_iff.2 ⟨hrun, hlost⟩), JobRow.restarted]
        split_ifs <;> simp [hlost]
      · rw [if_neg fun h => hlost (crashed_iff.1 h).2]
        simp [hrun, hlost]
    · rw [if_neg fun h => hrun (crashed_iff.1 h).1]
      simp [hrun]
  have hsplit := List.countP_eq_countP_filter_add m.registry.jobs.rows
    (fun row => decide (row.status = .running)) fun row => row.lostNode (m.offlineNodes cfg now)
  rw [Registry.runningCount_eq_countP, Registry.runningCount_eq_countP, jobs_monitorPass,
    List.countP_map]
  simp only [Function.comp_def, hstill, drift, Registry.getJobs, List.countP_filter] at hsplit ⊢
  simp only [Bool.and_comm (decide _)] at hsplit ⊢
  omega

theorem gauges_failOverAll (m : Manager) (offline : List String) (now : Time)
    (jobs : List JobRow) : (m.failOverAll offline now jobs).gauges = m.gauges := by
  refine failOverAll_frame Manager.gauges (fun m job => ?_) m jobs
  unfold failOver
  split_ifs <;> rfl

theorem excess_monitorPass (m : Manager) (now : Time) :
    (m.monitorPass cfg now).excess = m.excess + m.drift cfg (.monitorPass now) := by
  have hgauge : (m.monitorPass cfg now).gauges.jobsRunning = m.gauges.jobsRunning := by
    rw [monitorPass_eq]
    show (m.failOverAll (m.offlineNodes cfg now) now
      (m.registry.getJobs .running)).gauges.jobsRunning = _
    rw [gauges_failOverAll]
  rw [excess, hgauge, runningCount_monitorPass, excess]
  omega

theorem runningCount_insertJob {reg reg' : Registry} {job : JobDict}
    (h : reg.insertJob job now = some reg') (hjob : job.status ≠ .running) :
    reg'.runningCount = reg.runningCount := by
  obtain ⟨jobs, hjobs, rfl⟩ := Option.map_eq_some_iff.1 h
  have hnot : ¬ (job.toRow now).status = .running := hjob
  rw [Registry.runningCount_eq_countP, Registry.runningCount_eq_countP,
    (Table.rows_insert? hjobs).1, List.countP_append, List.countP_singleton]
  simp [hnot]

/-- **What a handler or a pass does to the excess of the gauge.** -/
theorem excess_perform (hw : (⟨m, []⟩ : Conf).WellFormed) (hst : m.perform cfg l = some m')
    (hl : l ≠ .restart) : m'.excess = m.excess + m.drift cfg l := by
  cases l with
  | reportJobStatus req now =>
    obtain rfl := Option.some.inj hst
    exact excess_reportJobStatus m req now
  | schedulerPass now => obtain rfl := Option.some.inj hst; exact excess_schedulerPass hw now
  | monitorPass now => obtain rfl := Option.some.inj hst; exact excess_monitorPass m now
  | submitJob jobId req now =>
    obtain ⟨m₁, hm₁, rfl⟩ := Option.map_eq_some_iff.1 hst
    obtain ⟨reg, hreg, rfl⟩ := Option.map_eq_some_iff.1 hm₁
    have hcount : reg.runningCount = m.registry.runningCount :=
      runningCount_insertJob hreg JobState.noConfusion
    show m.gauges.jobsRunning - reg.runningCount = m.excess + 0
    rw [hcount, excess, add_zero]
  | registerNode nodeId nodeSecret req now =>
    obtain ⟨-, hm⟩ := Option.ite_none_right_eq_some.1 hst
    obtain rfl := Option.some.inj hm
    have hjobs : (m.registerNode nodeId nodeSecret req now).registry.jobs = m.registry.jobs :=
      Registry.jobs_registerNode ..
    rw [excess, Registry.runningCount_congr hjobs]
    exact (add_zero _).symm
  | listenForCommands nodeId =>
    obtain ⟨queues, rfl⟩ := perform_listenForCommands hst
    exact (add_zero _).symm
  | takeCommand nodeId =>
    obtain ⟨queues, rfl⟩ := perform_takeCommand hst
    exact (add_zero _).symm
  | sendHeartbeat | probe => obtain rfl := Option.some.inj hst; exact (add_zero _).symm
  | restart => exact absurd rfl hl
  | runTask => cases hst

/-- A step after which the gauge still counts the rows: a completion report is about a job that
runs and a failure report about one that does not, a job that is dispatched does not run, the
monitor finds no running job without its nodes, and no job runs at a restart. -/
def CountsRuns (cfg : Setup) (m : Manager) : Label → Prop
  | .reportJobStatus req _ => (req.isFailure = true → ¬ m.registry.Runs req.jobId) ∧
    (req.isCompletion = true → m.registry.Runs req.jobId)
  | .schedulerPass now => ∀ d ∈ m.dispatches cfg (.schedulerPass now), ¬ m.registry.Runs d.1
  | .monitorPass now => ∀ row ∈ m.registry.getJobs .running,
    row.lostNode (m.offlineNodes cfg now) = false
  | .restart => m.registry.getJobs .running = []
  | _ => True

theorem drift_eq_zero_iff (hl : l ≠ .restart) : m.drift cfg l = 0 ↔ m.CountsRuns cfg l := by
  cases l with
  | reportJobStatus req now =>
    simp only [drift, CountsRuns]
    by_cases hf : req.isFailure = true
    · simp [hf, JobStatusRequest.isCompletion_of_isFailure hf]
    · by_cases hc : req.isCompletion = true <;> simp [hf, hc]
  | schedulerPass now =>
    simp only [drift, CountsRuns]
    cases m.dispatches cfg (.schedulerPass now) <;> simp
  | monitorPass now => simp [drift, CountsRuns, List.countP_eq_zero]
  | restart => exact absurd rfl hl
  | registerNode | sendHeartbeat | listenForCommands | takeCommand | submitJob | probe | runTask =>
    exact iff_of_true rfl trivial

/-- From an exact gauge a step leads to an exact gauge exactly if it counts the rows. -/
theorem runningExact_step (hw : (⟨m, []⟩ : Conf).WellFormed) (h : m.RunningExact)
    (hst : m.perform cfg l = some m') : m'.RunningExact ↔ m.CountsRuns cfg l := by
  rw [runningExact_iff_excess] at h ⊢
  by_cases hl : l = .restart
  · subst hl
    obtain rfl := Option.some.inj hst
    show (0 : ℤ) - (m.registry.getJobs .running).length = 0 ↔ m.registry.getJobs .running = []
    rw [← List.length_eq_zero_iff]
    omega
  · rw [excess_perform hw hst hl, h, zero_add, drift_eq_zero_iff hl]

/-- **The gauge of running jobs is exact, exactly if every report and every pass counts the
rows.** -/
theorem runningExact_iff {tr : List (Label × Manager)}
    (h : (serial cfg).Run (serve .empty []) tr) :
    LTS.StatesMeet RunningExact (serve .empty []) tr ↔
      LTS.StepsMeet (CountsRuns cfg) (serve .empty []) tr :=
  h.statesMeet_iff_stepsMeet preserves_sound
    (fun _ _ _ hs hI hst => runningExact_step hs.1 hI hst) (sound_serve .empty)
    ⟨rfl, le_rfl⟩

/-- A job for two nodes, which both report its completion. -/
def Sample.completedByBoth : List Label :=
  [.registerNode "node-1" "secret-1" Sample.node 100,
    .registerNode "node-2" "secret-2" Sample.node 100, .submitJob "job-1" (Sample.job 2 1) 101,
    .schedulerPass 102, .reportJobStatus ⟨"node-1", "job-1", "completed"⟩ 103,
    .reportJobStatus ⟨"node-2", "job-1", "completed"⟩ 104]

theorem runningExact_iff_completed :
    LTS.StatesMeet RunningExact (serve .empty []) (LTS.runOf (perform Sample.setup)
      (serve .empty []) (Sample.completedByBoth.take 5)) ↔
    LTS.StepsMeet (CountsRuns Sample.setup) (serve .empty []) (LTS.runOf (perform Sample.setup)
      (serve .empty []) (Sample.completedByBoth.take 5)) :=
  runningExact_iff (LTS.run_runOf _ _ _)

/-- The second completion report takes the gauge below zero. -/
theorem runningExact_fails :
    ¬ ∀ (cfg : Setup) (tr : List (Label × Manager)), (serial cfg).Run (serve .empty []) tr →
      (∀ e ∈ tr, e.1.isRestart = false) → LTS.StatesMeet RunningExact (serve .empty []) tr := by
  intro hall
  have hrun := LTS.run_runOf (perform Sample.setup) (serve .empty []) Sample.completedByBoth
  exact absurd (hall Sample.setup _ hrun (by decide +kernel)) (by decide +kernel)

end Manager

end Dmlf
