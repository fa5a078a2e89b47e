import Dmlf.Agent.Hardware
import Dmlf.Jobs.RestartOrder
import Dmlf.Registry.Schema
import Dmlf.Table.Aggregate

/-!
# The tables of the dashboard

The dashboard (`dmlf/dashboard.py`) reads the database of the manager and shows two tables: the
nodes, each with the metrics of its heartbeat of the greatest time, and the five jobs with the
greatest times of creation.  It knows of the cluster what the queries return, and nothing else.

* `Conf.generateNodeTable_run` : the nodes that have registered, with what they have sent last.
* `Conf.generateJobsTable_run` : the jobs that have been submitted last.
-/

namespace Dmlf

/-! ### Cells -/

/-- `f"{x:.1f}"`: the nearest number of tenths, the even one of two that are equally near. -/
def formatTenths (x : ℚ) : String :=
  (if x < 0 then "-" else "") ++ printTenths (roundDiv (10 * x.num.natAbs) x.den)

/-- `f"[{color}]{status}[/]"`. -/
def colored (color status : String) : String := "[" ++ color ++ "]" ++ status ++ "[/]"

/-- The color of the state of a node. -/
def NodeState.color : NodeState → String
  | .idle => "green"
  | .training => "yellow"
  | _ => "red"

/-- The color of the status of a job. -/
def JobState.color : JobState → String
  | .pending => "yellow"
  | .running => "cyan"
  | .completed => "green"
  | .failed => "red"

/-- The cells of a node; metrics that are `NULL` are shown as zero. -/
def nodeLine (nodeId ipAddress : String) (status : NodeState) (metrics : Option MetricRow) :
    List String :=
  let cell (f : MetricRow → ℚ) := formatTenths ((metrics.map f).getD 0)
  [nodeId, ipAddress, colored status.color status.text, cell MetricRow.cpuPercent ++ "%",
    cell MetricRow.ramPercent ++ "%", cell MetricRow.gpuUtilization ++ "%",
    cell MetricRow.heartbeatLatencyMs ++ "ms"]

/-- The cells of a job. -/
def jobLine (jobId : String) (requiredNodes : ℤ) (status : JobState) : List String :=
  [jobId, toString requiredNodes, colored status.color status.text]

example : nodeLine "node-1" "10.0.0.1" .idle (some ⟨"node-1", 0, 5 / 4, 351 / 20, 0, 0, 3⟩) =
    ["node-1", "10.0.0.1", "[green]IDLE[/]", "1.2%", "17.6%", "0.0%", "3.0ms"] := by
  decide +kernel

/-! ### Tables -/

/-- A table as it is handed to the console. -/
structure TextTable where
  title : String
  columns : List String
  rows : List (List String)

namespace Registry

variable (reg : Registry)

/-- The query of `generate_node_table`. -/
def nodesWithMetrics : List (NodeRow × Option MetricRow) :=
  leftJoin (fun n m => m.nodeId = n.nodeId) reg.nodes.rows
    (groupMax MetricRow.nodeId MetricRow.timestamp reg.metrics)

/-- The query of `generate_jobs_table`. -/
def latestJobs : List JobRow := (orderByDesc JobRow.createdAt reg.jobs.rows).take 5

end Registry

/-- `generate_node_table`; the database may be out of reach. -/
def generateNodeTable (db : Option Registry) : TextTable where
  title := "Cluster Status"
  columns := ["Node ID", "IP Address", "State", "CPU %", "RAM %", "GPU %", "Latency (ms)"]
  rows :=
    match db with
    | none => [["Error reading DB", "", "", "", "", "", ""]]
    | some reg => reg.nodesWithMetrics.map fun (n, m) => nodeLine n.nodeId n.ipAddress n.status m

/-- `generate_jobs_table`; the database may be out of reach. -/
def generateJobsTable (db : Option Registry) : TextTable where
  title := "Jobs"
  columns := ["Job ID", "Nodes", "Status"]
  rows :=
    match db with
    | none => [["Error reading DB", "", ""]]
    | some reg => reg.latestJobs.map fun row => jobLine row.jobId row.requiredNodes row.status

/-! ### What the calls of a run add to the database -/

namespace Label

/-- The node that a call registers, with its address. -/
def registration : Label → Option (String × String)
  | .registerNode nodeId _ req _ => some (nodeId, req.ipAddress)
  | _ => none

/-- The metrics that a call writes. -/
def report : Label → Option MetricRow
  | .sendHeartbeat req now =>
    some ⟨req.nodeId, now, req.metrics.cpuPercent, req.metrics.ramPercent,
      req.metrics.gpuUtilization, req.metrics.gpuMemoryMb,
      if 0 < req.sendTimestamp then (now - req.sendTimestamp) * 1000 else 0⟩
  | _ => none

/-- The job that a call submits, with the number of its nodes. -/
def submission : Label → Option (String × ℤ)
  | .submitJob jobId req _ => some (jobId, req.nnodes)
  | _ => none

end Label

namespace Registry

variable {reg reg' : Registry}

/-- The nodes with their addresses. -/
def addresses (reg : Registry) : List (String × String) :=
  reg.nodes.rows.map fun r => (r.nodeId, r.ipAddress)

/-- The jobs with the numbers of their nodes. -/
def requirements (reg : Registry) : List (String × ℤ) :=
  reg.jobs.rows.map fun r => (r.jobId, r.requiredNodes)

/-- The write leaves the metrics, the nodes and their addresses alone. -/
def KeepsReports (reg reg' : Registry) : Prop :=
  reg'.metrics = reg.metrics ∧ reg'.addresses = reg.addresses

theorem KeepsReports.refl (reg : Registry) : reg.KeepsReports reg := ⟨rfl, rfl⟩

theorem addresses_updateNodes (p : NodeRow → Bool) {f : NodeRow → NodeRow} (hf)
    (hip : ∀ r, ((f r).nodeId, (f r).ipAddress) = (r.nodeId, r.ipAddress)) :
    (reg.updateNodes p f hf).addresses = reg.addresses :=
  Table.map_key_modify reg.nodes.rows p f hip

theorem addresses_updateHeartbeat (n s metrics latency now) :
    (reg.updateHeartbeat n s metrics latency now).addresses = reg.addresses :=
  addresses_updateNodes (fun r => r.nodeId = n)
    (f := fun r => { r with lastHeartbeat := now, status := s }) (fun _ => rfl) fun _ => rfl

theorem keepsReports_updateNodes (p : NodeRow → Bool) {f : NodeRow → NodeRow} (hf)
    (hip : ∀ r, ((f r).nodeId, (f r).ipAddress) = (r.nodeId, r.ipAddress)) :
    reg.KeepsReports (reg.updateNodes p f hf) :=
  ⟨rfl, addresses_updateNodes p hf hip⟩

theorem addresses_registerNode {n : String} (hnew : (reg.getNode n).isNone) (h ip c g ram sec now) :
    (reg.registerNode n h ip c g ram sec now).addresses = reg.addresses ++ [(n, ip)] ∧
      (reg.registerNode n h ip c g ram sec now).metrics = reg.metrics := by
  have hno : n ∉ reg.nodes.rows.map NodeRow.nodeId :=
    Table.find?_eq_none_iff.1 (Option.isNone_iff_eq_none.1 hnew)
  unfold registerNode
  dsimp only
  rw [Table.insert?, dif_pos hno]
  simp [addresses]

end Registry

theorem Task.keepsReports_step (cfg : Setup) (now : Time) (m : Manager) (t : Task) :
    m.registry.KeepsReports (t.step cfg now m).1.registry := by
  have hset : ∀ n s, m.registry.KeepsReports (m.updateNodeState n s).registry := fun n s =>
    Registry.keepsReports_updateNodes _ _ fun _ => rfl
  have hmark : ∀ timeout, m.registry.KeepsReports (m.registry.markOfflineNodes now timeout) :=
    fun timeout => Registry.keepsReports_updateNodes _ _ fun _ => rfl
  cases t with
  | registerQueue | submitAppend | retryWrite | retryAppend | failWrite | schedRequeue | monJobs
    | monAppend => exact .refl _
  | retrySetIdle req job => exact hset req.nodeId .idle
  | closedSetIdle req =>
    simp only [step]
    split_ifs <;> exact hset req.nodeId .idle
  | schedSelect | monCount => exact hmark defaultTimeoutSeconds
  | schedReserve job nodes todo =>
    cases todo with
    | nil => exact .refl _
    | cons node todo => exact hset node.nodeId .reserved
  | schedSend job masterAddr todo =>
    cases todo with
    | nil => exact .refl _
    | cons x todo =>
      simp only [step, (m.sendCommand_keeps x.1.nodeId _).1]
      exact .refl _
  | monLoop offline jobs =>
    cases jobs with
    | nil => exact hmark defaultTimeoutSeconds
    | cons job jobs =>
      simp only [step]
      split_ifs <;> exact .refl _

namespace Conf

variable {cfg : Setup} {c c' : Conf} {l : Label}

theorem reports_step (hst : exec cfg c l = some c') :
    c'.mgr.registry.metrics = c.mgr.registry.metrics ++ l.report.toList ∧
      c'.mgr.registry.addresses = c.mgr.registry.addresses ++ l.registration.toList := by
  have hquiet : c.mgr.registry.KeepsReports c'.mgr.registry → l.report = none →
      l.registration = none → c'.mgr.registry.metrics = c.mgr.registry.metrics ++ l.report.toList ∧
        c'.mgr.registry.addresses = c.mgr.registry.addresses ++ l.registration.toList := by
    rintro ⟨hm, ha⟩ hreport hregistration
    rw [hreport, hregistration, hm, ha]
    exact ⟨(List.append_nil _).symm, (List.append_nil _).symm⟩
  cases call hst with
  | first hbegun =>
    cases hbegun with
    | registerNode hnew =>
      obtain ⟨ha, hm⟩ := Registry.addresses_registerNode hnew ..
      exact ⟨hm.trans (List.append_nil _).symm, ha⟩
    | sendHeartbeat =>
      exact ⟨rfl, (Registry.addresses_updateHeartbeat ..).trans (List.append_nil _).symm⟩
    | submitJob hreg =>
      obtain ⟨hnodes, hmetrics⟩ := Registry.nodes_insertJob hreg
      have haddresses := congrArg (fun t : Table NodeRow.nodeId =>
        t.rows.map fun r => (r.nodeId, r.ipAddress)) hnodes
      exact hquiet ⟨hmetrics, haddresses⟩ rfl rfl
    | probe => exact hquiet (Registry.keepsReports_updateNodes _ _ fun _ => rfl) rfl rfl
    | listenForCommands | takeCommand | reportIgnored | reportRetry | reportFail | reportCompleted
      | noJob | popJob | noneOffline | someOffline => exact hquiet (.refl _) rfl rfl
  | restart => exact hquiet (.refl _) rfl rfl
  | next hi => exact hquiet (Task.keepsReports_step ..) rfl rfl

theorem requirements_step (hst : exec cfg c l = some c') :
    c'.mgr.registry.requirements = c.mgr.registry.requirements ++ l.submission.toList := by
  by_cases hl : ∃ j req now, l = .submitJob j req now
  · obtain ⟨j, req, now, rfl⟩ := hl
    cases call hst with
    | first hbegun =>
      cases hbegun with
      | submitJob hreg =>
        obtain ⟨jobs, hjobs, rfl⟩ := Option.map_eq_some_iff.1 hreg
        simp [spawn, Registry.requirements, (Table.rows_insert? hjobs).1, Label.submission,
          JobDict.toRow, JobSubmitRequest.toDict]
  · have hnone : l.submission = none := by
      cases l with
      | submitJob jobId req now => exact absurd ⟨jobId, req, now, rfl⟩ hl
      | _ => rfl
    have hrows := (jobsUpdate hst fun j req now h => hl ⟨j, req, now, h⟩).map_rows
      JobRow.fixed_required
    rw [hnone, Option.toList_none, List.append_nil]
    exact hrows

/-! ### The jobs -/

/-- The jobs that have been submitted in a run, with the numbers of their nodes. -/
def submissions (tr : List (Label × Conf)) : List (String × ℤ) :=
  tr.filterMap fun x => x.1.submission

/-- **The jobs that have been submitted last.**  In a run in which the clock advances between two
submissions, the dashboard shows the last five jobs, the latest one first, each with the number of
nodes that it has been submitted with and the status that it has now. -/
theorem generateJobsTable_run {tr : List (Label × Conf)} (h : (fine cfg).Run (start .empty) tr)
    (hclock : LTS.StepsMeet ClockAdvances (start .empty) tr) :
    let reg := (LTS.last (start .empty) tr).mgr.registry
    List.Forall₂ (fun job line => ∃ row, reg.getJob job.1 = some row ∧
        line = jobLine job.1 job.2 row.status)
      ((submissions tr).reverse.take 5) (generateJobsTable (some reg)).rows := by
  intro reg
  have hdated : reg.Dated := (h.restrict hclock).reachable.keeps
    (I := fun c : Conf => c.mgr.registry.Dated) (fun _ _ _ hst hd => dated_step hd hst.1 hst.2)
    Registry.dated_empty
  have hjobs : submissions tr = reg.requirements :=
    (h.log (f := fun c => c.mgr.registry.requirements) fun _ _ _ hst => requirements_step hst).symm
  have hlatest : reg.latestJobs = reg.jobs.rows.reverse.take 5 := by
    rw [Registry.latestJobs, orderByDesc_of_increasing hdated.increasing]
  rw [hjobs, Registry.requirements, ← List.map_reverse, ← List.map_take]
  simp only [generateJobsTable, hlatest]
  rw [List.forall₂_map_left_iff, List.forall₂_map_right_iff, List.forall₂_same]
  intro row hrow
  have hmem : row ∈ reg.jobs.rows := List.mem_reverse.1 (List.mem_of_mem_take hrow)
  exact ⟨row, Table.find?_of_mem hmem, rfl⟩

/-- Six jobs are submitted, and the dashboard shows the last five. -/
theorem generateJobsTable_run_sixJobs :
    let tr := LTS.runOf (exec Sample.setup) (start .empty) ((List.range 6).map fun i =>
      .submitJob ("job-" ++ i.repr) (Sample.job i 1) (100 + i))
    let reg := (LTS.last (start .empty) tr).mgr.registry
    (submissions tr).length = 6 ∧
      List.Forall₂ (fun job line => ∃ row, reg.getJob job.1 = some row ∧
          line = jobLine job.1 job.2 row.status)
        ((submissions tr).reverse.take 5) (generateJobsTable (some reg)).rows :=
  ⟨by decide +kernel, generateJobsTable_run (LTS.run_runOf (exec Sample.setup) _ _)
    (by decide +kernel)⟩

/-! ### The nodes -/

/-- The clock has advanced since the last heartbeat of the node. -/
def HeartbeatsAdvance (c : Conf) : Label → Prop
  | .sendHeartbeat req now =>
    ∀ row ∈ c.mgr.registry.metrics, row.nodeId = req.nodeId → row.timestamp < now
  | _ => True

/-- The metrics of each node are in the order of their times. -/
def MetricsInOrder (c : Conf) : Prop :=
  ∀ n, ((c.mgr.registry.metrics.filter fun m => m.nodeId = n).map MetricRow.timestamp).Pairwise
    (· < ·)

theorem MetricsInOrder.step (h : c.MetricsInOrder) (hl : c.HeartbeatsAdvance l)
    (hst : exec cfg c l = some c') : c'.MetricsInOrder := by
  intro n
  rw [(reports_step hst).1, List.filter_append, List.map_append, List.pairwise_append]
  refine ⟨h n, ?_, fun t ht t' ht' => ?_⟩
  · cases l.report with
    | none => exact .nil
    | some m => exact (List.pairwise_singleton _ m.timestamp).sublist (List.filter_sublist.map _)
  · obtain ⟨row, hrow, rfl⟩ := List.mem_map.1 ht
    obtain ⟨row', hrow', rfl⟩ := List.mem_map.1 ht'
    obtain ⟨hrow, hn⟩ := List.mem_filter.1 hrow
    obtain ⟨hrow', hn'⟩ := List.mem_filter.1 hrow'
    cases l with
    | sendHeartbeat req now =>
      obtain rfl := Option.some.inj (Option.mem_toList.1 hrow')
      exact hl row hrow ((of_decide_eq_true hn).trans (of_decide_eq_true hn').symm)
    | _ => cases hrow'

/-- The nodes that have registered in a run, with their addresses. -/
def registrations (tr : List (Label × Conf)) : List (String × String) :=
  tr.filterMap fun x => x.1.registration

/-- The metrics in the last heartbeat of a node in a run. -/
def lastHeartbeat (tr : List (Label × Conf)) (n : String) : Option MetricRow :=
  ((tr.filterMap fun x => x.1.report).filter fun m => m.nodeId = n).getLast?

/-- **The nodes and what they have sent last.**  In a run in which the clock advances between two
heartbeats of a node, the dashboard shows the nodes that have registered, in this order, each with
the address that it has registered with, the status that it has now, and the metrics of the last
one of its heartbeats. -/
theorem generateNodeTable_run {tr : List (Label × Conf)} (h : (fine cfg).Run (start .empty) tr)
    (hclock : LTS.StepsMeet HeartbeatsAdvance (start .empty) tr) :
    let reg := (LTS.last (start .empty) tr).mgr.registry
    List.Forall₂ (fun node line => ∃ row, reg.getNode node.1 = some row ∧
        line = nodeLine node.1 node.2 row.status (lastHeartbeat tr node.1))
      (registrations tr) (generateNodeTable (some reg)).rows := by
  intro reg
  have horder : (LTS.last (start .empty) tr).MetricsInOrder := (h.restrict hclock).reachable.keeps
    (fun _ _ _ hst ho => ho.step hst.1 hst.2) fun _ => .nil
  have hnodes : registrations tr = reg.addresses :=
    (h.log (f := fun c => c.mgr.registry.addresses) fun _ _ _ hst => (reports_step hst).2).symm
  have hmetrics : tr.filterMap (fun x => x.1.report) = reg.metrics :=
    (h.log (f := fun c => c.mgr.registry.metrics) fun _ _ _ hst => (reports_step hst).1).symm
  have hjoin : reg.nodesWithMetrics =
      reg.nodes.rows.map fun r => (r, lastHeartbeat tr r.nodeId) := by
    rw [Registry.nodesWithMetrics, leftJoin_groupMax]
    refine List.map_congr_left fun r _ => ?_
    rw [argmax_of_increasing (horder r.nodeId), lastHeartbeat, hmetrics]
  simp only [generateNodeTable, hjoin, List.map_map]
  rw [hnodes, Registry.addresses, List.forall₂_map_left_iff, List.forall₂_map_right_iff,
    List.forall₂_same]
  intro row hrow
  exact ⟨row, Table.find?_of_mem hrow, rfl⟩

instance (c : Conf) : DecidablePred c.HeartbeatsAdvance
  | .sendHeartbeat req now => inferInstanceAs (Decidable (∀ row ∈ c.mgr.registry.metrics,
    row.nodeId = req.nodeId → row.timestamp < now))
  | .registerNode .. | .listenForCommands .. | .takeCommand .. | .reportJobStatus ..
  | .submitJob .. | .schedulerPass .. | .monitorPass .. | .probe .. | .restart | .runTask .. =>
    .isTrue trivial

end Conf

namespace Sample

/-- Two nodes join, and one of them sends two heartbeats. -/
def twoHeartbeats : List Label :=
  [.registerNode "node-1" "secret-1" node 100, .registerNode "node-2" "secret-2" node 100,
    .sendHeartbeat ⟨"node-1", ⟨5, 20, 0, 0⟩, "IDLE", 105⟩ 105,
    .sendHeartbeat ⟨"node-1", ⟨95, 40, 0, 0⟩, "TRAINING", 110⟩ 110]

end Sample

namespace Conf

/-- The dashboard shows the second heartbeat of the one node, and zeros for the other one. -/
theorem generateNodeTable_run_twoHeartbeats :
    let tr := LTS.runOf (exec Sample.setup) (start .empty) Sample.twoHeartbeats
    let reg := (LTS.last (start .empty) tr).mgr.registry
    ((lastHeartbeat tr "node-1").any fun m => m.cpuPercent = 95) = true ∧
      List.Forall₂ (fun node line => ∃ row, reg.getNode node.1 = some row ∧
          line = nodeLine node.1 node.2 row.status (lastHeartbeat tr node.1))
        (registrations tr) (generateNodeTable (some reg)).rows :=
  ⟨by decide +kernel, generateNodeTable_run (LTS.run_runOf (exec Sample.setup) _ _)
    (by decide +kernel)⟩

end Conf

end Dmlf
