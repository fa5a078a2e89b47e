import Dmlf.Table.Basic
import Mathlib.Algebra.Order.Field.Rat

/-!
# The node registry

`NodeRegistry` (`dmlf/manager/node_registry.py`) keeps three SQLite tables: the nodes, the jobs
and the metrics.  Each of its methods is one transaction, and so one function here.  A method
that reads the clock takes the reading `now`.

The columns hold what SQLite stores: times are exact rationals, `NULL` is `none`, and
`assigned_nodes`, a JSON list of node ids in the source, is the list itself.
-/

namespace Dmlf

/-- A reading of `time.time()`, in seconds. -/
abbrev Time := ℚ

/-- The texts of the constants of `NodeState`. -/
def nodeStateTexts : List String :=
  ["REGISTERING", "IDLE", "RESERVED", "TRAINING", "BUSY", "MAINTENANCE", "DISCONNECTED", "FAILED"]

/-- The `status` column of a node. -/
inductive NodeState where
  | registering
  | idle
  | reserved
  | training
  | busy
  | maintenance
  | disconnected
  | failed
  /-- A text that is no constant of `NodeState`, which a heartbeat may store. -/
  | other (text : String) (unknown : text ∉ nodeStateTexts)
  deriving DecidableEq

/-- The column value a stored text stands for. -/
def NodeState.ofText (text : String) : NodeState :=
  if h₁ : text = "REGISTERING" then .registering
  else if h₂ : text = "IDLE" then .idle
  else if h₃ : text = "RESERVED" then .reserved
  else if h₄ : text = "TRAINING" then .training
  else if h₅ : text = "BUSY" then .busy
  else if h₆ : text = "MAINTENANCE" then .maintenance
  else if h₇ : text = "DISCONNECTED" then .disconnected
  else if h₈ : text = "FAILED" then .failed
  else .other text (by simp [nodeStateTexts, *])

/-- The `status` column of a job. -/
inductive JobState where
  | pending
  | running
  | completed
  | failed
  deriving DecidableEq

/-- A row of the `nodes` table. -/
structure NodeRow where
  nodeId : String
  hostname : String
  ipAddress : String
  cpuCount : ℤ
  gpuModel : String
  ramTotal : String
  status : NodeState
  lastHeartbeat : Time
  nodeSecret : Option String

/-- A row of the `jobs` table. -/
structure JobRow where
  jobId : String
  jobName : String
  status : JobState
  scriptPath : String
  configPath : String
  requiredNodes : ℤ
  assignedNodes : List String
  priority : ℤ
  createdAt : Time
  startedAt : Option Time
  completedAt : Option Time
  exitCode : Option ℤ
  experimentId : String
  nprocPerNode : ℤ
  args : String
  retries : ℤ
  maxRetries : ℤ
  checkpointIntervalMinutes : Option ℤ
  backend : Option String

/-- A row of the `metrics` table, without its serial number. -/
structure MetricRow where
  nodeId : String
  timestamp : Time
  cpuPercent : ℚ
  ramPercent : ℚ
  gpuUtilization : ℚ
  gpuMemoryMb : ℚ
  heartbeatLatencyMs : ℚ

/-- The metrics a heartbeat passes to `update_heartbeat`. -/
structure Metrics where
  cpuPercent : ℚ
  ramPercent : ℚ
  gpuUtilization : ℚ
  gpuMemoryMb : ℚ

/-- A job as the Python dict that travels through the queue.  A key that may be absent is an
`Option`; a column that may be `NULL` adds another one. -/
structure JobDict where
  jobId : String
  jobName : Option String
  status : JobState
  scriptPath : String
  configPath : Option String
  requiredNodes : ℤ
  assignedNodes : Option (List String)
  priority : Option ℤ
  createdAt : Option Time
  experimentId : Option String
  nprocPerNode : ℤ
  args : String
  retries : Option ℤ
  maxRetries : Option ℤ
  checkpointIntervalMinutes : Option (Option ℤ)
  backend : Option (Option String)

/-- `dict(row)`: every column is a key. -/
def JobRow.toDict (r : JobRow) : JobDict where
  jobId := r.jobId
  jobName := some r.jobName
  status := r.status
  scriptPath := r.scriptPath
  configPath := some r.configPath
  requiredNodes := r.requiredNodes
  assignedNodes := some r.assignedNodes
  priority := some r.priority
  createdAt := some r.createdAt
  experimentId := some r.experimentId
  nprocPerNode := r.nprocPerNode
  args := r.args
  retries := some r.retries
  maxRetries := some r.maxRetries
  checkpointIntervalMinutes := some r.checkpointIntervalMinutes
  backend := some r.backend

@[simp] theorem JobRow.jobId_toDict (r : JobRow) : r.toDict.jobId = r.jobId := rfl

@[simp] theorem JobRow.retries_toDict (r : JobRow) : r.toDict.retries = some r.retries := rfl

/-- The row `insert_job` writes for a job, with its defaults for absent keys. -/
def JobDict.toRow (job : JobDict) (now : Time) : JobRow where
  jobId := job.jobId
  jobName := job.jobName.getD "unnamed"
  status := job.status
  scriptPath := job.scriptPath
  configPath := job.configPath.getD ""
  requiredNodes := job.requiredNodes
  assignedNodes := job.assignedNodes.getD []
  priority := job.priority.getD 0
  createdAt := now
  startedAt := none
  completedAt := none
  exitCode := none
  experimentId := job.experimentId.getD ""
  nprocPerNode := job.nprocPerNode
  args := job.args
  retries := job.retries.getD 0
  maxRetries := job.maxRetries.getD 3
  checkpointIntervalMinutes := job.checkpointIntervalMinutes.getD (some 5)
  backend := job.backend.getD (some "gloo")

/-- A node whose last heartbeat is older than the cutoff, and that is neither marked as
disconnected already nor in maintenance. -/
def NodeRow.isStale (cutoff : Time) (r : NodeRow) : Bool :=
  r.lastHeartbeat < cutoff && r.status ∉ [NodeState.disconnected, NodeState.maintenance]

/-- The columns `update_job_status` sets: the status, the time that belongs to it, and the
nodes and the exit code where they are given. -/
def JobRow.withStatus (status : JobState) (assignedNodes : Option (List String))
    (exitCode : Option ℤ) (now : Time) (r : JobRow) : JobRow :=
  { r with
    status := status
    startedAt := if status = .running then some now else r.startedAt
    completedAt := if status = .completed ∨ status = .failed then some now else r.completedAt
    assignedNodes := assignedNodes.getD r.assignedNodes
    exitCode := exitCode.or r.exitCode }

theorem JobRow.jobId_withStatus (status assignedNodes exitCode now) (r : JobRow) :
    (r.withStatus status assignedNodes exitCode now).jobId = r.jobId := rfl

/-- The default of `mark_offline_nodes`, in seconds. -/
def defaultTimeoutSeconds : ℚ := 15

/-- The database. -/
structure Registry where
  nodes : Table NodeRow.nodeId
  jobs : Table JobRow.jobId
  metrics : List MetricRow

namespace Registry

/-- The database that `_init_db` creates. -/
def empty : Registry := ⟨.empty, .empty, []⟩

variable (reg : Registry)

/-! ### Nodes -/

/-- Overwrite everything but the id of the rows satisfying `p`. -/
def updateNodes (p : NodeRow → Bool) (f : NodeRow → NodeRow)
    (hf : ∀ r, (f r).nodeId = r.nodeId) : Registry :=
  { reg with nodes := reg.nodes.modify p f hf }

/-- `register_node`: insert a row, or overwrite the one with this id. -/
def registerNode (nodeId hostname ipAddress : String) (cpuCount : ℤ) (gpuModel ramTotal : String)
    (nodeSecret : Option String) (now : Time) : Registry :=
  let row : NodeRow :=
    { nodeId, hostname, ipAddress, cpuCount, gpuModel, ramTotal, status := .idle,
      lastHeartbeat := now, nodeSecret }
  match reg.nodes.insert? row with
  | some nodes => { reg with nodes }
  -- ON CONFLICT(node_id) DO UPDATE
  | none => reg.updateNodes (fun r => r.nodeId = nodeId) (fun r => { row with nodeId := r.nodeId })
      fun _ => rfl

/-- `update_heartbeat`: refresh a node's row, and append its metrics. -/
def updateHeartbeat (nodeId : String) (status : NodeState) (metrics : Metrics) (latencyMs : ℚ)
    (now : Time) : Registry :=
  let reg := reg.updateNodes (fun r => r.nodeId = nodeId)
    (fun r => { r with lastHeartbeat := now, status := status }) fun _ => rfl
  { reg with
    metrics := reg.metrics ++
      [{ nodeId, timestamp := now, cpuPercent := metrics.cpuPercent,
         ramPercent := metrics.ramPercent, gpuUtilization := metrics.gpuUtilization,
         gpuMemoryMb := metrics.gpuMemoryMb, heartbeatLatencyMs := latencyMs }] }

/-- `mark_offline_nodes`. -/
def markOfflineNodes (now : Time) (timeoutSeconds : ℚ) : Registry :=
  reg.updateNodes (NodeRow.isStale (now - timeoutSeconds))
    (fun r => { r with status := .disconnected }) fun _ => rfl

/-- `get_available_nodes`: mark the offline nodes, then read the idle ones. -/
def getAvailableNodes (now : Time) : Registry × List NodeRow :=
  let reg := reg.markOfflineNodes now defaultTimeoutSeconds
  (reg, reg.nodes.rows.filter fun r => r.status = .idle)

/-- `get_all_nodes`: mark the offline nodes, then read all of them. -/
def getAllNodes (now : Time) : Registry × List NodeRow :=
  let reg := reg.markOfflineNodes now defaultTimeoutSeconds
  (reg, reg.nodes.rows)

/-- `update_node_state`. -/
def updateNodeState (nodeId : String) (newState : NodeState) : Registry :=
  reg.updateNodes (fun r => r.nodeId = nodeId) (fun r => { r with status := newState })
    fun _ => rfl

/-- `get_node_secret`. -/
def getNodeSecret (nodeId : String) : Option String :=
  (reg.nodes.find? nodeId).bind NodeRow.nodeSecret

/-- The row of a node. -/
def getNode (nodeId : String) : Option NodeRow := reg.nodes.find? nodeId

/-! ### Jobs -/

/-- `insert_job`; `none` when the job id is taken and SQLite raises an error. -/
def insertJob (job : JobDict) (now : Time) : Option Registry :=
  (reg.jobs.insert? (job.toRow now)).map fun jobs => { reg with jobs }

/-- Overwrite the row of one job. -/
def updateJob (jobId : String) (f : JobRow → JobRow) (hf : ∀ r, (f r).jobId = r.jobId) :
    Registry :=
  { reg with jobs := reg.jobs.modify (fun r => r.jobId = jobId) f hf }

/-- `update_job_status`. -/
def updateJobStatus (jobId : String) (status : JobState) (assignedNodes : Option (List String))
    (exitCode : Option ℤ) (now : Time) : Registry :=
  reg.updateJob jobId (JobRow.withStatus status assignedNodes exitCode now)
    (JobRow.jobId_withStatus status assignedNodes exitCode now)

/-- `update_job_retries`. -/
def updateJobRetries (jobId : String) (newStatus : JobState) (retries : ℤ) : Registry :=
  reg.updateJob jobId (fun r => { r with status := newStatus, retries := retries }) fun _ => rfl

/-- `get_job`. -/
def getJob (jobId : String) : Option JobRow := reg.jobs.find? jobId

/-- `get_jobs` with a status. -/
def getJobs (status : JobState) : List JobRow := reg.jobs.rows.filter fun r => r.status = status

/-! ### Reading back a write -/

variable {reg}

@[simp] theorem getNode_updateNodes (p f hf) (n : String) :
    (reg.updateNodes p f hf).getNode n = (reg.getNode n).map fun r => if p r then f r else r :=
  Table.find?_modify _ _ _ hf n

theorem getNode_updateHeartbeat (n s metrics latency now) (n' : String) :
    (reg.updateHeartbeat n s metrics latency now).getNode n' = (reg.getNode n').map fun r =>
      if r.nodeId = n then { r with lastHeartbeat := now, status := s } else r := by
  refine (getNode_updateNodes (fun r => r.nodeId = n)
    (fun r => { r with lastHeartbeat := now, status := s }) (fun _ => rfl) n').trans ?_
  simp only [decide_eq_true_eq]

theorem jobId_of_getJob {j : String} {r : JobRow} (h : reg.getJob j = some r) : r.jobId = j :=
  Table.key_of_find? h

theorem nodeId_of_getNode {n : String} {r : NodeRow} (h : reg.getNode n = some r) :
    r.nodeId = n :=
  Table.key_of_find? h

theorem mem_getJobs {s : JobState} {r : JobRow} :
    r ∈ reg.getJobs s ↔ reg.getJob r.jobId = some r ∧ r.status = s := by
  simp only [getJobs, List.mem_filter, decide_eq_true_eq, getJob]
  exact and_congr_left fun _ => ⟨Table.find?_of_mem, Table.mem_of_find?⟩

theorem nodup_getJobs (reg : Registry) (s : JobState) :
    ((reg.getJobs s).map JobRow.jobId).Nodup :=
  reg.jobs.nodup.sublist (List.filter_sublist.map _)

theorem getJob_updateJob (j : String) (f hf) (j' : String) :
    (reg.updateJob j f hf).getJob j' =
      if j' = j then (reg.getJob j).map f else reg.getJob j' := by
  have h : (reg.updateJob j f hf).getJob j' =
      (reg.getJob j').map fun r => if r.jobId = j then f r else r := by
    simp [updateJob, getJob]
  rw [h]
  split_ifs with hj
  · subst hj
    exact Option.map_congr fun r hr => by simp [jobId_of_getJob hr]
  · cases hr : reg.getJob j' with
    | none => rfl
    | some r => simp [jobId_of_getJob hr, hj]

theorem getJob_insertJob {reg' : Registry} {job : JobDict} {now : Time}
    (h : reg.insertJob job now = some reg') (j : String) :
    reg'.getJob j = if j = job.jobId then some (job.toRow now) else reg.getJob j := by
  obtain ⟨jobs, hjobs, rfl⟩ := Option.map_eq_some_iff.1 h
  simp only [getJob, Table.find?_insert? hjobs j]
  exact if_congr eq_comm rfl rfl

theorem getJob_of_insertJob {reg' : Registry} {job : JobDict} {now : Time}
    (h : reg.insertJob job now = some reg') : reg.getJob job.jobId = none := by
  obtain ⟨jobs, hjobs, rfl⟩ := Option.map_eq_some_iff.1 h
  exact (Table.rows_insert? hjobs).2

/-- The id of a new job is new, so the rows that are there stay as they are. -/
theorem getJob_insertJob_of_some {reg' : Registry} {job : JobDict} {now : Time}
    (h : reg.insertJob job now = some reg') {j : String} {row : JobRow}
    (hrow : reg.getJob j = some row) : reg'.getJob j = some row := by
  rw [getJob_insertJob h, if_neg, hrow]
  rintro rfl
  cases (getJob_of_insertJob h).symm.trans hrow

theorem nodes_insertJob {reg' : Registry} {job : JobDict} {now : Time}
    (h : reg.insertJob job now = some reg') :
    reg'.nodes = reg.nodes ∧ reg'.metrics = reg.metrics := by
  obtain ⟨jobs, hjobs, rfl⟩ := Option.map_eq_some_iff.1 h
  exact ⟨rfl, rfl⟩

theorem jobs_registerNode (n h ip c g ram sec now) :
    (reg.registerNode n h ip c g ram sec now).jobs = reg.jobs := by
  unfold registerNode
  dsimp only
  split <;> rfl

theorem getNode_registerNode (n h ip c g ram sec now) (n' : String) :
    (reg.registerNode n h ip c g ram sec now).getNode n' =
      if n' = n then
        some ⟨n, h, ip, c, g, ram, .idle, now, sec⟩
      else reg.getNode n' := by
  unfold registerNode
  dsimp only
  split
  · rename_i nodes hnodes
    simp only [getNode, Table.find?_insert? hnodes n']
    exact if_congr eq_comm rfl rfl
  · rename_i hnone
    rw [getNode_updateNodes]
    have hsome : ∃ r, reg.getNode n = some r := by
      refine Option.isSome_iff_exists.1 (Option.isSome_iff_ne_none.2 fun hn => ?_)
      rw [Table.insert?, dif_pos (Table.find?_eq_none_iff.1 hn)] at hnone
      cases hnone
    split_ifs with hn
    · subst hn
      obtain ⟨r, hr⟩ := hsome
      simp [hr, nodeId_of_getNode hr]
    · cases hr : reg.getNode n' with
      | none => rfl
      | some r => simp [nodeId_of_getNode hr, hn]

end Registry

end Dmlf
