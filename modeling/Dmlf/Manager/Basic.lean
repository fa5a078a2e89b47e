import Dmlf.Manager.Queue

/-!
# The cluster manager

`ClusterManagerServicer`, the scheduler loop and the monitor loop
(`dmlf/manager/cluster_manager.py`, `dmlf/manager/schedulers/`), with every handler and every
pass as one function of the manager's state: the durable registry and the volatile job queue,
command queues and gauges.  `Dmlf.Manager.Tasks` takes the same handlers apart into their
single registry and queue calls.

The console output is left out.  The log file, which no handler reads, stands beside the manager:
its lines are in `Dmlf.Cluster.Log`, and the records that a run writes in `Dmlf.Jobs.Warnings`.  A
`uuid4` that names a new node or job is an argument; the one that names a command is a fresh name by
construction (`CommandId`).  The `history` of a manager is an auxiliary record that no branch reads.
-/

namespace Dmlf

/-! ### Messages -/

/-- `RegistrationRequest`. -/
structure RegistrationRequest where
  hostname : String
  ipAddress : String
  cpuCount : ℤ
  gpuModel : String
  ramTotal : String

/-- `HeartbeatRequest`. -/
structure HeartbeatRequest where
  nodeId : String
  metrics : Metrics
  currentStatus : String
  sendTimestamp : Time

/-- `JobStatusRequest`. -/
structure JobStatusRequest where
  nodeId : String
  jobId : String
  status : String

/-- `JobSubmitRequest`. -/
structure JobSubmitRequest where
  scriptPath : String
  nnodes : ℤ
  nprocPerNode : ℤ
  args : String
  maxRetries : ℤ
  checkpointIntervalMinutes : ℤ
  backend : String

/-- `JobPayload`. -/
structure JobPayload where
  jobId : String
  nnodes : ℤ
  nodeRank : ℕ
  masterAddr : String
  masterPort : ℤ
  nprocPerNode : ℤ
  scriptPath : String
  args : String
  maxRetries : ℤ
  checkpointIntervalMinutes : ℤ
  backend : String

/-- `Command.CommandType`. -/
inductive CommandType where
  | unknown
  | launchJob
  | stopJob
  deriving DecidableEq

/-- A fresh command id: the job, the number of its dispatch, and the rank in it. -/
structure CommandId where
  jobId : String
  dispatch : ℕ
  rank : ℕ
  deriving DecidableEq

/-- `Command`. -/
structure Command where
  commandId : CommandId
  type : CommandType
  jobPayload : JobPayload

/-- The lower case of a text, as far as the texts compared with it have one: no character
outside ASCII has a lower case in `failed`, `error` or `completed`. -/
def lower (text : String) : String := String.ofList (text.toList.map Char.toLower)

/-- `request.status.lower() in ("failed", "error")`. -/
def JobStatusRequest.isFailure (req : JobStatusRequest) : Bool :=
  lower req.status = "failed" || lower req.status = "error"

/-- `request.status.lower() == "completed"`. -/
def JobStatusRequest.isCompletion (req : JobStatusRequest) : Bool :=
  lower req.status = "completed"

/-- The job dict `SubmitJob` builds; `submit_job` adds the status. -/
def JobSubmitRequest.toDict (req : JobSubmitRequest) (jobId : String) : JobDict where
  jobId := jobId
  jobName := none
  status := .pending
  scriptPath := req.scriptPath
  configPath := none
  requiredNodes := req.nnodes
  assignedNodes := none
  priority := none
  createdAt := none
  experimentId := none
  nprocPerNode := req.nprocPerNode
  args := req.args
  retries := none
  maxRetries := some req.maxRetries
  checkpointIntervalMinutes := some (some req.checkpointIntervalMinutes)
  backend := some (some req.backend)

/-! ### State -/

/-- What a manager process is started with: `manager.offline_timeout_sec`,
`distributed.master_port`, and the scoring function of its `NodeAllocator`. -/
structure Setup where
  offlineTimeoutSec : ℤ
  masterPort : ℤ
  scoreNode : NodeRow → ℚ

/-- The Prometheus gauges and counters the manager sets. -/
structure Gauges where
  jobsQueued : ℤ
  jobsRunning : ℤ
  jobRetries : ℕ
  nodesIdle : ℕ
  nodesBusy : ℕ
  nodesOffline : ℕ

/-- The gauges of a process that has just started. -/
def Gauges.zero : Gauges := ⟨0, 0, 0, 0, 0, 0⟩

/-- What the history of a manager records. -/
inductive Event where
  | submitted (jobId : String)
  | retried (jobId : String)
  | dispatched (jobId : String) (assignedNodes : List String)
  deriving DecidableEq

/-- The number of `update_job_retries` writes for a job. -/
def retriesIn (history : List Event) (j : String) : ℕ := history.count (.retried j)

/-- A dispatch of job `j`. -/
def Event.isDispatchOf (j : String) : Event → Bool
  | .dispatched j' _ => j' = j
  | _ => false

/-- The number of times a job was set `RUNNING`. -/
def dispatchesIn (history : List Event) (j : String) : ℕ := history.countP (Event.isDispatchOf j)

theorem retriesIn_append (history : List Event) (e : Event) (j : String) :
    retriesIn (history ++ [e]) j = retriesIn history j + if e = .retried j then 1 else 0 := by
  simp only [retriesIn, List.count_append, List.count_singleton, beq_iff_eq]

theorem dispatchesIn_append (history : List Event) (e : Event) (j : String) :
    dispatchesIn (history ++ [e]) j =
      dispatchesIn history j + if e.isDispatchOf j then 1 else 0 := by
  simp only [dispatchesIn, List.countP_append, List.countP_singleton]

/-- A row that `monitor_nodes` fails: one of its nodes is offline. -/
def JobRow.lostNode (offline : List String) (job : JobRow) : Bool :=
  offline.any fun node => node ∈ job.assignedNodes

/-- A manager process and its database. -/
structure Manager where
  registry : Registry
  queue : List JobDict
  commandQueues : String → Option (List Command)
  gauges : Gauges
  /-- Auxiliary: the job writes so far, those before a restart included. -/
  history : List Event

namespace Manager

/-- The manager that `serve` starts on a database: `JobQueue` recovers the pending jobs, and
everything else in memory is new. -/
def serve (registry : Registry) (history : List Event) : Manager where
  registry := registry
  queue := recoverPendingJobs registry
  commandQueues := fun _ => none
  gauges := .zero
  history := history

variable (cfg : Setup) (m : Manager)

/-- The process is killed and started again on the same database. -/
def restart : Manager := serve m.registry m.history

/-! ### Single calls -/

/-- A write to the registry that does not touch the jobs. -/
def setRegistry (registry : Registry) : Manager := { m with registry }

/-- `registry.update_node_state`. -/
def updateNodeState (nodeId : String) (newState : NodeState) : Manager :=
  m.setRegistry (m.registry.updateNodeState nodeId newState)

/-- `registry.update_job_status` with an exit code: the job is closed. -/
def closeJob (jobId : String) (status : JobState) (exitCode : ℤ) (now : Time) : Manager :=
  m.setRegistry (m.registry.updateJobStatus jobId status none (some exitCode) now)

/-- The part of `retry_job` that writes the row. -/
def writeRetry (job : JobDict) : Manager :=
  { m with
    registry := m.registry.updateJobRetries job.jobId .pending (job.retries.getD 0 + 1)
    history := m.history ++ [.retried job.jobId] }

/-- `queue.append` and the sort, under the queue's lock. -/
def enqueue (job : JobDict) : Manager := { m with queue := appendSorted m.queue job }

/-- `retry_job`. -/
def retryJob (job : JobDict) : Manager := (m.writeRetry job).enqueue job.retried

/-- `requeue_job`. -/
def requeueJob (job : JobDict) : Manager := { m with queue := job :: m.queue }

/-- `send_command`: a command for a node without a queue is dropped. -/
def sendCommand (nodeId : String) (command : Command) : Manager :=
  match m.commandQueues nodeId with
  | some q =>
    { m with commandQueues := fun n => if n = nodeId then some (q ++ [command])
                                       else m.commandQueues n }
  | none => m

/-- Give a node an empty command queue. -/
def newCommandQueue (nodeId : String) : Manager :=
  { m with commandQueues := fun n => if n = nodeId then some [] else m.commandQueues n }

/-- `inc_jobs_queued`: one more job waits, by the gauge. -/
def incJobsQueued : Manager :=
  { m with gauges := { m.gauges with jobsQueued := m.gauges.jobsQueued + 1 } }

/-- `dec_jobs_queued`.  The gauge may become negative. -/
def decJobsQueued : Manager :=
  { m with gauges := { m.gauges with jobsQueued := m.gauges.jobsQueued - 1 } }

/-- `inc_jobs_running`: one more job runs, by the gauge. -/
def incJobsRunning : Manager :=
  { m with gauges := { m.gauges with jobsRunning := m.gauges.jobsRunning + 1 } }

/-- `dec_jobs_running`.  The gauge may become negative. -/
def decJobsRunning : Manager :=
  { m with gauges := { m.gauges with jobsRunning := m.gauges.jobsRunning - 1 } }

/-- `inc_job_retries`, a counter that never goes back. -/
def incJobRetries : Manager :=
  { m with gauges := { m.gauges with jobRetries := m.gauges.jobRetries + 1 } }

/-- Set the three node gauges from the node table. -/
def setNodeGauges (nodes : List NodeRow) : Manager :=
  { m with gauges :=
    { m.gauges with
      nodesIdle := nodes.countP fun n => n.status = .idle
      nodesBusy := nodes.countP fun n => n.status = .training
      nodesOffline := nodes.countP fun n => n.status = .disconnected } }

/-! ### RPC handlers -/

/-- The registry call of `RegisterNode`. -/
def insertNode (nodeId nodeSecret : String) (req : RegistrationRequest) (now : Time) : Manager :=
  m.setRegistry (m.registry.registerNode nodeId req.hostname req.ipAddress req.cpuCount
    req.gpuModel req.ramTotal (some nodeSecret) now)

/-- `RegisterNode`, with the id and the secret it generates. -/
def registerNode (nodeId nodeSecret : String) (req : RegistrationRequest) (now : Time) :
    Manager :=
  (m.insertNode nodeId nodeSecret req now).newCommandQueue nodeId

/-- `SendHeartbeat`: node id and status are those of the message. -/
def sendHeartbeat (req : HeartbeatRequest) (now : Time) : Manager :=
  let latencyMs := if 0 < req.sendTimestamp then (now - req.sendTimestamp) * 1000 else 0
  m.setRegistry (m.registry.updateHeartbeat req.nodeId (.ofText req.currentStatus) req.metrics
    latencyMs now)

/-- The opening of `ListenForCommands`, under the lock. -/
def listenForCommands (nodeId : String) : Manager :=
  if (m.commandQueues nodeId).isSome then m else m.newCommandQueue nodeId

/-- `q.get` on a command stream; `none` while the queue is empty. -/
def takeCommand (nodeId : String) : Option (Command × Manager) :=
  match m.commandQueues nodeId with
  | some (command :: rest) =>
    some (command, { m with commandQueues := fun n => if n = nodeId then some rest
                                                      else m.commandQueues n })
  | _ => none

/-- `ReportJobStatus`.  After a completion it reads the job once more for its latency, which a
row never holds. -/
def reportJobStatus (req : JobStatusRequest) (now : Time) : Manager :=
  if req.isFailure then
    match m.registry.getJob req.jobId with
    | none => m
    | some job =>
      -- neither the status of the row nor its nodes are looked at
      if job.retries < job.maxRetries then
        ((m.updateNodeState req.nodeId .idle).retryJob job.toDict).incJobRetries
      else
        (m.closeJob req.jobId .failed 1 now).updateNodeState req.nodeId .idle
  else if req.isCompletion then
    ((m.closeJob req.jobId .completed 0 now).updateNodeState req.nodeId .idle).decJobsRunning
  else m

/-- The part of `submit_job` that inserts the row; `none` when the id is taken. -/
def insertJob (job : JobDict) (now : Time) : Option Manager :=
  (m.registry.insertJob job now).map fun registry =>
    { m with registry, history := m.history ++ [.submitted job.jobId] }

/-- `SubmitJob`, with the id it generates. -/
def submitJob (jobId : String) (req : JobSubmitRequest) (now : Time) : Option Manager :=
  let job := JobSubmitRequest.toDict req jobId
  (m.insertJob job now).map fun m => (m.enqueue job).incJobsQueued

/-! ### Scheduler -/

/-- The `LAUNCH_JOB` command for one node.  An absent key of the job has its default, a `NULL`
leaves the field of the message unset. -/
def launchCommand (job : JobDict) (masterAddr : String) (rank : ℕ) : Command where
  commandId := ⟨job.jobId, dispatchesIn m.history job.jobId, rank⟩
  type := .launchJob
  jobPayload :=
    { jobId := job.jobId
      nnodes := job.requiredNodes
      nodeRank := rank
      masterAddr := masterAddr
      masterPort := cfg.masterPort
      nprocPerNode := job.nprocPerNode
      scriptPath := job.scriptPath
      args := job.args
      maxRetries := job.maxRetries.getD 3
      checkpointIntervalMinutes := (job.checkpointIntervalMinutes.getD (some 5)).getD 0
      backend := (job.backend.getD (some "gloo")).getD "" }

/-- The write of `dispatch_allocated_job` that sets the job `RUNNING`, and the gauges. -/
def startJob (job : JobDict) (nodes : List NodeRow) (now : Time) : Manager :=
  let assigned := nodes.map NodeRow.nodeId
  let m := { m with
    registry := m.registry.updateJobStatus job.jobId .running (some assigned) none now
    history := m.history ++ [Event.dispatched job.jobId assigned] }
  m.decJobsQueued.incJobsRunning

/-- `dispatch_allocated_job`; node `0` is the master. -/
def dispatchAllocatedJob (job : JobDict) (nodes : List NodeRow) (now : Time) : Manager :=
  let masterAddr := (nodes.head?.map NodeRow.ipAddress).getD ""
  nodes.zipIdx.foldl
    (fun m (node, rank) => m.sendCommand node.nodeId (m.launchCommand cfg job masterAddr rank))
    (m.startJob job nodes now)

/-- Reserve the nodes one after the other. -/
def reserveNodes (nodes : List NodeRow) : Manager :=
  nodes.foldl (fun m node => m.updateNodeState node.nodeId .reserved) m

/-- One iteration of `_scheduler_loop` with the `PriorityBinPackScheduler`. -/
def schedulerPass (now : Time) : Manager :=
  match m.queue with
  | [] => m
  | job :: queue =>
    let (registry, available) := m.registry.getAvailableNodes now
    let m := { m with queue, registry }
    let nodes := allocate cfg.scoreNode available job.requiredNodes
    -- not enough nodes: requeue at the front
    if nodes.isEmpty then m.requeueJob job
    else (m.reserveNodes nodes).dispatchAllocatedJob cfg job nodes now

/-! ### Monitor -/

/-- The first query of `monitor_nodes`: the ids of the nodes that have just become offline. -/
def offlineNodes (now : Time) : List String :=
  (m.registry.nodes.rows.filter (NodeRow.isStale (now - cfg.offlineTimeoutSec))).map
    NodeRow.nodeId

/-- The body of the loop of `monitor_nodes` over the running jobs. -/
def failOver (offline : List String) (now : Time) (job : JobRow) : Manager :=
  if job.lostNode offline then
    if job.retries < job.maxRetries then m.retryJob job.toDict
    else m.closeJob job.jobId .failed 1 now
  else m

/-- The end of an iteration of `monitor_nodes`: mark the offline nodes, read all nodes (which
marks them again), and set the gauges. -/
def markAndCount (now : Time) : Manager :=
  let m := m.setRegistry (m.registry.markOfflineNodes now defaultTimeoutSeconds)
  let (registry, nodes) := m.registry.getAllNodes now
  (m.setRegistry registry).setNodeGauges nodes

/-- One iteration of `monitor_nodes`. -/
def monitorPass (now : Time) : Manager :=
  let offline := m.offlineNodes cfg now
  let m :=
    -- the running jobs are read once, before the first of them is failed over
    if offline.isEmpty then m
    else (m.registry.getJobs .running).foldl (fun m job => m.failOver offline now job) m
  m.markAndCount now

/-- A probe of the health server or a reading of the autoscaler: `get_all_nodes` or
`get_available_nodes`, of which only the marking stays. -/
def probe (now : Time) : Manager := m.setRegistry (m.registry.getAllNodes now).1

end Manager

end Dmlf
