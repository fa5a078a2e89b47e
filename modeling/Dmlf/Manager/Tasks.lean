import Dmlf.Manager.Basic
import Dmlf.LTS.Basic

/-!
# The manager, one call at a time

The gRPC server runs its handlers on a pool of threads, next to the scheduler thread and the
monitor thread.  Each registry call is a transaction of its own and each access to the queue or
to the command queues holds a lock, so the threads interleave between these calls.  A `Task` is
what a handler or a loop iteration has still to do, and `Task.step` its next call.

An update of a gauge is not a call of its own.  It belongs to the call before it, as
`inc_jobs_queued` to the append of `submit_job` and the two updates of a dispatch to the write of
`RUNNING`: between the two lines the gauge is behind by one, and no step falls there.

`Conf.fine` interleaves any number of handlers with at most one scheduler pass and one monitor
pass, and may kill and restart the manager between any two calls.  `Manager.serial` runs every
handler and every pass to its end, as `Dmlf.Manager.Basic` defines them.
-/

namespace Dmlf

/-- The rest of a handler or of a loop iteration: its next call and what it still needs. -/
inductive Task where
  /-- `RegisterNode`: create the command queue. -/
  | registerQueue (nodeId : String)
  /-- `submit_job`: append the job whose row has just been inserted. -/
  | submitAppend (job : JobDict)
  /-- `ReportJobStatus`, a failure with retries left: set the node idle. -/
  | retrySetIdle (req : JobStatusRequest) (job : JobRow)
  /-- `retry_job`: write the row. -/
  | retryWrite (job : JobRow)
  /-- `retry_job`: append the job whose row has just been written. -/
  | retryAppend (job : JobDict)
  /-- `ReportJobStatus`, a failure without retries left: write the row. -/
  | failWrite (req : JobStatusRequest)
  /-- `ReportJobStatus` after the row is closed: set the node idle. -/
  | closedSetIdle (req : JobStatusRequest)
  /-- The scheduler has popped a job: select nodes. -/
  | schedSelect (job : JobDict)
  /-- The scheduler has found too few nodes: put the job back. -/
  | schedRequeue (job : JobDict)
  /-- The scheduler reserves the nodes of `todo`, then sets the job `RUNNING`. -/
  | schedReserve (job : JobDict) (nodes todo : List NodeRow)
  /-- The scheduler sends the commands of `todo`. -/
  | schedSend (job : JobDict) (masterAddr : String) (todo : List (NodeRow × ℕ))
  /-- The monitor has found offline nodes: read the running jobs. -/
  | monJobs (offline : List String)
  /-- The monitor handles the rows of `jobs`, as it read them, then marks the offline nodes. -/
  | monLoop (offline : List String) (jobs : List JobRow)
  /-- The monitor appends the job whose row it has just written. -/
  | monAppend (offline : List String) (jobs : List JobRow) (job : JobDict)
  /-- The monitor counts the nodes. -/
  | monCount

namespace Task

/-- A task of the scheduler thread. -/
def isScheduler : Task → Bool
  | .schedSelect _ | .schedRequeue _ | .schedReserve .. | .schedSend .. => true
  | _ => false

/-- A task of the monitor thread. -/
def isMonitor : Task → Bool
  | .monJobs _ | .monLoop .. | .monAppend .. | .monCount => true
  | _ => false

variable (cfg : Setup) (now : Time)

/-- The next call of a task, and the task that remains. -/
def step (m : Manager) : Task → Manager × Option Task
  | .registerQueue nodeId => (m.newCommandQueue nodeId, none)
  | .submitAppend job => ((m.enqueue job).incJobsQueued, none)
  | .retrySetIdle req job => (m.updateNodeState req.nodeId .idle, some (.retryWrite job))
  | .retryWrite job => (m.writeRetry job.toDict, some (.retryAppend job.toDict.retried))
  | .retryAppend job => ((m.enqueue job).incJobRetries, none)
  | .failWrite req => (m.closeJob req.jobId .failed 1 now, some (.closedSetIdle req))
  | .closedSetIdle req =>
    let m := m.updateNodeState req.nodeId .idle
    -- only a completion is taken off the gauge
    (if req.isFailure then m else m.decJobsRunning, none)
  | .schedSelect job =>
    let (registry, available) := m.registry.getAvailableNodes now
    let nodes := allocate cfg.scoreNode available job.requiredNodes
    (m.setRegistry registry,
      some (if nodes.isEmpty then .schedRequeue job else .schedReserve job nodes nodes))
  | .schedRequeue job => (m.requeueJob job, none)
  | .schedReserve job nodes (node :: todo) =>
    (m.updateNodeState node.nodeId .reserved, some (.schedReserve job nodes todo))
  | .schedReserve job nodes [] =>
    (m.startJob job nodes now,
      some (.schedSend job ((nodes.head?.map NodeRow.ipAddress).getD "") nodes.zipIdx))
  | .schedSend job masterAddr ((node, rank) :: todo) =>
    (m.sendCommand node.nodeId (m.launchCommand cfg job masterAddr rank),
      some (.schedSend job masterAddr todo))
  | .schedSend _ _ [] => (m, none)
  -- from here on the monitor works on the rows as it has read them
  | .monJobs offline => (m, some (.monLoop offline (m.registry.getJobs .running)))
  | .monLoop offline (job :: jobs) =>
    if job.lostNode offline then
      if job.retries < job.maxRetries then
        (m.writeRetry job.toDict, some (.monAppend offline jobs job.toDict.retried))
      else (m.closeJob job.jobId .failed 1 now, some (.monLoop offline jobs))
    else (m, some (.monLoop offline jobs))
  | .monLoop _ [] =>
    (m.setRegistry (m.registry.markOfflineNodes now defaultTimeoutSeconds), some .monCount)
  | .monAppend offline jobs job => (m.enqueue job, some (.monLoop offline jobs))
  | .monCount =>
    let (registry, nodes) := m.registry.getAllNodes now
    ((m.setRegistry registry).setNodeGauges nodes, none)

end Task

/-- What happens to a manager: a request, an iteration of one of its loops, the next call of a
task, or its restart. -/
inductive Label where
  | registerNode (nodeId nodeSecret : String) (req : RegistrationRequest) (now : Time)
  | sendHeartbeat (req : HeartbeatRequest) (now : Time)
  | listenForCommands (nodeId : String)
  | takeCommand (nodeId : String)
  | reportJobStatus (req : JobStatusRequest) (now : Time)
  | submitJob (jobId : String) (req : JobSubmitRequest) (now : Time)
  | schedulerPass (now : Time)
  | monitorPass (now : Time)
  | probe (now : Time)
  | restart
  | runTask (i : ℕ) (now : Time)

/-- The process is killed and started again. -/
def Label.isRestart : Label → Bool
  | .restart => true
  | _ => false

namespace Manager

variable (cfg : Setup) (m : Manager)

/-- A handler or a pass as a whole.  The id of a new node is new. -/
def perform : Label → Option Manager
  | .registerNode nodeId nodeSecret req now =>
    if (m.registry.getNode nodeId).isNone then some (m.registerNode nodeId nodeSecret req now)
    else none
  | .sendHeartbeat req now => some (m.sendHeartbeat req now)
  | .listenForCommands nodeId => some (m.listenForCommands nodeId)
  | .takeCommand nodeId => (m.takeCommand nodeId).map Prod.snd
  | .reportJobStatus req now => some (m.reportJobStatus req now)
  | .submitJob jobId req now => m.submitJob jobId req now
  | .schedulerPass now => some (m.schedulerPass cfg now)
  | .monitorPass now => some (m.monitorPass cfg now)
  | .probe now => some (m.probe now)
  | .restart => some m.restart
  | .runTask _ _ => none

/-- The manager with its handlers and passes taken one at a time. -/
def serial : LTS Manager Label := LTS.ofExec (perform cfg)

/-- The first call of `ReportJobStatus`: a failure reads the job, a completion closes it. -/
def beginReport (req : JobStatusRequest) (now : Time) : Manager × Option Task :=
  if req.isFailure then
    match m.registry.getJob req.jobId with
    | none => (m, none)
    | some job =>
      (m, some (if job.retries < job.maxRetries then .retrySetIdle req job else .failWrite req))
  else if req.isCompletion then
    (m.closeJob req.jobId .completed 0 now, some (.closedSetIdle req))
  else (m, none)

/-- The first call of a scheduler pass: pop the top job. -/
def beginSchedulerPass : Manager × Option Task :=
  match m.queue with
  | [] => (m, none)
  | job :: queue => ({ m with queue }, some (.schedSelect job))

/-- The first call of a monitor pass: query the offline nodes. -/
def beginMonitorPass (now : Time) : Manager × Option Task :=
  let offline := m.offlineNodes cfg now
  (m, some (if offline.isEmpty then .monLoop [] [] else .monJobs offline))

end Manager

/-- A manager and the tasks its threads are at. -/
structure Conf where
  mgr : Manager
  tasks : List Task

namespace Conf

variable (cfg : Setup)

/-- A manager that has just started on a database. -/
def start (registry : Registry) : Conf := ⟨.serve registry [], []⟩

/-- The configuration after the first call of a handler. -/
def spawn (c : Conf) (next : Manager × Option Task) : Conf :=
  ⟨next.1, c.tasks ++ next.2.toList⟩

/-- The configuration after a call of the task at place `i`. -/
def resume (c : Conf) (i : ℕ) (next : Manager × Option Task) : Conf :=
  ⟨next.1, c.tasks.eraseIdx i ++ next.2.toList⟩

/-- One call.  There is one scheduler thread and one monitor thread. -/
def exec (c : Conf) : Label → Option Conf
  | .registerNode nodeId nodeSecret req now =>
    if (c.mgr.registry.getNode nodeId).isNone then
      some (c.spawn (c.mgr.insertNode nodeId nodeSecret req now, some (.registerQueue nodeId)))
    else none
  | .sendHeartbeat req now => some (c.spawn (c.mgr.sendHeartbeat req now, none))
  | .listenForCommands nodeId => some (c.spawn (c.mgr.listenForCommands nodeId, none))
  | .takeCommand nodeId => (c.mgr.takeCommand nodeId).map fun x => c.spawn (x.2, none)
  | .reportJobStatus req now => some (c.spawn (c.mgr.beginReport req now))
  | .submitJob jobId req now =>
    let job := req.toDict jobId
    (c.mgr.insertJob job now).map fun m => c.spawn (m, some (.submitAppend job))
  | .schedulerPass _ =>
    if c.tasks.any Task.isScheduler then none else some (c.spawn c.mgr.beginSchedulerPass)
  | .monitorPass now =>
    if c.tasks.any Task.isMonitor then none else some (c.spawn (c.mgr.beginMonitorPass cfg now))
  | .probe now => some (c.spawn (c.mgr.probe now, none))
  -- the threads are gone with the process
  | .restart => some ⟨c.mgr.restart, []⟩
  | .runTask i now =>
    match c.tasks[i]? with
    | none => none
    | some task => some (c.resume i (task.step cfg now c.mgr))

/-- The manager with its calls interleaved. -/
def fine : LTS Conf Label := LTS.ofExec (exec cfg)

end Conf

/-! ### A small cluster -/

namespace Sample

/-- The default settings.  Without a GPU and a memory size the CPUs decide a node's score. -/
def setup : Setup := ⟨15, 29500, fun node => node.cpuCount / 2⟩

/-- A node with eight CPUs. -/
def node : RegistrationRequest := ⟨"worker", "10.0.0.1", 8, "None", ""⟩

/-- A job for `nnodes` nodes. -/
def job (nnodes maxRetries : ℤ) : JobSubmitRequest :=
  ⟨"train.py", nnodes, 1, "", maxRetries, 5, "gloo"⟩

/-- A command for the only process of a job. -/
def launch (jobId : String) : Command :=
  ⟨⟨jobId, 0, 0⟩, .launchJob, ⟨jobId, 1, 0, "10.0.0.1", 29500, 1, "train.py", "", 3, 5, "gloo"⟩⟩

/-- The calls of a pass that dispatches a job for one node. -/
def dispatchOne (now : Time) : List Label :=
  .schedulerPass now :: List.replicate 5 (.runTask 0 now)

/-- The calls that register two nodes, submit `job-1` for both of them with one retry, and
dispatch it. -/
def dispatchTwo : List Label :=
  [.registerNode "node-1" "secret-1" node 100, .runTask 0 100,
    .registerNode "node-2" "secret-2" node 100, .runTask 0 100,
    .submitJob "job-1" (job 2 1) 101, .runTask 0 101, .schedulerPass 102] ++
  List.replicate 7 (.runTask 0 102)

end Sample

end Dmlf
