import Dmlf.Registry.Schema
import Dmlf.Table.Query
import Dmlf.Text.Json

/-!
# The statements of the registry

Each method of `NodeRegistry` (`dmlf/manager/node_registry.py`) sends SQL to the database, with its
arguments as parameters.  Here are these statements as they are in the source; what they do to the
file of a registry is what `Dmlf.Registry.Basic` says that the method does.

* `RegistryCall.exec_database` : the statements of a method, and when they fail.
* `Registry.fetchJob_database` and its companions : what the queries read.
* `RegistryCall.runs_agree` : any number of methods one after the other, on a new file.
-/

namespace Dmlf

/-! ### Values -/

namespace SqlValue

/-- The number that a value is. -/
def asNumber : SqlValue → Option ℚ
  | .integer n => some n
  | .real x => some x
  | _ => none

/-- The text that a value is. -/
def asText : SqlValue → Option String
  | .text s => some s
  | .json texts => some (jsonDumps texts)
  | _ => none

/-- `a = b`. -/
def sqlEq (a b : SqlValue) : Option Bool :=
  if a = .null ∨ b = .null then none
  else some (decide (a.asNumber = b.asNumber ∧ a.asText = b.asText))

/-- `a < b`: numbers come before texts. -/
def sqlLt (a b : SqlValue) : Option Bool :=
  if a = .null ∨ b = .null then none
  else
    match a.asNumber, b.asNumber with
    | some x, some y => some (decide (x < y))
    | some _, none => some true
    | none, some _ => some false
    | none, none => some (decide (a.asText.getD "" < b.asText.getD ""))

end SqlValue

/-- SQLite, as far as the statements below use it. -/
def sqlite : Dialect SqlValue where
  null := .null
  eq := SqlValue.sqlEq
  lt := SqlValue.sqlLt
  number n := .integer n

/-- The keys of the tables; foreign keys are not enforced. -/
def keyColumn (table : String) : KeyColumn String :=
  if table = "nodes" then .primary "node_id"
  else if table = "jobs" then .primary "job_id"
  else .serial "id"

/-! ### The statements -/

/-- `cursor.execute(query, params)`. -/
abbrev Execution := Query String String × List SqlValue

/-- `register_node`. -/
def registerNodeQuery (nodeId hostname ipAddress : String) (cpuCount : ℤ)
    (gpuModel ramTotal : String) (nodeSecret : Option String) (now : Time) : Execution :=
  (.upsert "nodes"
    ["node_id", "hostname", "ip_address", "cpu_count", "gpu_model", "ram_total", "status",
      "last_heartbeat", "node_secret"]
    "node_id"
    ["hostname", "ip_address", "cpu_count", "gpu_model", "ram_total", "status", "last_heartbeat",
      "node_secret"],
    [.text nodeId, .text hostname, .text ipAddress, .integer cpuCount, .text gpuModel,
      .text ramTotal, .text NodeState.idle.text, .real now, .orNull .text nodeSecret])

/-- The first statement of `update_heartbeat`. -/
def updateHeartbeatQuery (nodeId : String) (status : NodeState) (now : Time) : Execution :=
  (.update "nodes" ["last_heartbeat", "status"] (.eq "node_id"),
    [.real now, .text status.text, .text nodeId])

/-- The second statement of `update_heartbeat`. -/
def insertMetricsQuery (nodeId : String) (metrics : Metrics) (latencyMs : ℚ) (now : Time) :
    Execution :=
  (.insert "metrics"
    ["node_id", "timestamp", "cpu_percent", "ram_percent", "gpu_utilization", "gpu_memory_mb",
      "heartbeat_latency_ms"],
    [.text nodeId, .real now, .real metrics.cpuPercent, .real metrics.ramPercent,
      .real metrics.gpuUtilization, .real metrics.gpuMemoryMb, .real latencyMs])

/-- `last_heartbeat < ? AND status NOT IN (?, ?)`. -/
def staleCondition : Condition String := .and (.lt "last_heartbeat") (.notIn "status" 2)

/-- The parameters of `staleCondition`. -/
def staleParams (cutoff : Time) : List SqlValue :=
  [.real cutoff, .text NodeState.disconnected.text, .text NodeState.maintenance.text]

/-- `mark_offline_nodes`. -/
def markOfflineNodesQuery (now : Time) (timeoutSeconds : ℚ) : Execution :=
  (.update "nodes" ["status"] staleCondition,
    .text NodeState.disconnected.text :: staleParams (now - timeoutSeconds))

/-- `update_node_state`. -/
def updateNodeStateQuery (nodeId : String) (newState : NodeState) : Execution :=
  (.update "nodes" ["status"] (.eq "node_id"), [.text newState.text, .text nodeId])

/-- `insert_job`. -/
def insertJobQuery (job : JobDict) (now : Time) : Execution :=
  (.insert "jobs"
    ["job_id", "job_name", "status", "script_path", "config_path", "required_nodes",
      "assigned_nodes", "priority", "created_at", "experiment_id", "nproc_per_node", "args",
      "retries", "max_retries", "checkpoint_interval_minutes", "backend"],
    [.text job.jobId, .text (job.jobName.getD "unnamed"), .text job.status.text,
      .text job.scriptPath, .text (job.configPath.getD ""), .integer job.requiredNodes,
      .json (job.assignedNodes.getD []), .integer (job.priority.getD 0), .real now,
      .text (job.experimentId.getD ""), .integer job.nprocPerNode, .text job.args,
      .integer (job.retries.getD 0), .integer (job.maxRetries.getD 3),
      .orNull .integer (job.checkpointIntervalMinutes.getD (some 5)),
      .orNull .text (job.backend.getD (some "gloo"))])

/-- `update_job_status`, which puts its statement together. -/
def updateJobStatusQuery (jobId : String) (status : JobState)
    (assignedNodes : Option (List String)) (exitCode : Option ℤ) (now : Time) : Execution :=
  let updates := ["status"]
  let params := [SqlValue.text status.text]
  let (updates, params) :=
    if status = .running then (updates ++ ["started_at"], params ++ [SqlValue.real now])
    else if status = .completed ∨ status = .failed then
      (updates ++ ["completed_at"], params ++ [SqlValue.real now])
    else (updates, params)
  let (updates, params) :=
    match assignedNodes with
    | some nodes => (updates ++ ["assigned_nodes"], params ++ [SqlValue.json nodes])
    | none => (updates, params)
  let (updates, params) :=
    match exitCode with
    | some code => (updates ++ ["exit_code"], params ++ [SqlValue.integer code])
    | none => (updates, params)
  (.update "jobs" updates (.eq "job_id"), params ++ [.text jobId])

/-- `update_job_retries`. -/
def updateJobRetriesQuery (jobId : String) (newStatus : JobState) (retries : ℤ) : Execution :=
  (.update "jobs" ["status", "retries"] (.eq "job_id"),
    [.text newStatus.text, .integer retries, .text jobId])

/-! ### Comparisons -/

@[simp] theorem sqlite_null : sqlite.null = .null := rfl

@[simp] theorem sqlite_eq_text (a b : String) :
    sqlite.eq (.text a) (.text b) = some (decide (a = b)) := by
  simp [sqlite, SqlValue.sqlEq, SqlValue.asNumber, SqlValue.asText]

@[simp] theorem sqlite_lt_real (x y : ℚ) :
    sqlite.lt (.real x) (.real y) = some (decide (x < y)) := by
  simp [sqlite, SqlValue.sqlLt, SqlValue.asNumber]

theorem NodeState.ofText_text (s : NodeState) : NodeState.ofText s.text = s := by
  cases s with
  | other text unknown =>
    simp only [nodeStateTexts, List.mem_cons, not_or] at unknown
    simp [ofText, NodeState.text, unknown]
  | registering | idle | reserved | training | busy | maintenance | disconnected | failed =>
    simp [ofText, NodeState.text]

theorem NodeState.text_injective : Function.Injective NodeState.text :=
  Function.LeftInverse.injective NodeState.ofText_text

section Rows

open StoredTable

variable (r : NodeRow) (job : JobRow)

theorem NodeRow.readColumn_values :
    readColumn .null nodeColumns r.values "node_id" = .text r.nodeId ∧
      readColumn .null nodeColumns r.values "status" = .text r.status.text ∧
        readColumn .null nodeColumns r.values "last_heartbeat" = .real r.lastHeartbeat := by
  simp [readColumn, nodeColumns, earlierNodeColumns, values, earlierValues, List.lookup_cons]

theorem JobRow.readColumn_values :
    readColumn .null jobColumns job.values "job_id" = .text job.jobId ∧
      readColumn .null jobColumns job.values "status" = .text job.status.text := by
  simp [readColumn, jobColumns, earlierJobColumns, values, earlierValues, List.lookup_cons]

theorem NodeRow.eval_staleCondition (cutoff : Time) :
    staleCondition.eval sqlite (readColumn .null nodeColumns r.values) (staleParams cutoff) =
      some (r.isStale cutoff) := by
  obtain ⟨-, hstatus, hheartbeat⟩ := r.readColumn_values
  simp [staleCondition, staleParams, Condition.eval, Condition.arity, hstatus, hheartbeat,
    isStale, NodeState.text_injective.eq_iff]

/-! ### New values in columns -/

theorem NodeRow.setColumns_status (status : NodeState) :
    setColumns nodeColumns [("status", .text status.text)] r.values =
      ({ r with status } : NodeRow).values := by
  simp [setColumns, nodeColumns, earlierNodeColumns, values, earlierValues, List.lookup_cons]

theorem NodeRow.setColumns_heartbeat (now : Time) :
    setColumns nodeColumns [("last_heartbeat", .real now)] r.values =
      ({ r with lastHeartbeat := now } : NodeRow).values := by
  simp [setColumns, nodeColumns, earlierNodeColumns, values, earlierValues, List.lookup_cons]

theorem JobRow.setColumns_status (status : JobState) :
    setColumns jobColumns [("status", .text status.text)] job.values =
      ({ job with status } : JobRow).values := by
  simp [setColumns, jobColumns, earlierJobColumns, values, earlierValues, List.lookup_cons]

theorem JobRow.setColumns_startedAt (now : Time) :
    setColumns jobColumns [("started_at", .real now)] job.values =
      ({ job with startedAt := some now } : JobRow).values := by
  simp [setColumns, jobColumns, earlierJobColumns, values, earlierValues, List.lookup_cons,
    SqlValue.orNull]

theorem JobRow.setColumns_completedAt (now : Time) :
    setColumns jobColumns [("completed_at", .real now)] job.values =
      ({ job with completedAt := some now } : JobRow).values := by
  simp [setColumns, jobColumns, earlierJobColumns, values, earlierValues, List.lookup_cons,
    SqlValue.orNull]

theorem JobRow.setColumns_assignedNodes (nodes : List String) :
    setColumns jobColumns [("assigned_nodes", .json nodes)] job.values =
      ({ job with assignedNodes := nodes } : JobRow).values := by
  simp [setColumns, jobColumns, earlierJobColumns, values, earlierValues, List.lookup_cons]

theorem JobRow.setColumns_exitCode (code : ℤ) :
    setColumns jobColumns [("exit_code", .integer code)] job.values =
      ({ job with exitCode := some code } : JobRow).values := by
  simp [setColumns, jobColumns, earlierJobColumns, values, earlierValues, List.lookup_cons,
    SqlValue.orNull]

theorem JobRow.setColumns_retries (retries : ℤ) :
    setColumns jobColumns [("retries", .integer retries)] job.values =
      ({ job with retries } : JobRow).values := by
  simp [setColumns, jobColumns, earlierJobColumns, values, earlierValues, List.lookup_cons]

end Rows

namespace Registry

variable (reg : Registry)

/-! ### Updates -/

theorem database_nodes (nodes : Table NodeRow.nodeId) :
    ({ reg with nodes } : Registry).database = Function.update reg.database "nodes"
      (some (.ofRows nodeColumns NodeRow.values (fun _ => rfl) nodes.rows)) := by
  funext name
  by_cases h : name = "nodes"
  · subst h
    simp [database, nodesTable]
  · simp only [database, h, if_false, Function.update_of_ne h]
    rfl

theorem database_jobs (jobs : Table JobRow.jobId) :
    ({ reg with jobs } : Registry).database = Function.update reg.database "jobs"
      (some (.ofRows jobColumns JobRow.values (fun _ => rfl) jobs.rows)) := by
  funext name
  by_cases h : name = "jobs"
  · subst h
    simp [database, jobsTable]
  · simp only [database, h, if_false, Function.update_of_ne h]
    rfl

theorem database_metrics (metrics : List MetricRow) :
    ({ reg with metrics } : Registry).database = Function.update reg.database "metrics"
      (some (.ofRows metricColumns MetricRow.values (fun _ => rfl) metrics.zipIdx)) := by
  funext name
  by_cases h : name = "metrics"
  · subst h
    simp [database, metricsTable]
  · simp only [database, h, if_false, Function.update_of_ne h]
    rfl

variable {reg} {columns : List String} {condition : Condition String} {params : List SqlValue}

theorem exec_update_nodes (p : NodeRow → Bool) (f : NodeRow → NodeRow)
    (hf : ∀ r, (f r).nodeId = r.nodeId)
    (hlen : params.length = columns.length + condition.arity)
    (hcolumns : ∀ c ∈ columns ++ condition.columns, c ∈ nodeColumns)
    (hp : ∀ r : NodeRow, condition.eval sqlite (StoredTable.readColumn .null nodeColumns r.values)
      (params.drop columns.length) = some true ↔ p r = true)
    (hset : ∀ r : NodeRow,
      StoredTable.setColumns nodeColumns (columns.zip params) r.values = (f r).values) :
    (Query.update "nodes" columns condition).exec sqlite keyColumn reg.database params =
      some (reg.updateNodes p f hf).database := by
  have hdb : reg.database "nodes" = some reg.nodesTable := rfl
  rw [Query.exec, hdb, Option.bind_some, if_pos ⟨hlen, hcolumns⟩, updateNodes,
    reg.database_nodes (reg.nodes.modify p f hf)]
  exact congrArg (fun t => some (Function.update reg.database "nodes" (some t)))
    (StoredTable.updateRows_ofRows hp hset)

theorem exec_update_jobs {jobId : String} {values : List SqlValue} (f : JobRow → JobRow)
    (hf : ∀ r, (f r).jobId = r.jobId) (hlen : values.length = columns.length)
    (hcolumns : ∀ c ∈ columns, c ∈ jobColumns)
    (hset : ∀ r : JobRow,
      StoredTable.setColumns jobColumns (columns.zip values) r.values = (f r).values) :
    (Query.update "jobs" columns (.eq "job_id")).exec sqlite keyColumn reg.database
        (values ++ [.text jobId]) =
      some (reg.updateJob jobId f hf).database := by
  have hdb : reg.database "jobs" = some reg.jobsTable := rfl
  have hmem : ∀ c ∈ columns ++ ["job_id"], c ∈ jobColumns := by
    intro c hc
    rcases List.mem_append.1 hc with hc | hc
    · exact hcolumns c hc
    · rw [List.mem_singleton.1 hc]
      decide
  have hzip : columns.zip (values ++ [.text jobId]) = columns.zip values := by
    calc columns.zip (values ++ [.text jobId])
        = (columns ++ []).zip (values ++ [SqlValue.text jobId]) := by rw [List.append_nil]
      _ = columns.zip values ++ [].zip [SqlValue.text jobId] := List.zip_append hlen.symm
      _ = columns.zip values := List.append_nil _
  rw [Query.exec, hdb, Option.bind_some, if_pos ⟨by simp [hlen, Condition.arity], hmem⟩, updateJob,
    reg.database_jobs (reg.jobs.modify _ f hf), hzip, ← hlen, List.drop_left]
  refine congrArg (fun t => some (Function.update reg.database "jobs" (some t)))
    (StoredTable.updateRows_ofRows (fun r => ?_) hset)
  simp [Condition.eval, r.readColumn_values.1]

end Registry

/-! ### What the statements do -/

/-- The columns that `update_job_status` sets, with their values. -/
def statusAssignments (status : JobState) (assignedNodes : Option (List String))
    (exitCode : Option ℤ) (now : Time) : List (String × SqlValue) :=
  [("status", .text status.text)] ++
    (if status = .running then [("started_at", .real now)]
      else if status = .completed ∨ status = .failed then [("completed_at", .real now)]
      else []) ++
    (assignedNodes.toList.map fun nodes => ("assigned_nodes", .json nodes)) ++
    exitCode.toList.map fun code => ("exit_code", .integer code)

/-- The statement that `update_job_status` puts together, and its parameters in the same order. -/
theorem updateJobStatusQuery_eq (jobId : String) (status : JobState)
    (assignedNodes : Option (List String)) (exitCode : Option ℤ) (now : Time) :
    updateJobStatusQuery jobId status assignedNodes exitCode now =
      (.update "jobs" ((statusAssignments status assignedNodes exitCode now).map Prod.fst)
        (.eq "job_id"),
        (statusAssignments status assignedNodes exitCode now).map Prod.snd ++ [.text jobId]) := by
  cases status <;> cases assignedNodes <;> cases exitCode <;> rfl

theorem mem_columns_statusAssignments (status : JobState) (assignedNodes : Option (List String))
    (exitCode : Option ℤ) (now : Time) :
    ∀ c ∈ (statusAssignments status assignedNodes exitCode now).map Prod.fst, c ∈ jobColumns := by
  have hall : ∀ c ∈ ["status", "started_at", "completed_at", "assigned_nodes", "exit_code"],
      c ∈ jobColumns := by decide
  intro c hc
  refine hall c ?_
  cases status <;> cases assignedNodes <;> cases exitCode <;>
    simp [statusAssignments] at hc ⊢ <;> tauto

/-- The columns are set one after the other, the last one first. -/
theorem JobRow.setColumns_withStatus (status : JobState) (assignedNodes : Option (List String))
    (exitCode : Option ℤ) (now : Time) (r : JobRow) :
    StoredTable.setColumns jobColumns (statusAssignments status assignedNodes exitCode now)
      r.values = (r.withStatus status assignedNodes exitCode now).values := by
  have hcode : StoredTable.setColumns jobColumns
      (exitCode.toList.map fun code => ("exit_code", SqlValue.integer code)) r.values =
        ({ r with exitCode := exitCode.or r.exitCode } : JobRow).values := by
    cases exitCode with
    | none => exact StoredTable.setColumns_nil _ rfl
    | some code => exact r.setColumns_exitCode code
  have hnodes : ∀ r : JobRow, StoredTable.setColumns jobColumns
      (assignedNodes.toList.map fun nodes => ("assigned_nodes", SqlValue.json nodes)) r.values =
        ({ r with assignedNodes := assignedNodes.getD r.assignedNodes } : JobRow).values := by
    intro r
    cases assignedNodes with
    | none => exact StoredTable.setColumns_nil _ rfl
    | some nodes => exact r.setColumns_assignedNodes nodes
  have htime : ∀ r : JobRow, StoredTable.setColumns jobColumns
      (if status = .running then [("started_at", SqlValue.real now)]
        else if status = .completed ∨ status = .failed then [("completed_at", .real now)]
        else []) r.values =
        ({ r with
          startedAt := if status = .running then some now else r.startedAt
          completedAt := if status = .completed ∨ status = .failed then some now
            else r.completedAt } : JobRow).values := by
    intro r
    cases status with
    | pending => exact StoredTable.setColumns_nil _ rfl
    | running => exact r.setColumns_startedAt now
    | completed | failed => exact r.setColumns_completedAt now
  rw [statusAssignments, StoredTable.setColumns_append, hcode, StoredTable.setColumns_append,
    hnodes, StoredTable.setColumns_append, htime, JobRow.setColumns_status]
  rfl

theorem newRow_insertJob (reg : Registry) (job : JobDict) (now : Time) :
    reg.jobsTable.newRow sqlite (.primary "job_id")
      (["job_id", "job_name", "status", "script_path", "config_path", "required_nodes",
        "assigned_nodes", "priority", "created_at", "experiment_id", "nproc_per_node", "args",
        "retries", "max_retries", "checkpoint_interval_minutes", "backend"].zip
          (insertJobQuery job now).2) = (job.toRow now).values := by
  simp [StoredTable.newRow, Registry.jobsTable, StoredTable.ofRows, jobColumns, earlierJobColumns,
    insertJobQuery, JobRow.values, JobRow.earlierValues, JobDict.toRow, List.lookup_cons,
    SqlValue.orNull]

/-- A method of `NodeRegistry` that writes, with its arguments and the time. -/
inductive RegistryCall where
  /-- The file is opened: `_init_db`. -/
  | init
  | registerNode (nodeId hostname ipAddress : String) (cpuCount : ℤ) (gpuModel ramTotal : String)
      (nodeSecret : Option String) (now : Time)
  | updateHeartbeat (nodeId : String) (status : NodeState) (metrics : Metrics) (latencyMs : ℚ)
      (now : Time)
  | markOfflineNodes (now : Time) (timeoutSeconds : ℚ)
  | updateNodeState (nodeId : String) (newState : NodeState)
  | insertJob (job : JobDict) (now : Time)
  | updateJobStatus (jobId : String) (status : JobState) (assignedNodes : Option (List String))
      (exitCode : Option ℤ) (now : Time)
  | updateJobRetries (jobId : String) (newStatus : JobState) (retries : ℤ)

namespace RegistryCall

/-- What a method does to the registry; `none` if it raises an error. -/
def perform (reg : Registry) : RegistryCall → Option Registry
  | .init => some reg
  | .registerNode nodeId hostname ipAddress cpuCount gpuModel ramTotal nodeSecret now =>
    some (reg.registerNode nodeId hostname ipAddress cpuCount gpuModel ramTotal nodeSecret now)
  | .updateHeartbeat nodeId status metrics latencyMs now =>
    some (reg.updateHeartbeat nodeId status metrics latencyMs now)
  | .markOfflineNodes now timeoutSeconds => some (reg.markOfflineNodes now timeoutSeconds)
  | .updateNodeState nodeId newState => some (reg.updateNodeState nodeId newState)
  | .insertJob job now => reg.insertJob job now
  | .updateJobStatus jobId status assignedNodes exitCode now =>
    some (reg.updateJobStatus jobId status assignedNodes exitCode now)
  | .updateJobRetries jobId newStatus retries =>
    some (reg.updateJobRetries jobId newStatus retries)

/-- The statements of a method, in one transaction. -/
def queries : RegistryCall → List Execution
  | .init => []
  | .registerNode nodeId hostname ipAddress cpuCount gpuModel ramTotal nodeSecret now =>
    [registerNodeQuery nodeId hostname ipAddress cpuCount gpuModel ramTotal nodeSecret now]
  | .updateHeartbeat nodeId status metrics latencyMs now =>
    [updateHeartbeatQuery nodeId status now, insertMetricsQuery nodeId metrics latencyMs now]
  | .markOfflineNodes now timeoutSeconds => [markOfflineNodesQuery now timeoutSeconds]
  | .updateNodeState nodeId newState => [updateNodeStateQuery nodeId newState]
  | .insertJob job now => [insertJobQuery job now]
  | .updateJobStatus jobId status assignedNodes exitCode now =>
    [updateJobStatusQuery jobId status assignedNodes exitCode now]
  | .updateJobRetries jobId newStatus retries => [updateJobRetriesQuery jobId newStatus retries]

/-- What a method does to the file; `none` if a statement fails. -/
def exec (db : Database) : RegistryCall → Option Database
  | .init => some (initDb db)
  | call => transaction sqlite keyColumn db call.queries

variable {reg : Registry}

theorem exec_updateNodeState (nodeId : String) (newState : NodeState) :
    (updateNodeStateQuery nodeId newState).1.exec sqlite keyColumn reg.database
        (updateNodeStateQuery nodeId newState).2 =
      some (reg.updateNodeState nodeId newState).database := by
  refine Registry.exec_update_nodes (fun r => r.nodeId = nodeId)
    (fun r => { r with status := newState }) (fun _ => rfl) rfl (by decide) (fun r => ?_)
    fun r => r.setColumns_status newState
  simp [updateNodeStateQuery, Condition.eval, r.readColumn_values.1]

theorem exec_updateHeartbeat (nodeId : String) (status : NodeState) (now : Time) :
    (updateHeartbeatQuery nodeId status now).1.exec sqlite keyColumn reg.database
        (updateHeartbeatQuery nodeId status now).2 =
      some (reg.updateNodes (fun r => r.nodeId = nodeId)
        (fun r => { r with lastHeartbeat := now, status }) fun _ => rfl).database := by
  refine Registry.exec_update_nodes (fun r => r.nodeId = nodeId)
    (fun r => { r with lastHeartbeat := now, status }) (fun _ => rfl) rfl (by decide)
    (fun r => ?_) fun r => ?_
  · simp [updateHeartbeatQuery, Condition.eval, r.readColumn_values.1]
  · calc StoredTable.setColumns nodeColumns
          ([("last_heartbeat", .real now)] ++ [("status", .text status.text)]) r.values
        = StoredTable.setColumns nodeColumns [("last_heartbeat", .real now)]
            (StoredTable.setColumns nodeColumns [("status", .text status.text)] r.values) :=
          StoredTable.setColumns_append _ _ _ _
      _ = _ := by rw [NodeRow.setColumns_status, NodeRow.setColumns_heartbeat]

theorem exec_markOfflineNodes (now : Time) (timeoutSeconds : ℚ) :
    (markOfflineNodesQuery now timeoutSeconds).1.exec sqlite keyColumn reg.database
        (markOfflineNodesQuery now timeoutSeconds).2 =
      some (reg.markOfflineNodes now timeoutSeconds).database := by
  refine Registry.exec_update_nodes (NodeRow.isStale (now - timeoutSeconds))
    (fun r => { r with status := .disconnected }) (fun _ => rfl) rfl (by decide) (fun r => ?_)
    fun r => r.setColumns_status .disconnected
  exact (congrArg (· = some true) (r.eval_staleCondition (now - timeoutSeconds))).to_iff.trans
    Option.some_inj

theorem exec_updateJobStatus (jobId : String) (status : JobState)
    (assignedNodes : Option (List String)) (exitCode : Option ℤ) (now : Time) :
    (updateJobStatusQuery jobId status assignedNodes exitCode now).1.exec sqlite keyColumn
        reg.database (updateJobStatusQuery jobId status assignedNodes exitCode now).2 =
      some (reg.updateJobStatus jobId status assignedNodes exitCode now).database := by
  simp only [updateJobStatusQuery_eq]
  refine Registry.exec_update_jobs (JobRow.withStatus status assignedNodes exitCode now)
    (JobRow.jobId_withStatus status assignedNodes exitCode now)
    (by simp) (mem_columns_statusAssignments status assignedNodes exitCode now) fun r => ?_
  have hzip := List.zip_of_prod (l := (statusAssignments status assignedNodes exitCode now).map
    Prod.fst) rfl rfl
  rw [← hzip]
  exact r.setColumns_withStatus status assignedNodes exitCode now

theorem exec_updateJobRetries (jobId : String) (newStatus : JobState) (retries : ℤ) :
    (updateJobRetriesQuery jobId newStatus retries).1.exec sqlite keyColumn reg.database
        (updateJobRetriesQuery jobId newStatus retries).2 =
      some (reg.updateJobRetries jobId newStatus retries).database := by
  change (Query.update "jobs" ["status", "retries"] (.eq "job_id")).exec sqlite keyColumn
    reg.database ([.text newStatus.text, .integer retries] ++ [.text jobId]) = _
  refine Registry.exec_update_jobs (fun r => { r with status := newStatus, retries })
    (fun _ => rfl) rfl (by decide) fun r => ?_
  calc StoredTable.setColumns jobColumns
        ([("status", .text newStatus.text)] ++ [("retries", .integer retries)]) r.values
      = StoredTable.setColumns jobColumns [("status", .text newStatus.text)]
          (StoredTable.setColumns jobColumns [("retries", .integer retries)] r.values) :=
        StoredTable.setColumns_append _ _ _ _
    _ = _ := by rw [JobRow.setColumns_retries, JobRow.setColumns_status]

theorem newRow_registerNode (reg : Registry) (row : NodeRow) (hidle : row.status = .idle) :
    reg.nodesTable.newRow sqlite (.primary "node_id")
      (["node_id", "hostname", "ip_address", "cpu_count", "gpu_model", "ram_total", "status",
        "last_heartbeat", "node_secret"].zip (registerNodeQuery row.nodeId row.hostname
          row.ipAddress row.cpuCount row.gpuModel row.ramTotal row.nodeSecret
          row.lastHeartbeat).2) = row.values := by
  simp [StoredTable.newRow, Registry.nodesTable, StoredTable.ofRows, nodeColumns,
    earlierNodeColumns, registerNodeQuery, NodeRow.values, NodeRow.earlierValues,
    List.lookup_cons, hidle]

/-- The row of a node that registers again keeps its id only. -/
theorem setColumns_registerNode (row r : NodeRow) :
    StoredTable.setColumns nodeColumns
      (["hostname", "ip_address", "cpu_count", "gpu_model", "ram_total", "status",
        "last_heartbeat", "node_secret"].map fun c =>
          (c, StoredTable.readColumn sqlite.null nodeColumns row.values c)) r.values =
        ({ row with nodeId := r.nodeId } : NodeRow).values := by
  simp [StoredTable.setColumns, StoredTable.readColumn, nodeColumns, earlierNodeColumns,
    NodeRow.values, NodeRow.earlierValues, List.lookup_cons]

theorem exec_registerNode (nodeId hostname ipAddress : String) (cpuCount : ℤ)
    (gpuModel ramTotal : String) (nodeSecret : Option String) (now : Time) :
    (registerNodeQuery nodeId hostname ipAddress cpuCount gpuModel ramTotal nodeSecret now).1.exec
        sqlite keyColumn reg.database
        (registerNodeQuery nodeId hostname ipAddress cpuCount gpuModel ramTotal nodeSecret now).2 =
      some (reg.registerNode nodeId hostname ipAddress cpuCount gpuModel ramTotal nodeSecret
        now).database := by
  let row : NodeRow := ⟨nodeId, hostname, ipAddress, cpuCount, gpuModel, ramTotal, .idle, now,
    nodeSecret⟩
  have hdb : reg.database "nodes" = some reg.nodesTable := rfl
  have hupsert : reg.nodesTable.upsertRow sqlite "node_id" _ _ = _ :=
    StoredTable.upsertRow_ofRows (q := fun r => r.nodeId = nodeId)
      (newRow_registerNode reg row rfl)
      (fun r => by simp [row, row.readColumn_values.1, r.readColumn_values.1])
      (setColumns_registerNode row)
  have hcolumns : ∀ c ∈ nodeColumns ++ "node_id" :: nodeColumns.tail, c ∈ nodeColumns := by decide
  rw [registerNodeQuery, Query.exec, hdb, Option.bind_some, if_pos ⟨rfl, hcolumns⟩]
  refine (congrArg (fun t => some (Function.update reg.database "nodes" (some t))) hupsert).trans ?_
  have hany := Table.insert?_eq_none_iff (t := reg.nodes) (r := row)
  unfold Registry.registerNode
  dsimp only
  cases hins : reg.nodes.insert? row with
  | some nodes =>
    have hnew : ¬ reg.nodes.rows.any (fun r => r.nodeId = nodeId) = true := fun h => by
      cases hins.symm.trans (hany.2 h)
    rw [if_neg hnew, reg.database_nodes nodes, (Table.rows_insert? hins).1]
  | none =>
    rw [if_pos (hany.1 hins), Registry.updateNodes, reg.database_nodes (reg.nodes.modify _ _ _)]
    rfl

theorem exec_insertMetrics (nodeId : String) (metrics : Metrics) (latencyMs : ℚ) (now : Time) :
    (insertMetricsQuery nodeId metrics latencyMs now).1.exec sqlite keyColumn reg.database
        (insertMetricsQuery nodeId metrics latencyMs now).2 =
      some ({ reg with
        metrics := reg.metrics ++
          [⟨nodeId, now, metrics.cpuPercent, metrics.ramPercent, metrics.gpuUtilization,
            metrics.gpuMemoryMb, latencyMs⟩] } : Registry).database := by
  let row : MetricRow := ⟨nodeId, now, metrics.cpuPercent, metrics.ramPercent,
    metrics.gpuUtilization, metrics.gpuMemoryMb, latencyMs⟩
  have hdb : reg.database "metrics" = some reg.metricsTable := rfl
  have hcolumns : ∀ c ∈ metricColumns.tail, c ∈ metricColumns := fun c => List.mem_of_mem_tail
  -- the serial number of the row is its place
  have hrow : reg.metricsTable.newRow sqlite (.serial "id")
      (metricColumns.tail.zip (insertMetricsQuery nodeId metrics latencyMs now).2) =
        MetricRow.values (row, reg.metrics.length) := by
    simp [StoredTable.newRow, Registry.metricsTable, StoredTable.ofRows, metricColumns,
      insertMetricsQuery, MetricRow.values, List.lookup_cons, sqlite, row]
  have hinsert : reg.metricsTable.insertRow sqlite (.serial "id") _ = _ :=
    StoredTable.insertRow_serial_ofRows hrow
  have hrows : reg.metrics.zipIdx ++ [(row, reg.metrics.length)] =
      (reg.metrics ++ [row]).zipIdx := by simp [List.zipIdx_append]
  rw [insertMetricsQuery, Query.exec, hdb, Option.bind_some, if_pos ⟨rfl, hcolumns⟩,
    reg.database_metrics (reg.metrics ++ [row]), ← hrows]
  exact congrArg (Option.map fun t => Function.update reg.database "metrics" (some t)) hinsert

theorem exec_insertJob (job : JobDict) (now : Time) :
    (insertJobQuery job now).1.exec sqlite keyColumn reg.database (insertJobQuery job now).2 =
      (reg.insertJob job now).map Registry.database := by
  have hdb : reg.database "jobs" = some reg.jobsTable := rfl
  have hcolumns : ∀ c ∈ ["job_id", "job_name", "status", "script_path", "config_path",
      "required_nodes", "assigned_nodes", "priority", "created_at", "experiment_id",
      "nproc_per_node", "args", "retries", "max_retries", "checkpoint_interval_minutes",
      "backend"], c ∈ jobColumns := by decide
  have hinsert := StoredTable.insertRow_ofRows (q := fun r => r.jobId = (job.toRow now).jobId)
    (newRow_insertJob reg job now) fun r => by
      simp [(job.toRow now).readColumn_values.1, r.readColumn_values.1]
  have hany := Table.insert?_eq_none_iff (t := reg.jobs) (r := job.toRow now)
  rw [insertJobQuery, Query.exec, hdb, Option.bind_some, if_pos ⟨rfl, hcolumns⟩]
  refine (congrArg (Option.map fun t => Function.update reg.database "jobs" (some t))
    hinsert).trans ?_
  unfold Registry.insertJob
  cases hins : reg.jobs.insert? (job.toRow now) with
  | none => rw [if_pos (hany.1 hins)]; rfl
  | some jobs =>
    have hnew : ¬ reg.jobs.rows.any (fun r => r.jobId = (job.toRow now).jobId) = true := fun h => by
      cases hins.symm.trans (hany.2 h)
    rw [if_neg hnew, Option.map_some, Option.map_some, Option.map_some, reg.database_jobs jobs,
      (Table.rows_insert? hins).1]

/-- **The statements of a method** do to the file what the method does to the registry, and fail if
it does. -/
theorem exec_database (call : RegistryCall) :
    call.exec reg.database = (call.perform reg).map Registry.database := by
  cases call with
  | init => exact congrArg some (initDb_database reg)
  | registerNode => simp [exec, transaction, queries, perform, exec_registerNode]
  | updateHeartbeat nodeId status metrics latencyMs now =>
    simp only [exec, transaction, queries, List.foldlM_cons, List.foldlM_nil,
      exec_updateHeartbeat]
    exact congrArg (Option.bind · some) (exec_insertMetrics nodeId metrics latencyMs now)
  | markOfflineNodes => simp [exec, transaction, queries, perform, exec_markOfflineNodes]
  | updateNodeState => simp [exec, transaction, queries, perform, exec_updateNodeState]
  | insertJob => simp [exec, transaction, queries, perform, exec_insertJob]
  | updateJobStatus => simp [exec, transaction, queries, perform, exec_updateJobStatus]
  | updateJobRetries => simp [exec, transaction, queries, perform, exec_updateJobRetries]

end RegistryCall

/-! ### Reading -/

/-- `dict(row)`. -/
def NodeRow.dict (r : NodeRow) : List (String × SqlValue) := nodeColumns.zip r.values

/-- `dict(row)`. -/
def JobRow.dict (r : JobRow) : List (String × SqlValue) := jobColumns.zip r.values

/-- `SELECT * FROM jobs`, with `WHERE status = ?` if a status is given: `get_jobs`. -/
def selectJobs (db : Database) : Option JobState → Option (List (List (String × SqlValue)))
  | some status => Query.select sqlite db "jobs" (.eq "status") [.text status.text]
  | none => Query.select sqlite db "jobs" .always []

/-- `SELECT * FROM jobs WHERE job_id = ?` and `fetchone`: `get_job`. -/
def fetchJob (db : Database) (jobId : String) : Option (List (String × SqlValue)) :=
  (Query.select sqlite db "jobs" (.eq "job_id") [.text jobId]).bind List.head?

/-- `SELECT * FROM nodes`, with `WHERE status = ?` if a status is given: `get_all_nodes` and
`get_available_nodes`. -/
def selectNodes (db : Database) : Option NodeState → Option (List (List (String × SqlValue)))
  | some status => Query.select sqlite db "nodes" (.eq "status") [.text status.text]
  | none => Query.select sqlite db "nodes" .always []

/-- `SELECT node_secret FROM nodes WHERE node_id = ?` and `fetchone`: `get_node_secret`. -/
def fetchNodeSecret (db : Database) (nodeId : String) : Option String :=
  (((Query.select sqlite db "nodes" (.eq "node_id") [.text nodeId]).bind List.head?).bind
    fun row => row.lookup "node_secret").bind SqlValue.asText

/-- `SELECT node_id FROM nodes WHERE last_heartbeat < ? AND status NOT IN (?, ?)`: the query of
`monitor_nodes`. -/
def selectOffline (db : Database) (cutoff : Time) : Option (List (Option String)) :=
  (Query.select sqlite db "nodes" staleCondition (staleParams cutoff)).map fun rows =>
    rows.map fun row => (row.lookup "node_id").bind SqlValue.asText

namespace Registry

variable (reg : Registry)

theorem select_nodes (condition : Condition String) (params : List SqlValue) (p : NodeRow → Bool)
    (hlen : params.length = condition.arity) (hcolumns : ∀ c ∈ condition.columns, c ∈ nodeColumns)
    (hp : ∀ r : NodeRow, condition.eval sqlite (StoredTable.readColumn .null nodeColumns r.values)
      params = some true ↔ p r = true) :
    Query.select sqlite reg.database "nodes" condition params =
      some ((reg.nodes.rows.filter p).map NodeRow.dict) := by
  have hdb : reg.database "nodes" = some reg.nodesTable := rfl
  rw [Query.select, hdb, Option.bind_some, if_pos ⟨hlen, hcolumns⟩]
  exact congrArg some (StoredTable.selectRows_ofRows hp)

theorem select_jobs (condition : Condition String) (params : List SqlValue) (p : JobRow → Bool)
    (hlen : params.length = condition.arity) (hcolumns : ∀ c ∈ condition.columns, c ∈ jobColumns)
    (hp : ∀ r : JobRow, condition.eval sqlite (StoredTable.readColumn .null jobColumns r.values)
      params = some true ↔ p r = true) :
    Query.select sqlite reg.database "jobs" condition params =
      some ((reg.jobs.rows.filter p).map JobRow.dict) := by
  have hdb : reg.database "jobs" = some reg.jobsTable := rfl
  rw [Query.select, hdb, Option.bind_some, if_pos ⟨hlen, hcolumns⟩]
  exact congrArg some (StoredTable.selectRows_ofRows hp)

theorem selectJobs_database (status : Option JobState) :
    selectJobs reg.database status =
      some (((status.map reg.getJobs).getD reg.jobs.rows).map JobRow.dict) := by
  cases status with
  | none =>
    have hall := reg.select_jobs .always [] (fun _ => true) rfl
      (List.forall_mem_nil _) fun _ => by simp [Condition.eval]
    simpa [selectJobs] using hall
  | some status =>
    refine reg.select_jobs _ _ _ rfl (by decide) fun r => ?_
    simp [Condition.eval, r.readColumn_values.2, JobState.text_injective.eq_iff]

theorem fetchJob_database (jobId : String) :
    fetchJob reg.database jobId = (reg.getJob jobId).map JobRow.dict := by
  have hselect := reg.select_jobs (.eq "job_id") [.text jobId] (fun r => r.jobId = jobId) rfl 
    (by decide) fun r => by simp [Condition.eval, r.readColumn_values.1]
  rw [fetchJob, hselect, Option.bind_some, List.head?_map, List.head?_filter]
  rfl

theorem selectNodes_database (status : Option NodeState) :
    selectNodes reg.database status =
      some ((reg.nodes.rows.filter fun r => status.all (r.status = ·)).map NodeRow.dict) := by
  cases status with
  | none =>
    exact reg.select_nodes _ _ _ rfl (List.forall_mem_nil _) fun _ => by simp [Condition.eval]
  | some status =>
    refine reg.select_nodes _ _ _ rfl (by decide) fun r => ?_
    simp [Condition.eval, r.readColumn_values.2.1, NodeState.text_injective.eq_iff]

theorem fetchNodeSecret_database (nodeId : String) :
    fetchNodeSecret reg.database nodeId = reg.getNodeSecret nodeId := by
  have hselect := reg.select_nodes (.eq "node_id") [.text nodeId] (fun r => r.nodeId = nodeId) rfl
    (by decide) fun r => by simp [Condition.eval, r.readColumn_values.1]
  have hsecret : ∀ r : NodeRow,
      (r.dict.lookup "node_secret").bind SqlValue.asText = r.nodeSecret := by
    intro r
    cases h : r.nodeSecret <;>
      simp [NodeRow.dict, nodeColumns, earlierNodeColumns, NodeRow.values, NodeRow.earlierValues,
        List.lookup_cons, SqlValue.orNull, SqlValue.asText, h]
  rw [fetchNodeSecret, hselect, Option.bind_some, List.head?_map, List.head?_filter, getNodeSecret,
    Table.find?, Option.bind_assoc, Option.bind_map]
  exact congrArg _ (funext hsecret)

theorem selectOffline_database (cutoff : Time) :
    selectOffline reg.database cutoff =
      some (((reg.nodes.rows.filter (NodeRow.isStale cutoff)).map NodeRow.nodeId).map some) := by
  have hselect := reg.select_nodes staleCondition (staleParams cutoff) (NodeRow.isStale cutoff) rfl
    (by decide) fun r => by rw [r.eval_staleCondition]; simp
  have hid : ∀ r : NodeRow, (r.dict.lookup "node_id").bind SqlValue.asText = some r.nodeId := by
    intro r
    simp [NodeRow.dict, nodeColumns, earlierNodeColumns, NodeRow.values, NodeRow.earlierValues,
      SqlValue.asText]
  rw [selectOffline, hselect, Option.map_some, List.map_map, List.map_map]
  exact congrArg some (List.map_congr_left fun r _ => hid r)

end Registry

/-- The keys of a job that has been read; `_submit_ts` is none of them. -/
theorem JobRow.map_fst_dict (r : JobRow) : r.dict.map Prod.fst = jobColumns :=
  List.map_fst_zip (Nat.le_of_eq rfl)

/-! ### Runs -/

namespace RegistryCall

/-- Methods one after the other, on the file.  One that raises an error leaves the file as it is. -/
def execAll (db : Database) (calls : List RegistryCall) : Database :=
  calls.foldl (fun db call => (call.exec db).getD db) db

/-- Methods one after the other, on the registry. -/
def performAll (reg : Registry) (calls : List RegistryCall) : Registry :=
  calls.foldl (fun reg call => (call.perform reg).getD reg) reg

theorem execAll_database (reg : Registry) (calls : List RegistryCall) :
    execAll reg.database calls = (performAll reg calls).database := by
  induction calls generalizing reg with
  | nil => rfl
  | cons call calls ih =>
    have hcall : (call.exec reg.database).getD reg.database =
        ((call.perform reg).getD reg).database := by
      rw [exec_database]
      cases call.perform reg <;> rfl
    rw [execAll, List.foldl_cons, hcall]
    exact ih _

/-- **The statements do what the methods do**, in any order and from a new file on: the file is
that of the registry, the same methods fail, and all queries read the rows of the registry.  No job
that is read has the key `_submit_ts`, which the manager looks for to observe a latency. -/
theorem runs_agree (calls : List RegistryCall) :
    let db := execAll (initDb fun _ => none) calls
    let reg := performAll .empty calls
    db = reg.database ∧
      (∀ call : RegistryCall, call.exec db = (call.perform reg).map Registry.database) ∧
      (∀ status, selectJobs db status =
        some (((status.map reg.getJobs).getD reg.jobs.rows).map JobRow.dict)) ∧
      (∀ j, fetchJob db j = (reg.getJob j).map JobRow.dict) ∧
      (∀ j row, fetchJob db j = some row → "_submit_ts" ∉ row.map Prod.fst) ∧
      (∀ status, selectNodes db status =
        some ((reg.nodes.rows.filter fun r => status.all (r.status = ·)).map NodeRow.dict)) ∧
      (∀ n, fetchNodeSecret db n = reg.getNodeSecret n) ∧
      ∀ cutoff, selectOffline db cutoff =
        some (((reg.nodes.rows.filter (NodeRow.isStale cutoff)).map NodeRow.nodeId).map some) := by
  intro db reg
  have hdb : db = reg.database := by
    simp only [db, initDb_new]
    exact execAll_database .empty calls
  have hsubmit : "_submit_ts" ∉ jobColumns := by decide
  rw [hdb]
  refine ⟨rfl, fun call => call.exec_database, reg.selectJobs_database, reg.fetchJob_database,
    fun j row hrow => ?_, reg.selectNodes_database, reg.fetchNodeSecret_database,
    reg.selectOffline_database⟩
  rw [reg.fetchJob_database] at hrow
  obtain ⟨r, -, rfl⟩ := Option.map_eq_some_iff.1 hrow
  rwa [r.map_fst_dict]

end RegistryCall

end Dmlf
