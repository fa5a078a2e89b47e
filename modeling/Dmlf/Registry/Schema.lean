import Dmlf.Registry.Basic
import Dmlf.Table.Stored

/-!
# The database file

`_init_db` (`dmlf/manager/node_registry.py`) creates the three tables unless they are there, and
adds the columns that files of earlier versions do not have: `node_secret` of a node, and
`checkpoint_interval_minutes` and `backend` of a job.  In the rows that are there, these columns
are `NULL`.

* `Registry.database` : the file of a registry.
* `initDb_database` : a file of this version is left alone.
* `initDb_earlierDatabase` : a file of an earlier version becomes that of the registry with the
  same rows, and without values in the new columns.
-/

namespace Dmlf

/-- A value in a column. -/
inductive SqlValue where
  | null
  | integer (n : ℤ)
  | real (x : ℚ)
  | text (text : String)
  /-- The text of a JSON list of texts. -/
  | json (texts : List String)
  deriving DecidableEq

/-- A value, or `NULL` if there is none. -/
def SqlValue.orNull {α : Type*} (f : α → SqlValue) (a : Option α) : SqlValue := (a.map f).getD .null

/-- A database file. -/
abbrev Database := StoredTables String String SqlValue

/-! ### `_init_db` -/

/-- The columns of the `nodes` table before `node_secret`. -/
def earlierNodeColumns : List String :=
  ["node_id", "hostname", "ip_address", "cpu_count", "gpu_model", "ram_total", "status",
    "last_heartbeat"]

/-- The columns of the `nodes` table. -/
def nodeColumns : List String := earlierNodeColumns ++ ["node_secret"]

/-- The columns of the `metrics` table, which no version has changed. -/
def metricColumns : List String :=
  ["id", "node_id", "timestamp", "cpu_percent", "ram_percent", "gpu_utilization", "gpu_memory_mb",
    "heartbeat_latency_ms"]

/-- The columns of the `jobs` table before `checkpoint_interval_minutes` and `backend`. -/
def earlierJobColumns : List String :=
  ["job_id", "job_name", "status", "script_path", "config_path", "required_nodes",
    "assigned_nodes", "priority", "created_at", "started_at", "completed_at", "exit_code",
    "experiment_id", "nproc_per_node", "args", "retries", "max_retries"]

/-- The columns of the `jobs` table. -/
def jobColumns : List String := earlierJobColumns ++ ["checkpoint_interval_minutes", "backend"]

/-- The statements of `_init_db`.  An `ALTER TABLE` that fails is passed over. -/
def initStatements : List (Statement String String) :=
  [.createTable "nodes" nodeColumns, .addColumn "nodes" "node_secret",
    .createTable "metrics" metricColumns, .createTable "jobs" jobColumns,
    .addColumn "jobs" "checkpoint_interval_minutes", .addColumn "jobs" "backend"]

/-- `_init_db`. -/
def initDb (db : Database) : Database := migrate .null db initStatements

/-! ### The file of a registry -/

/-- The text of a constant of `NodeState`, or another one that a heartbeat has stored. -/
def NodeState.text : NodeState → String
  | .registering => "REGISTERING"
  | .idle => "IDLE"
  | .reserved => "RESERVED"
  | .training => "TRAINING"
  | .busy => "BUSY"
  | .maintenance => "MAINTENANCE"
  | .disconnected => "DISCONNECTED"
  | .failed => "FAILED"
  | .other text _ => text

/-- The text of a constant of `JobState`. -/
def JobState.text : JobState → String
  | .pending => "PENDING"
  | .running => "RUNNING"
  | .completed => "COMPLETED"
  | .failed => "FAILED"

/-- The values of a row in the columns before `node_secret`. -/
def NodeRow.earlierValues (r : NodeRow) : List SqlValue :=
  [.text r.nodeId, .text r.hostname, .text r.ipAddress, .integer r.cpuCount, .text r.gpuModel,
    .text r.ramTotal, .text r.status.text, .real r.lastHeartbeat]

/-- The values of a row in all columns. -/
def NodeRow.values (r : NodeRow) : List SqlValue :=
  r.earlierValues ++ [.orNull .text r.nodeSecret]

/-- The values of a metrics row, with its serial number; no row is ever deleted. -/
def MetricRow.values (r : MetricRow × ℕ) : List SqlValue :=
  [.integer (r.2 + 1), .text r.1.nodeId, .real r.1.timestamp, .real r.1.cpuPercent,
    .real r.1.ramPercent, .real r.1.gpuUtilization, .real r.1.gpuMemoryMb,
    .real r.1.heartbeatLatencyMs]

/-- The values of a row in the columns before `checkpoint_interval_minutes` and `backend`. -/
def JobRow.earlierValues (r : JobRow) : List SqlValue :=
  [.text r.jobId, .text r.jobName, .text r.status.text, .text r.scriptPath, .text r.configPath,
    .integer r.requiredNodes, .json r.assignedNodes, .integer r.priority, .real r.createdAt,
    .orNull .real r.startedAt, .orNull .real r.completedAt, .orNull .integer r.exitCode,
    .text r.experimentId, .integer r.nprocPerNode, .text r.args, .integer r.retries,
    .integer r.maxRetries]

/-- The values of a row in all columns. -/
def JobRow.values (r : JobRow) : List SqlValue :=
  r.earlierValues ++ [.orNull .integer r.checkpointIntervalMinutes, .orNull .text r.backend]

namespace Registry

variable (reg : Registry)

/-- The `nodes` table. -/
def nodesTable : StoredTable String SqlValue :=
  .ofRows nodeColumns NodeRow.values (fun _ => rfl) reg.nodes.rows

/-- The `metrics` table. -/
def metricsTable : StoredTable String SqlValue :=
  .ofRows metricColumns MetricRow.values (fun _ => rfl) reg.metrics.zipIdx

/-- The `jobs` table. -/
def jobsTable : StoredTable String SqlValue :=
  .ofRows jobColumns JobRow.values (fun _ => rfl) reg.jobs.rows

/-- The file in which a registry is stored. -/
def database : Database := fun name =>
  if name = "nodes" then some reg.nodesTable
  else if name = "metrics" then some reg.metricsTable
  else if name = "jobs" then some reg.jobsTable
  else none

/-! ### Files of earlier versions -/

/-- The `nodes` table before `node_secret`. -/
def earlierNodesTable : StoredTable String SqlValue :=
  .ofRows earlierNodeColumns NodeRow.earlierValues (fun _ => rfl) reg.nodes.rows

/-- The `jobs` table before `checkpoint_interval_minutes` and `backend`. -/
def earlierJobsTable : StoredTable String SqlValue :=
  .ofRows earlierJobColumns JobRow.earlierValues (fun _ => rfl) reg.jobs.rows

/-- The file that an earlier version has left, with the rows of `reg`.  Its jobs have no
`checkpoint_interval_minutes` and no `backend`, and its nodes have secrets or not. -/
def earlierDatabase (hasSecrets : Bool) : Database := fun name =>
  if name = "nodes" then some (if hasSecrets then reg.nodesTable else reg.earlierNodesTable)
  else if name = "metrics" then some reg.metricsTable
  else if name = "jobs" then some reg.earlierJobsTable
  else none

end Registry

/-- A row of a node without a secret. -/
def NodeRow.withoutSecret (r : NodeRow) : NodeRow := { r with nodeSecret := none }

/-- A row of a job without a checkpoint interval and a backend. -/
def JobRow.withoutSettings (r : JobRow) : JobRow :=
  { r with checkpointIntervalMinutes := none, backend := none }

/-- The rows of `reg` as they are in a file of an earlier version that has been migrated. -/
def Registry.migrated (reg : Registry) (hasSecrets : Bool) : Registry where
  nodes := if hasSecrets then reg.nodes
    else reg.nodes.modify (fun _ => true) NodeRow.withoutSecret fun _ => rfl
  jobs := reg.jobs.modify (fun _ => true) JobRow.withoutSettings fun _ => rfl
  metrics := reg.metrics

theorem Registry.getJobs_migrated (reg : Registry) (hasSecrets : Bool) (s : JobState) :
    (reg.migrated hasSecrets).getJobs s = (reg.getJobs s).map JobRow.withoutSettings := by
  have hrows : (reg.migrated hasSecrets).jobs.rows = reg.jobs.rows.map JobRow.withoutSettings := rfl
  rw [getJobs, getJobs, hrows, List.filter_map]
  rfl

/-! ### What `_init_db` does to a file -/

theorem initDb_extends {db : Database} {name : String} {t : StoredTable String SqlValue}
    (h : db name = some t) : ∃ added, initDb db name = some (t.addColumns .null added) :=
  migrate_extends h initStatements

theorem initDb_initDb (db : Database) : initDb (initDb db) = initDb db :=
  migrate_migrate (by simp [initStatements, Founded]) db

theorem initDb_apply (db : Database) (name : String) : initDb db name =
    if name = "nodes" then
      some (((db name).getD (.new nodeColumns)).ensureColumn .null "node_secret")
    else if name = "metrics" then some ((db name).getD (.new metricColumns))
    else if name = "jobs" then
      some ((((db name).getD (.new jobColumns)).ensureColumn .null
        "checkpoint_interval_minutes").ensureColumn .null "backend")
    else db name := by
  rw [initDb, migrate_apply]
  simp only [initStatements, List.foldl_cons, List.foldl_nil, Statement.on]
  by_cases hnodes : name = "nodes"
  · subst hnodes
    simp
  by_cases hmetrics : name = "metrics"
  · subst hmetrics
    simp
  by_cases hjobs : name = "jobs"
  · subst hjobs
    simp
  · simp [hnodes, hmetrics, hjobs, Ne.symm hnodes, Ne.symm hmetrics, Ne.symm hjobs]

theorem initDb_new : initDb (fun _ => none) = Registry.empty.database := by
  funext name
  rw [initDb_apply, Registry.database]
  split_ifs <;> rfl

/-- **A file of this version is left alone.** -/
theorem initDb_database (reg : Registry) : initDb reg.database = reg.database := by
  funext name
  rw [initDb_apply, Registry.database]
  split_ifs <;> rfl

namespace Registry

variable (reg : Registry)

theorem ensureColumn_earlierNodesTable :
    reg.earlierNodesTable.ensureColumn .null "node_secret" = (reg.migrated false).nodesTable := by
  have hnew : "node_secret" ∉ earlierNodeColumns := by decide
  rw [StoredTable.ensureColumn_of_notMem _ hnew]
  ext1
  · rfl
  · change (reg.nodes.rows.map NodeRow.earlierValues).map _ =
      (reg.nodes.rows.map fun r => if true then r.withoutSecret else r).map NodeRow.values
    rw [List.map_map, List.map_map]
    rfl

theorem ensureColumn_earlierJobsTable (hasSecrets : Bool) :
    (reg.earlierJobsTable.ensureColumn .null "checkpoint_interval_minutes").ensureColumn .null
      "backend" = (reg.migrated hasSecrets).jobsTable := by
  have hinterval : "checkpoint_interval_minutes" ∉ earlierJobColumns := by decide
  have hbackend : "backend" ∉ earlierJobColumns ++ ["checkpoint_interval_minutes"] := by decide
  rw [reg.earlierJobsTable.ensureColumn_of_notMem hinterval,
    StoredTable.ensureColumn_of_notMem _ hbackend, StoredTable.addColumns_addColumns]
  ext1
  · rfl
  · change (reg.jobs.rows.map JobRow.earlierValues).map _ =
      (reg.jobs.rows.map fun r => if true then r.withoutSettings else r).map JobRow.values
    rw [List.map_map, List.map_map]
    rfl

end Registry

/-- **A file of an earlier version is migrated.** -/
theorem initDb_earlierDatabase (reg : Registry) (hasSecrets : Bool) :
    initDb (reg.earlierDatabase hasSecrets) = (reg.migrated hasSecrets).database := by
  funext name
  rw [initDb_apply, Registry.database, Registry.earlierDatabase]
  split_ifs with hnodes hsecrets
  · subst hsecrets
    rfl
  · obtain rfl : hasSecrets = false := by simpa using hsecrets
    exact congrArg some reg.ensureColumn_earlierNodesTable
  · rfl
  · exact congrArg some (reg.ensureColumn_earlierJobsTable hasSecrets)
  · rfl

/-! ### Reading the jobs of a file -/

theorem JobState.text_injective : Function.Injective JobState.text := by
  intro s s' h
  cases s <;> cases s' <;> first | rfl | simp [text] at h

theorem SqlValue.orNull_injective {α : Type*} {f : α → SqlValue} (hf : Function.Injective f)
    (hnull : ∀ a, f a ≠ .null) : Function.Injective (SqlValue.orNull f) := by
  rintro (_ | a) (_ | a') h
  · rfl
  · exact absurd h.symm (hnull a')
  · exact absurd h (hnull a)
  · exact congrArg some (hf h)

theorem JobRow.values_injective : Function.Injective JobRow.values := by
  have hreal := SqlValue.orNull_injective (f := .real) (fun _ _ => SqlValue.real.inj) (by simp)
  have hinteger := SqlValue.orNull_injective (f := .integer) (fun _ _ => SqlValue.integer.inj)
    (by simp)
  have htext := SqlValue.orNull_injective (f := .text) (fun _ _ => SqlValue.text.inj) (by simp)
  intro r r' h
  cases r
  cases r'
  simp only [values, earlierValues, List.cons_append, List.nil_append, List.cons.injEq,
    SqlValue.text.injEq, SqlValue.integer.injEq, SqlValue.real.injEq, SqlValue.json.injEq,
    JobState.text_injective.eq_iff, hreal.eq_iff, hinteger.eq_iff, htext.eq_iff] at h
  simp only [JobRow.mk.injEq]
  tauto

theorem Registry.jobs_eq_of_database {reg reg' : Registry} (h : reg.database = reg'.database) :
    reg.jobs = reg'.jobs := by
  have hjobs : reg.jobsTable = reg'.jobsTable := Option.some.inj (congrFun h "jobs")
  exact Table.ext (List.map_injective_iff.2 JobRow.values_injective
    (congrArg StoredTable.rows hjobs))

theorem Registry.getJobs_of_database {reg reg' : Registry} {hasSecrets : Bool}
    (h : reg'.database = initDb (reg.earlierDatabase hasSecrets)) (s : JobState) :
    reg'.getJobs s = (reg.getJobs s).map JobRow.withoutSettings := by
  rw [initDb_earlierDatabase] at h
  rw [← reg.getJobs_migrated hasSecrets, getJobs, getJobs, jobs_eq_of_database h]

end Dmlf
