import Dmlf.Manager.Rows
import Dmlf.Cluster.Log

/-!
# The log counts the retries

`ReportJobStatus` and `monitor_nodes` write a `WARNING` before they retry a job, with the number of
the retry.  With handlers and passes one at a time the warnings about a job are numbered from one,
without gaps, up to the counter in its row, also across restarts: the log is opened to append.
What the agents stream to the same file has the level `INFO`.

* `Manager.filter_records` : a call writes a warning about a job exactly if it retries the job.
* `LoggedManager.warnings_reachable` : the warnings about a job, as they are read from the file.
-/

namespace Dmlf

/-- The message of a retry after a failure report, for a job with `retries` retries so far. -/
def retryMessage (retries maxRetries : ℤ) : String :=
  "Job Failed (" ++ toString (retries + 1) ++ "/" ++ toString maxRetries ++
    " retries). Re-queueing..."

/-- The message of a retry after a node has crashed. -/
def crashMessage (retries maxRetries : ℤ) : String :=
  "Node crashed. Job Failed (" ++ toString (retries + 1) ++ "/" ++ toString maxRetries ++
    "). Re-queueing..."

section

-- `stamp` is `time.strftime('%Y-%m-%dT%H:%M:%SZ', time.gmtime())` at a time
variable (stamp : Time → String)

/-- A record of the manager itself. -/
def managerRecord (now : Time) (job level message : String) : LogRecord :=
  ⟨stamp now, "Manager", job, level, message⟩

/-- What `log_generator` sends for the output of a process, each line with the time at which it
was read. -/
def logGenerator (nodeId jobId : String) (lines : List (Time × String)) : List LogMessage :=
  lines.map fun x => ⟨stamp x.1, nodeId, jobId, "INFO", strip x.2⟩

namespace Manager

variable (cfg : Setup) (m : Manager)

/-- What `ReportJobStatus` writes to the log. -/
def reportRecords (req : JobStatusRequest) (now : Time) : List LogRecord :=
  if req.isFailure then
    match m.registry.getJob req.jobId with
    | none => []
    | some job =>
      if job.retries < job.maxRetries then
        [managerRecord stamp now req.jobId "WARNING" (retryMessage job.retries job.maxRetries)]
      else
        [managerRecord stamp now req.jobId "ERROR"
          ("Job permanently FAILED after " ++ toString job.maxRetries ++ " retries.")]
  else []

/-- What `SubmitJob` writes to the log. -/
def submitRecord (jobId : String) (req : JobSubmitRequest) (now : Time) : LogRecord :=
  managerRecord stamp now jobId "INFO"
    ("Job submitted to queue (nodes: " ++ toString req.nnodes ++ ")")

/-- What `dispatch_allocated_job` writes to the log, if the pass comes to it. -/
def passRecords (now : Time) : List LogRecord :=
  match m.queue with
  | [] => []
  | job :: _ =>
    let nodes := m.selectNodes cfg job now
    if nodes.isEmpty then []
    else
      [managerRecord stamp now job.jobId "INFO"
        ("Scheduler allocated " ++ toString nodes.length ++ " nodes.")]

/-- What `monitor_nodes` writes to the log.  A job without retries left is failed silently. -/
def monitorRecords (now : Time) : List LogRecord :=
  let offline := m.offlineNodes cfg now
  (m.registry.getJobs .running).flatMap fun job =>
    if job.lostNode offline then
      if job.retries < job.maxRetries then
        [managerRecord stamp now job.jobId "WARNING" (crashMessage job.retries job.maxRetries)]
      else []
    else []

/-- What a handler or a pass writes to the log. -/
def records : Label → List LogRecord
  | .reportJobStatus req now => m.reportRecords stamp req now
  | .submitJob jobId req now => [submitRecord stamp jobId req now]
  | .schedulerPass now => m.passRecords stamp cfg now
  | .monitorPass now => m.monitorRecords stamp cfg now
  | _ => []

end Manager

end

/-- A manager and its log file. -/
structure LoggedManager where
  mgr : Manager
  file : List Char

/-- What happens to a manager with a log. -/
inductive LogLabel where
  | call (l : Label)
  /-- An agent streams what a process has printed. -/
  | streamLogs (nodeId jobId : String) (lines : List (Time × String))

namespace LoggedManager

variable (cfg : Setup) (stamp : Time → String)

/-- A manager that has just started on a new database, without a log file. -/
def start : LoggedManager := ⟨.serve .empty [], []⟩

/-- One handler or pass, and what it writes to the log. -/
def exec (x : LoggedManager) : LogLabel → Option LoggedManager
  | .call l =>
    (x.mgr.perform cfg l).map fun mgr =>
      ⟨mgr, writeRecords x.file (x.mgr.records stamp cfg l)⟩
  | .streamLogs nodeId jobId lines =>
    some { x with file := Dmlf.streamLogs x.file (logGenerator stamp nodeId jobId lines) }

/-- Handlers and passes one at a time, with their log. -/
def lts : LTS LoggedManager LogLabel := LTS.ofExec (exec cfg stamp)

end LoggedManager

/-- A warning about job `j`. -/
def LogRecord.warns (j : String) (r : LogRecord) : Bool := r.job = j && r.level = "WARNING"

/-- The warnings about a job are numbered from one up to the counter in its row. -/
structure JobRow.Warned (row : JobRow) (warnings : List LogRecord) : Prop where
  length : (warnings.length : ℤ) = row.retries
  message : ∀ (i : ℕ) r, warnings[i]? = some r →
    r.message = retryMessage i row.maxRetries ∨ r.message = crashMessage i row.maxRetries

/-! ### A call and its warnings -/

theorem flatMap_of_unique {α β κ : Type*} {key : α → κ} {g : α → List β} {as : List α} {a : α}
    (hnd : (as.map key).Nodup) (ha : a ∈ as) (h : ∀ b ∈ as, key b ≠ key a → g b = []) :
    as.flatMap g = g a := by
  induction as with
  | nil => cases ha
  | cons b as ih =>
    obtain ⟨hne, hnd⟩ := List.nodup_cons.1 hnd
    rw [List.flatMap_cons]
    rcases List.mem_cons.1 ha with rfl | ha
    · have hrest : as.flatMap g = [] := List.flatMap_eq_nil_iff.2 fun b hb =>
        h b (List.mem_cons_of_mem _ hb) fun heq => hne (heq ▸ List.mem_map_of_mem hb)
      rw [hrest, List.append_nil]
    · have hb : g b = [] := h b List.mem_cons_self fun heq => hne (heq ▸ List.mem_map_of_mem ha)
      rw [hb, List.nil_append]
      exact ih hnd ha fun b hb => h b (List.mem_cons_of_mem _ hb)

namespace Manager

variable {cfg : Setup} {stamp : Time → String} {m m' : Manager} {l : Label} {j : String}
  {now : Time} {row : JobRow}

theorem exists_getJob_updateJob {k : String} {f : JobRow → JobRow} (hf)
    (hjobs : m'.registry.jobs = (m.registry.updateJob k f hf).jobs)
    (hrow : m.registry.getJob j = some row) :
    m'.registry.getJob j = some (if j = k then f row else row) := by
  have hget : m'.registry.getJob j = (m.registry.updateJob k f hf).getJob j := by
    rw [Registry.getJob, hjobs]
    rfl
  rw [hget, Registry.getJob_updateJob]
  split_ifs with hj
  · rw [← hj, hrow]
    rfl
  · exact hrow

/-- The row of a known job after a step, as far as it is about retries. -/
def Retries (cfg : Setup) (m : Manager) (l : Label) (row row' : JobRow) : Prop :=
  row'.maxRetries = row.maxRetries ∧
    row'.retries = row.retries + if row.jobId ∈ m.requeues cfg l then 1 else 0

theorem mem_requeues_reportJobStatus {req : JobStatusRequest}
    (hrow : m.registry.getJob j = some row) :
    row.jobId ∈ m.requeues cfg (.reportJobStatus req now) ↔
      req.isFailure = true ∧ req.jobId = j ∧ row.retries < row.maxRetries := by
  have hid := Registry.jobId_of_getJob hrow
  simp only [requeues]
  split_ifs with hf
  · simp only [List.mem_map, List.mem_filter, Option.mem_toList, decide_eq_true_eq, hf, true_and]
    constructor
    · rintro ⟨job, ⟨hjob, hlt⟩, heq⟩
      have hj : req.jobId = j := by rw [← Registry.jobId_of_getJob hjob, heq, hid]
      obtain rfl := Option.some.inj (hjob.symm.trans (hj ▸ hrow))
      exact ⟨hj, hlt⟩
    · rintro ⟨rfl, hlt⟩
      exact ⟨row, ⟨hrow, hlt⟩, rfl⟩
  · simp [hf]

theorem retries_reportJobStatus (req : JobStatusRequest)
    (hrow : m.registry.getJob j = some row) :
    ∃ row', (m.reportJobStatus req now).registry.getJob j = some row' ∧
      Retries cfg m (.reportJobStatus req now) row row' := by
  simp only [Retries, mem_requeues_reportJobStatus hrow]
  have heff := reportEffect m req now
  generalize m.reportJobStatus req now = m' at heff
  cases heff with
  | ignored hf hc => exact ⟨row, hrow, rfl, by simp [hf]⟩
  | unknown hf hnone =>
    refine ⟨row, hrow, rfl, ?_⟩
    rw [if_neg, add_zero]
    rintro ⟨-, rfl, -⟩
    cases hnone.symm.trans hrow
  | retried job hf hjob hlt =>
    have hjid := Registry.jobId_of_getJob hjob
    refine ⟨_, exists_getJob_updateJob (k := job.jobId)
      (f := fun r => { r with status := .pending, retries := job.retries + 1 }) (fun _ => rfl)
      rfl hrow, ?_⟩
    by_cases hj : req.jobId = j
    · -- the handler has read the row it overwrites
      obtain rfl : job = row := Option.some.inj (hjob.symm.trans (hj ▸ hrow))
      rw [if_pos (hj.symm.trans hjid.symm)]
      exact ⟨rfl, by simp [hf, hj, hlt]⟩
    · rw [if_neg fun heq => hj (hjid.symm.trans heq.symm)]
      exact ⟨rfl, by simp [hj]⟩
  | failed job hf hjob hlt =>
    refine ⟨_, exists_getJob_updateJob (JobRow.jobId_withStatus _ _ _ _) rfl hrow, ?_⟩
    have hnot : ¬ (req.isFailure = true ∧ req.jobId = j ∧ row.retries < row.maxRetries) := by
      rintro ⟨-, rfl, hlt'⟩
      obtain rfl := Option.some.inj (hjob.symm.trans hrow)
      exact hlt hlt'
    rw [if_neg hnot, add_zero]
    split_ifs <;> exact ⟨rfl, rfl⟩
  | completed hf hc =>
    refine ⟨_, exists_getJob_updateJob (JobRow.jobId_withStatus _ _ _ _) rfl hrow, ?_⟩
    have hnot : ¬ (req.isFailure = true ∧ req.jobId = j ∧ row.retries < row.maxRetries) :=
      fun h => by simp [hf] at h
    rw [if_neg hnot, add_zero]
    split_ifs <;> exact ⟨rfl, rfl⟩

theorem mem_requeues_monitorPass (hrow : m.registry.getJob j = some row) :
    row.jobId ∈ m.requeues cfg (.monitorPass now) ↔
      row.status = .running ∧ row.lostNode (m.offlineNodes cfg now) = true ∧
        row.retries < row.maxRetries := by
  have hid := Registry.jobId_of_getJob hrow
  simp only [requeues, failOverEntries, List.map_map, List.mem_map, List.mem_filter,
    Bool.and_eq_true, decide_eq_true_eq, Registry.mem_getJobs]
  constructor
  · rintro ⟨job, ⟨⟨hjob, hs⟩, hlost, hlt⟩, heq⟩
    have heq : job.jobId = row.jobId := heq
    obtain rfl : job = row := by
      rw [heq, hid] at hjob
      exact Option.some.inj (hjob.symm.trans hrow)
    exact ⟨hs, hlost, hlt⟩
  · rintro ⟨hs, hlost, hlt⟩
    exact ⟨row, ⟨⟨hid ▸ hrow, hs⟩, hlost, hlt⟩, rfl⟩

theorem retries_monitorPass (hrow : m.registry.getJob j = some row) :
    ∃ row', (m.monitorPass cfg now).registry.getJob j = some row' ∧
      Retries cfg m (.monitorPass now) row row' := by
  rw [getJob_monitorPass, hrow]
  refine ⟨_, rfl, ?_⟩
  simp only [Retries, mem_requeues_monitorPass hrow]
  by_cases hrun : row.status = .running
  · by_cases hlost : row.lostNode (m.offlineNodes cfg now) = true
    · by_cases hlt : row.retries < row.maxRetries
      · simp [hrun, JobRow.failedOver, hlost, hlt]
      · simp [hrun, JobRow.failedOver, hlost, hlt, JobRow.withStatus]
    · simp [hrun, JobRow.failedOver, hlost]
  · simp [hrun]

/-- **What a step does to the counter of a known job.** -/
theorem retries_perform (hst : m.perform cfg l = some m') (hrow : m.registry.getJob j = some row) :
    ∃ row', m'.registry.getJob j = some row' ∧ Retries cfg m l row row' := by
  -- where nothing is queued again, the row is as the inversion lemma says
  have hquiet : m.requeues cfg l = [] →
      ∃ row', m'.registry.getJob j = some row' ∧ Retries cfg m l row row' := by
    intro hnil
    obtain ⟨row', hrow', heff⟩ := rowEffect hst hrow
    refine ⟨row', hrow', ?_⟩
    cases heff with
    | same | failed | completed | dispatched =>
      exact ⟨rfl, by simp [hnil, JobRow.withStatus]⟩
    | requeued hmem =>
      rw [hnil] at hmem
      cases hmem
  cases l with
  | reportJobStatus req now =>
    obtain rfl := Option.some.inj hst
    exact retries_reportJobStatus req hrow
  | monitorPass now =>
    obtain rfl := Option.some.inj hst
    exact retries_monitorPass hrow
  | registerNode | sendHeartbeat | listenForCommands | takeCommand | submitJob | schedulerPass
    | probe | restart | runTask => exact hquiet rfl

theorem warns_managerRecord (job level message : String) :
    (managerRecord stamp now job level message).warns j = (decide (job = j) && level = "WARNING") :=
  rfl

/-- A handler or a pass warns about a known job once if it retries it, and else not at all. -/
def Warns (cfg : Setup) (m : Manager) (l : Label) (row : JobRow) (warnings : List LogRecord) :
    Prop :=
  if row.jobId ∈ m.requeues cfg l then
    ∃ r, warnings = [r] ∧ (r.message = retryMessage row.retries row.maxRetries ∨
      r.message = crashMessage row.retries row.maxRetries)
  else warnings = []

theorem warns_reportRecords (req : JobStatusRequest) (hrow : m.registry.getJob j = some row) :
    Warns cfg m (.reportJobStatus req now) row
      ((m.reportRecords stamp req now).filter (LogRecord.warns j)) := by
  simp only [Warns, mem_requeues_reportJobStatus hrow, reportRecords]
  by_cases hf : req.isFailure = true
  · cases hjob : m.registry.getJob req.jobId with
    | none =>
      rw [if_neg]
      · simp
      · rintro ⟨-, rfl, -⟩
        cases hjob.symm.trans hrow
    | some job =>
      by_cases hj : req.jobId = j
      · obtain rfl : job = row := Option.some.inj (hjob.symm.trans (hj ▸ hrow))
        by_cases hlt : job.retries < job.maxRetries
        · simp only [hf, hj, hlt, and_self, if_true]
          exact ⟨managerRecord stamp now j "WARNING" (retryMessage job.retries job.maxRetries),
            by simp [warns_managerRecord], .inl rfl⟩
        · simp [hf, hlt, warns_managerRecord]
      · by_cases hlt : job.retries < job.maxRetries <;> simp [hf, hj, hlt, warns_managerRecord]
  · simp [hf]

theorem warns_monitorRecords (hrow : m.registry.getJob j = some row) :
    Warns cfg m (.monitorPass now) row
      ((m.monitorRecords stamp cfg now).filter (LogRecord.warns j)) := by
  have hid := Registry.jobId_of_getJob hrow
  unfold Warns monitorRecords
  rw [List.filter_flatMap]
  simp only [mem_requeues_monitorPass hrow]
  by_cases hrun : row.status = .running
  · -- the rows have different ids
    have hmem : row ∈ m.registry.getJobs .running := Registry.mem_getJobs.2 ⟨hid ▸ hrow, hrun⟩
    rw [flatMap_of_unique (m.registry.nodup_getJobs .running) hmem]
    · split_ifs <;> simp_all [warns_managerRecord]
      exact .inr rfl
    · intro job hjob hne
      split_ifs <;> simp_all [warns_managerRecord]
  · rw [if_neg (fun h => hrun h.1)]
    refine List.flatMap_eq_nil_iff.2 fun job hjob => ?_
    have hne : job.jobId ≠ j := by
      rintro rfl
      obtain ⟨hjob, hs⟩ := Registry.mem_getJobs.1 hjob
      obtain rfl := Option.some.inj (hjob.symm.trans hrow)
      exact hrun hs
    split_ifs <;> simp [warns_managerRecord, hne]

/-- **What a step warns about a known job.** -/
theorem filter_records (hrow : m.registry.getJob j = some row) :
    Warns cfg m l row ((m.records stamp cfg l).filter (LogRecord.warns j)) := by
  cases l with
  | reportJobStatus req now => exact warns_reportRecords req hrow
  | monitorPass now => exact warns_monitorRecords hrow
  | submitJob jobId req now =>
    simp [Warns, requeues, records, submitRecord, warns_managerRecord]
  | schedulerPass now =>
    simp only [Warns, requeues, records, passRecords, List.not_mem_nil, if_false]
    split <;> try split_ifs
    all_goals simp [warns_managerRecord]
  | registerNode | sendHeartbeat | listenForCommands | takeCommand | probe | restart | runTask =>
    simp [Warns, requeues, records]

theorem filter_records_of_none (hnone : m.registry.getJob j = none) :
    (m.records stamp cfg l).filter (LogRecord.warns j) = [] := by
  cases l with
  | reportJobStatus req now =>
    simp only [records, reportRecords]
    split_ifs with hf
    · cases hjob : m.registry.getJob req.jobId with
      | none => rfl
      | some job =>
        have hne : req.jobId ≠ j := by
          rintro rfl
          cases hjob.symm.trans hnone
        dsimp only
        split_ifs <;> simp [warns_managerRecord, hne]
    · rfl
  | monitorPass now =>
    simp only [records, monitorRecords, List.filter_flatMap, List.flatMap_eq_nil_iff]
    intro job hjob
    have hne : job.jobId ≠ j := by
      rintro rfl
      cases (Registry.mem_getJobs.1 hjob).1.symm.trans hnone
    split_ifs <;> simp [warns_managerRecord, hne]
  | submitJob jobId req now => simp [records, submitRecord, warns_managerRecord]
  | schedulerPass now =>
    simp only [records, passRecords]
    split <;> try split_ifs
    all_goals simp [warns_managerRecord]
  | registerNode | sendHeartbeat | listenForCommands | takeCommand | probe | restart | runTask =>
    rfl

end Manager

/-! ### Runs -/

namespace LoggedManager

variable {cfg : Setup} {stamp : Time → String} {x x' : LoggedManager} {j : String} {row : JobRow}

/-- The file holds the records `records`, with the right warnings about all jobs. -/
structure Warned (x : LoggedManager) (records : List LogRecord) : Prop where
  file : x.file = writeRecords [] records
  known : ∀ j row, x.mgr.registry.getJob j = some row →
    row.Warned (records.filter (LogRecord.warns j))
  unknown : ∀ j, x.mgr.registry.getJob j = none → records.filter (LogRecord.warns j) = []

/-- A row that has its warnings still has them after a call. -/
theorem warned_call {m : Manager} {l : Label} {row' : JobRow}
    {warnings warnings' : List LogRecord} (h : row.Warned warnings)
    (hretries : Manager.Retries cfg m l row row') (hwarns : Manager.Warns cfg m l row warnings') :
    row'.Warned (warnings ++ warnings') := by
  obtain ⟨hmax, hretries⟩ := hretries
  unfold Manager.Warns at hwarns
  split_ifs at hretries hwarns with hmem
  · obtain ⟨r, rfl, hr⟩ := hwarns
    have hlength := h.length
    constructor
    · rw [List.length_append, List.length_singleton, hretries]
      omega
    · intro i r' hi
      rw [hmax]
      rcases lt_trichotomy i warnings.length with hlt | rfl | hgt
      · rw [List.getElem?_append_left hlt] at hi
        exact h.message i r' hi
      · -- the new warning has the number of the retry
        rw [List.getElem?_append_right (Nat.le_refl _), Nat.sub_self] at hi
        obtain rfl := Option.some.inj hi
        rwa [hlength]
      · rw [List.getElem?_eq_none] at hi
        · cases hi
        · rw [List.length_append, List.length_singleton]
          omega
  · rw [hwarns, List.append_nil]
    exact ⟨by rw [hretries, add_zero]; exact h.length, fun i r hi => hmax ▸ h.message i r hi⟩

theorem warned_start : start.Warned [] where
  file := rfl
  known j row hrow := by cases hrow
  unknown _ _ := rfl

/-- **One call keeps the numbering.** -/
theorem Warned.call {records : List LogRecord} {l : Label} {m : Manager} (h : x.Warned records)
    (hst : x.mgr.perform cfg l = some m) :
    (⟨m, writeRecords x.file (x.mgr.records stamp cfg l)⟩ : LoggedManager).Warned
      (records ++ x.mgr.records stamp cfg l) where
  file := by rw [h.file, ← writeRecords_append]
  known j row hrow := by
    rw [List.filter_append]
    cases hold : x.mgr.registry.getJob j with
    | none =>
      -- a new row has not been retried
      obtain ⟨-, req, now, rfl⟩ := Manager.getJob_of_new hst hold hrow
      obtain ⟨m₁, hm₁, rfl⟩ := Option.map_eq_some_iff.1 hst
      obtain ⟨reg, hreg, rfl⟩ := Option.map_eq_some_iff.1 hm₁
      have hget := (Registry.getJob_insertJob hreg j).symm.trans hrow
      rw [if_pos (c := j = (req.toDict j).jobId) rfl] at hget
      obtain rfl := Option.some.inj hget
      rw [h.unknown j hold, Manager.filter_records_of_none hold]
      exact ⟨rfl, by simp⟩
    | some row₀ =>
      obtain ⟨row', hrow', hretries⟩ := Manager.retries_perform hst hold
      obtain rfl : row' = row := Option.some.inj (hrow'.symm.trans hrow)
      exact warned_call (h.known j row₀ hold) hretries (Manager.filter_records hold)
  unknown j hnone := by
    have hold : x.mgr.registry.getJob j = none := by
      cases hold : x.mgr.registry.getJob j with
      | none => rfl
      | some row₀ =>
        obtain ⟨row', hrow', -⟩ := Manager.retries_perform hst hold
        cases hrow'.symm.trans hnone
    rw [List.filter_append, h.unknown j hold, Manager.filter_records_of_none hold]
    rfl

theorem filter_logGenerator (nodeId jobId : String) (lines : List (Time × String)) :
    ((logGenerator stamp nodeId jobId lines).map LogMessage.toRecord).filter (LogRecord.warns j) =
      [] := by
  refine List.filter_eq_nil_iff.2 fun r hr => ?_
  obtain ⟨msg, hmsg, rfl⟩ := List.mem_map.1 hr
  obtain ⟨line, -, rfl⟩ := List.mem_map.1 hmsg
  simp [LogRecord.warns, LogMessage.toRecord]

theorem Warned.streamLogs {records : List LogRecord} (h : x.Warned records)
    (nodeId jobId : String) (lines : List (Time × String)) :
    (⟨x.mgr, Dmlf.streamLogs x.file (logGenerator stamp nodeId jobId lines)⟩ :
      LoggedManager).Warned
      (records ++ (logGenerator stamp nodeId jobId lines).map LogMessage.toRecord) where
  file := by rw [streamLogs_eq, h.file, ← writeRecords_append]
  known j row hrow := by
    rw [List.filter_append, filter_logGenerator, List.append_nil]
    exact h.known j row hrow
  unknown j hnone := by
    rw [List.filter_append, filter_logGenerator, List.append_nil]
    exact h.unknown j hnone

theorem preserves_warned :
    (lts cfg stamp).Preserves fun x => ∃ records, x.Warned records := by
  rintro x l x' hst ⟨records, h⟩
  cases l with
  | call l =>
    obtain ⟨m, hm, rfl⟩ := Option.map_eq_some_iff.1 hst
    exact ⟨_, h.call hm⟩
  | streamLogs nodeId jobId lines =>
    obtain rfl := Option.some.inj hst
    exact ⟨_, h.streamLogs nodeId jobId lines⟩

/-- **The warnings about a job in the log file** are numbered from one to the counter in its row,
whatever the agents have written between them. -/
theorem warnings_reachable (h : (lts cfg stamp).Reachable start x)
    (hrow : x.mgr.registry.getJob j = some row) :
    row.Warned ((readRecords x.file).filter (LogRecord.warns j)) := by
  obtain ⟨records, hwarned⟩ := h.keeps preserves_warned ⟨[], warned_start⟩
  rw [hwarned.file, readRecords_writeRecords]
  exact hwarned.known j row hrow

/-- A job fails twice, and prints a line the first time. -/
def Sample.failedTwice : List LogLabel :=
  [.call (.registerNode "node-1" "secret-1" Sample.node 100),
    .call (.submitJob "job-1" (Sample.job 1 3) 101), .call (.schedulerPass 102),
    .streamLogs "node-1" "job-1" [(103, "epoch 0\n")],
    .call (.reportJobStatus ⟨"node-1", "job-1", "failed"⟩ 104), .call (.schedulerPass 105),
    .call (.reportJobStatus ⟨"node-1", "job-1", "failed"⟩ 106)]

theorem warnings_reachable_failedTwice :
    ∃ (x : LoggedManager) (row : JobRow), x.mgr.registry.getJob "job-1" = some row ∧
      row.retries = 2 ∧ row.Warned ((readRecords x.file).filter (LogRecord.warns "job-1")) := by
  obtain ⟨x, hx, hp⟩ := LTS.exists_of_exec (exec Sample.setup fun _ => "now") start
    Sample.failedTwice
    (fun x => (x.mgr.registry.getJob "job-1").any fun row => row.retries = 2) (by decide +kernel)
  obtain ⟨row, hrow, hretries⟩ := (Option.any_eq_true _ _).1 hp
  exact ⟨x, row, hrow, by simpa using hretries, warnings_reachable hx hrow⟩

end LoggedManager

end Dmlf
