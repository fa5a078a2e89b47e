import Dmlf.Manager.Tasks

/-!
# What a handler or a pass does

One lemma for each handler and pass that branches or loops says all it can do; the proofs about
the atomic manager rest on these and never unfold a handler.

* `Manager.reportEffect` : the five outcomes of `ReportJobStatus`.
* `Manager.passEffect` : the three outcomes of a scheduler pass.
* `Manager.getJob_monitorPass`, `getNode_monitorPass`, `queue_monitorPass` : a monitor pass fails
  the running jobs that lost a node, one row each, and then marks the offline nodes.
-/

namespace Dmlf

/-! ### Nodes -/

/-- A row after its node has been marked, if it is offline. -/
def NodeRow.mark (cutoff : Time) (r : NodeRow) : NodeRow :=
  if r.isStale cutoff then { r with status := .disconnected } else r

theorem NodeRow.mark_mark (cutoff : Time) (r : NodeRow) :
    (r.mark cutoff).mark cutoff = r.mark cutoff := by
  by_cases hr : r.isStale cutoff = true
  · have hdown : ({ r with status := .disconnected } : NodeRow).isStale cutoff = false := by
      simp [isStale]
    simp only [mark, hr, if_true, hdown, Bool.false_eq_true, if_false]
  · have hsame : r.mark cutoff = r := if_neg hr
    rw [hsame, hsame]

theorem NodeRow.idle_of_mark {cutoff : Time} {r : NodeRow} (h : (r.mark cutoff).status = .idle) :
    r.status = .idle := by
  unfold mark at h
  split_ifs at h
  exact h

namespace Registry

variable {reg : Registry}

theorem getNode_updateNodeState (n : String) (s : NodeState) (n' : String) :
    (reg.updateNodeState n s).getNode n' =
      (reg.getNode n').map fun r => if n' = n then { r with status := s } else r := by
  rw [updateNodeState, getNode_updateNodes]
  exact Option.map_congr fun r hr => by simp [nodeId_of_getNode hr]

theorem getNode_markOfflineNodes (now : Time) (timeout : ℚ) (n : String) :
    (reg.markOfflineNodes now timeout).getNode n =
      (reg.getNode n).map (NodeRow.mark (now - timeout)) :=
  getNode_updateNodes _ _ _ n

theorem mem_nodes {r : NodeRow} : r ∈ reg.nodes.rows ↔ reg.getNode r.nodeId = some r :=
  ⟨Table.find?_of_mem, Table.mem_of_find?⟩

theorem mem_getJobs_updateJob {s : JobState} {j : String} {f : JobRow → JobRow} (hf)
    (hstatus : ∀ r, (f r).status ≠ s) (row : JobRow) :
    row ∈ (reg.updateJob j f hf).getJobs s ↔ row ∈ reg.getJobs s ∧ row.jobId ≠ j := by
  rw [mem_getJobs, mem_getJobs, getJob_updateJob]
  by_cases hj : row.jobId = j
  · rw [if_pos hj]
    refine iff_of_false ?_ fun h => h.2 hj
    rintro ⟨h, hs⟩
    obtain ⟨r, -, rfl⟩ := Option.map_eq_some_iff.1 h
    exact hstatus r hs
  · simp [hj]

theorem mem_running_of_insertJob {reg' : Registry} {job : JobDict} {now : Time}
    (h : reg.insertJob job now = some reg') (hjob : job.status ≠ .running) :
    ∀ row ∈ reg'.getJobs .running, row ∈ reg.getJobs .running := by
  intro row hrow
  obtain ⟨hrow, hs⟩ := mem_getJobs.1 hrow
  rw [getJob_insertJob h] at hrow
  split_ifs at hrow
  · obtain rfl := Option.some.inj hrow
    exact absurd hs hjob
  · exact mem_getJobs.2 ⟨hrow, hs⟩

theorem mem_getAvailableNodes {now : Time} {r : NodeRow} :
    r ∈ (reg.getAvailableNodes now).2 ↔
      (reg.markOfflineNodes now defaultTimeoutSeconds).getNode r.nodeId = some r ∧
        r.status = .idle := by
  simp only [getAvailableNodes, List.mem_filter, decide_eq_true_eq, mem_nodes]

end Registry

namespace Manager

variable {cfg : Setup} {m : Manager} {now : Time}

@[simp] theorem registry_setRegistry (reg : Registry) : (m.setRegistry reg).registry = reg := rfl

theorem reserveNodes_eq (m : Manager) (nodes : List NodeRow) :
    m.reserveNodes nodes = m.setRegistry (m.reserveNodes nodes).registry := by
  induction nodes generalizing m with
  | nil => rfl
  | cons node nodes ih => exact ih _

theorem jobs_reserveNodes (m : Manager) (nodes : List NodeRow) :
    (m.reserveNodes nodes).registry.jobs = m.registry.jobs := by
  induction nodes generalizing m with
  | nil => rfl
  | cons node nodes ih => exact ih _

theorem getNode_reserveNodes (m : Manager) (nodes : List NodeRow) (n : String) :
    (m.reserveNodes nodes).registry.getNode n = (m.registry.getNode n).map fun r =>
      if n ∈ nodes.map NodeRow.nodeId then { r with status := .reserved } else r := by
  induction nodes generalizing m with
  | nil => simp [reserveNodes]
  | cons node nodes ih =>
    rw [show m.reserveNodes (node :: nodes) =
      (m.updateNodeState node.nodeId .reserved).reserveNodes nodes from rfl, ih, updateNodeState,
      registry_setRegistry, Registry.getNode_updateNodeState, Option.map_map]
    refine Option.map_congr fun r _ => ?_
    by_cases hn : n = node.nodeId <;> simp [hn]

/-! ### Command streams -/

theorem listenForCommands_eq (m : Manager) (n : String) :
    ∃ queues, m.listenForCommands n = { m with commandQueues := queues } := by
  rw [listenForCommands]
  split_ifs
  · exact ⟨_, rfl⟩
  · exact ⟨_, rfl⟩

theorem perform_listenForCommands {m' : Manager} {n : String}
    (h : m.perform cfg (.listenForCommands n) = some m') :
    ∃ queues, m' = { m with commandQueues := queues } := by
  obtain rfl := Option.some.inj h
  exact m.listenForCommands_eq n

theorem getD_newCommandQueue {m : Manager} {nodeId : String}
    (h : (m.commandQueues nodeId).isNone = true) (n : String) :
    ((m.newCommandQueue nodeId).commandQueues n).getD [] = (m.commandQueues n).getD [] := by
  simp only [newCommandQueue]
  split_ifs with hn
  · rw [hn, Option.isNone_iff_eq_none.1 h]
    rfl
  · rfl

theorem getD_listenForCommands (m : Manager) (nodeId n : String) :
    ((m.listenForCommands nodeId).commandQueues n).getD [] = (m.commandQueues n).getD [] := by
  unfold listenForCommands
  split_ifs with h
  · rfl
  · exact getD_newCommandQueue (by simpa using h) n

theorem mem_newCommandQueue {nodeId n : String} {q : List Command} {command : Command}
    (hq : (m.newCommandQueue nodeId).commandQueues n = some q) (hc : command ∈ q) :
    ∃ q', m.commandQueues n = some q' ∧ command ∈ q' := by
  simp only [newCommandQueue] at hq
  split_ifs at hq
  · obtain rfl := Option.some.inj hq
    cases hc
  · exact ⟨q, hq, hc⟩

theorem mem_listenForCommands {nodeId n : String} {q : List Command} {command : Command}
    (hq : (m.listenForCommands nodeId).commandQueues n = some q) (hc : command ∈ q) :
    ∃ q', m.commandQueues n = some q' ∧ command ∈ q' := by
  unfold listenForCommands at hq
  split_ifs at hq
  · exact ⟨q, hq, hc⟩
  · exact mem_newCommandQueue hq hc

theorem takeCommand_eq_some {m' : Manager} {n : String} {command : Command}
    (h : m.takeCommand n = some (command, m')) :
    ∃ rest, m.commandQueues n = some (command :: rest) ∧
      m' = { m with commandQueues := fun n' => if n' = n then some rest
                                               else m.commandQueues n' } := by
  unfold takeCommand at h
  split at h
  · rename_i c rest hq
    obtain ⟨rfl, rfl⟩ := Prod.mk.inj (Option.some.inj h)
    exact ⟨rest, hq, rfl⟩
  · cases h

theorem perform_takeCommand {m' : Manager} {n : String}
    (h : m.perform cfg (.takeCommand n) = some m') :
    ∃ queues, m' = { m with commandQueues := queues } := by
  obtain ⟨⟨command, m₁⟩, hc, rfl⟩ := Option.map_eq_some_iff.1 h
  obtain ⟨rest, -, rfl⟩ := takeCommand_eq_some hc
  exact ⟨_, rfl⟩

/-! ### Reports -/

end Manager

theorem JobStatusRequest.isCompletion_of_isFailure {req : JobStatusRequest}
    (h : req.isFailure = true) : req.isCompletion = false := by
  simp only [isFailure, Bool.or_eq_true, decide_eq_true_eq] at h
  rcases h with h | h <;> simp [isCompletion, h]

namespace Manager

variable {cfg : Setup} {m m' : Manager} {now : Time}

/-- What `ReportJobStatus` can do. -/
inductive ReportEffect (m : Manager) (req : JobStatusRequest) (now : Time) : Manager → Prop
  | ignored : req.isFailure = false → req.isCompletion = false → ReportEffect m req now m
  | unknown : req.isFailure = true → m.registry.getJob req.jobId = none →
      ReportEffect m req now m
  | retried (job : JobRow) : req.isFailure = true → m.registry.getJob req.jobId = some job →
      job.retries < job.maxRetries → ReportEffect m req now
        ((m.updateNodeState req.nodeId .idle).retryJob job.toDict).incJobRetries
  | failed (job : JobRow) : req.isFailure = true → m.registry.getJob req.jobId = some job →
      ¬ job.retries < job.maxRetries → ReportEffect m req now
        ((m.closeJob req.jobId .failed 1 now).updateNodeState req.nodeId .idle)
  | completed : req.isFailure = false → req.isCompletion = true → ReportEffect m req now
      ((m.closeJob req.jobId .completed 0 now).updateNodeState req.nodeId .idle).decJobsRunning

theorem reportEffect (m : Manager) (req : JobStatusRequest) (now : Time) :
    ReportEffect m req now (m.reportJobStatus req now) := by
  unfold reportJobStatus
  split_ifs with hf hc
  · cases hj : m.registry.getJob req.jobId with
    | none => exact .unknown hf hj
    | some job =>
      dsimp only
      split_ifs with hlt
      · exact .retried job hf hj hlt
      · exact .failed job hf hj hlt
  · exact .completed (by simpa using hf) hc
  · exact .ignored (by simpa using hf) (by simpa using hc)

/-- A report that has an effect: a failure of a known job, or a completion. -/
def Acts (m : Manager) (req : JobStatusRequest) : Prop :=
  (req.isFailure && (m.registry.getJob req.jobId).isSome || req.isCompletion) = true

/-- A report without effect leaves the manager alone.  Any other one ends the run of its job and
sets the reporting node idle. -/
theorem release_reportJobStatus (m : Manager) (req : JobStatusRequest) (now : Time) :
    ¬ m.Acts req ∧ m.reportJobStatus req now = m ∨
    m.Acts req ∧
      (∀ row, row ∈ (m.reportJobStatus req now).registry.getJobs .running ↔
        row ∈ m.registry.getJobs .running ∧ row.jobId ≠ req.jobId) ∧
      ∀ n, (m.reportJobStatus req now).registry.getNode n =
        (m.registry.updateNodeState req.nodeId .idle).getNode n := by
  have heff := reportEffect m req now
  generalize m.reportJobStatus req now = m' at heff
  cases heff with
  | ignored hf hc => exact .inl ⟨by simp [Acts, hf, hc], rfl⟩
  | unknown hf hj =>
    exact .inl ⟨by simp [Acts, hj, JobStatusRequest.isCompletion_of_isFailure hf], rfl⟩
  | retried job hf hj hlt =>
    refine .inr ⟨by simp [Acts, hf, hj], fun row => ?_, fun _ => rfl⟩
    rw [← Registry.jobId_of_getJob hj]
    exact Registry.mem_getJobs_updateJob _ (by simp) row
  | failed job hf hj hlt =>
    exact .inr ⟨by simp [Acts, hf, hj],
      fun row => Registry.mem_getJobs_updateJob (JobRow.jobId_withStatus _ _ _ _)
        (by simp [JobRow.withStatus]) row, fun _ => rfl⟩
  | completed hf hc =>
    exact .inr ⟨by simp [Acts, hc],
      fun row => Registry.mem_getJobs_updateJob (JobRow.jobId_withStatus _ _ _ _)
        (by simp [JobRow.withStatus]) row, fun _ => rfl⟩

theorem running_submitJob {jobId : String} {req : JobSubmitRequest}
    (h : m.submitJob jobId req now = some m') : m'.registry.nodes = m.registry.nodes ∧
      ∀ row ∈ m'.registry.getJobs .running, row ∈ m.registry.getJobs .running := by
  obtain ⟨m₁, hm₁, rfl⟩ := Option.map_eq_some_iff.1 h
  obtain ⟨reg, hreg, rfl⟩ := Option.map_eq_some_iff.1 hm₁
  exact ⟨(Registry.nodes_insertJob hreg).1, Registry.mem_running_of_insertJob hreg (by rintro ⟨⟩)⟩

/-! ### Scheduler -/

/-- The nodes a scheduler pass at time `now` picks for a job. -/
def selectNodes (cfg : Setup) (m : Manager) (job : JobDict) (now : Time) : List NodeRow :=
  allocate cfg.scoreNode (m.registry.getAvailableNodes now).2 job.requiredNodes

/-- The manager after the pass has popped the top job and queried the nodes. -/
def popTopJob (m : Manager) (queue : List JobDict) (now : Time) : Manager :=
  { m with queue, registry := m.registry.markOfflineNodes now defaultTimeoutSeconds }

/-- What a scheduler pass can do. -/
inductive PassEffect (cfg : Setup) (m : Manager) (now : Time) : Manager → Prop
  | noJob : m.queue = [] → PassEffect cfg m now m
  | requeued (job : JobDict) (queue : List JobDict) : m.queue = job :: queue →
      m.selectNodes cfg job now = [] →
      PassEffect cfg m now ((m.popTopJob queue now).requeueJob job)
  | dispatched (job : JobDict) (queue : List JobDict) : m.queue = job :: queue →
      m.selectNodes cfg job now ≠ [] →
      PassEffect cfg m now (((m.popTopJob queue now).reserveNodes
        (m.selectNodes cfg job now)).dispatchAllocatedJob cfg job (m.selectNodes cfg job now) now)

theorem passEffect (cfg : Setup) (m : Manager) (now : Time) :
    PassEffect cfg m now (m.schedulerPass cfg now) := by
  unfold schedulerPass
  cases hq : m.queue with
  | nil => exact .noJob hq
  | cons job queue =>
    dsimp only
    split_ifs with hempty
    · exact .requeued job queue hq (List.isEmpty_iff.1 hempty)
    · exact .dispatched job queue hq (fun h => hempty (List.isEmpty_iff.2 h))

theorem sendCommand_keeps (m : Manager) (n : String) (command : Command) :
    (m.sendCommand n command).registry = m.registry ∧
      (m.sendCommand n command).queue = m.queue ∧
      (m.sendCommand n command).history = m.history := by
  unfold sendCommand
  split <;> exact ⟨rfl, rfl, rfl⟩

theorem commandQueues_sendCommand (m : Manager) (n : String) (command : Command) (n' : String) :
    (m.sendCommand n command).commandQueues n' =
      if n' = n then (m.commandQueues n).map (· ++ [command]) else m.commandQueues n' := by
  unfold sendCommand
  cases hq : m.commandQueues n with
  | some q => rfl
  | none =>
    split_ifs with hn
    · exact hn ▸ hq
    · rfl

theorem mem_sendCommand {n n' : String} {command c : Command} {q : List Command}
    (hq : (m.sendCommand n command).commandQueues n' = some q) (hc : c ∈ q) :
    (∃ q', m.commandQueues n' = some q' ∧ c ∈ q') ∨ n' = n ∧ c = command := by
  unfold sendCommand at hq
  split at hq
  · rename_i q₀ hq₀
    dsimp only at hq
    split_ifs at hq with hn
    · obtain rfl := Option.some.inj hq
      rcases List.mem_append.1 hc with h | h
      · exact .inl ⟨q₀, hn ▸ hq₀, h⟩
      · exact .inr ⟨hn, List.mem_singleton.1 h⟩
    · exact .inl ⟨q, hq, hc⟩
  · exact .inl ⟨q, hq, hc⟩

/-- The commands of a dispatch, one per node. -/
def sendCommands (cfg : Setup) (m : Manager) (job : JobDict) (masterAddr : String)
    (nodes : List (NodeRow × ℕ)) : Manager :=
  nodes.foldl (fun m (node, rank) =>
    m.sendCommand node.nodeId (m.launchCommand cfg job masterAddr rank)) m

theorem sendCommands_keeps (cfg : Setup) (m : Manager) (job : JobDict) (masterAddr : String)
    (nodes : List (NodeRow × ℕ)) :
    (m.sendCommands cfg job masterAddr nodes).registry = m.registry ∧
      (m.sendCommands cfg job masterAddr nodes).queue = m.queue ∧
      (m.sendCommands cfg job masterAddr nodes).history = m.history := by
  induction nodes generalizing m with
  | nil => exact ⟨rfl, rfl, rfl⟩
  | cons x nodes ih =>
    obtain ⟨hr, hq, hh⟩ := sendCommand_keeps m x.1.nodeId (m.launchCommand cfg job masterAddr x.2)
    obtain ⟨hr', hq', hh'⟩ := ih (m.sendCommand x.1.nodeId (m.launchCommand cfg job masterAddr x.2))
    exact ⟨hr'.trans hr, hq'.trans hq, hh'.trans hh⟩

theorem launchCommand_sendCommand (m : Manager) (n : String) (command : Command)
    (job : JobDict) (masterAddr : String) (rank : ℕ) :
    (m.sendCommand n command).launchCommand cfg job masterAddr rank =
      m.launchCommand cfg job masterAddr rank := by
  simp only [launchCommand, (sendCommand_keeps m _ _).2.2]

theorem commandQueues_sendCommands_of_not_mem {job : JobDict} {masterAddr : String}
    {nodes : List (NodeRow × ℕ)} {n : String} (h : n ∉ nodes.map fun x => x.1.nodeId) :
    (m.sendCommands cfg job masterAddr nodes).commandQueues n = m.commandQueues n := by
  induction nodes generalizing m with
  | nil => rfl
  | cons x nodes ih =>
    obtain ⟨hx, hrest⟩ := not_or.1 (mt List.mem_cons.2 h)
    refine (ih hrest).trans ?_
    rw [commandQueues_sendCommand, if_neg hx]

theorem commandQueues_sendCommands {job : JobDict} {masterAddr : String}
    {nodes : List (NodeRow × ℕ)} (hnd : (nodes.map fun x => x.1.nodeId).Nodup)
    {x : NodeRow × ℕ} (hx : x ∈ nodes) :
    (m.sendCommands cfg job masterAddr nodes).commandQueues x.1.nodeId =
      (m.commandQueues x.1.nodeId).map (· ++ [m.launchCommand cfg job masterAddr x.2]) := by
  induction nodes generalizing m with
  | nil => cases hx
  | cons y nodes ih =>
    obtain ⟨hy, hnd⟩ := List.nodup_cons.1 hnd
    rcases List.mem_cons.1 hx with rfl | hx
    · -- the commands that follow go to other nodes
      refine (commandQueues_sendCommands_of_not_mem hy).trans ?_
      rw [commandQueues_sendCommand, if_pos rfl]
    · have hne : x.1.nodeId ≠ y.1.nodeId := by
        intro h
        exact hy (List.mem_map.2 ⟨x, hx, h⟩)
      refine (ih hnd hx).trans ?_
      rw [commandQueues_sendCommand, if_neg hne, launchCommand_sendCommand]

/-- A command that is queued after a dispatch was queued before, or launches the job on one of the
nodes for the dispatch that has just been recorded. -/
theorem mem_sendCommands {job : JobDict} {masterAddr : String} {nodes : List (NodeRow × ℕ)}
    {n : String} {c : Command} {q : List Command}
    (hq : (m.sendCommands cfg job masterAddr nodes).commandQueues n = some q) (hc : c ∈ q) :
    (∃ q', m.commandQueues n = some q' ∧ c ∈ q') ∨
      n ∈ nodes.map (fun x => x.1.nodeId) ∧
        ∃ rank, c = m.launchCommand cfg job masterAddr rank := by
  induction nodes generalizing m with
  | nil => exact .inl ⟨q, hq, hc⟩
  | cons x nodes ih =>
    rcases ih hq with ⟨q', hq', hc'⟩ | ⟨hn, rank, rfl⟩
    · rcases mem_sendCommand hq' hc' with h | ⟨rfl, rfl⟩
      · exact .inl h
      · exact .inr ⟨List.mem_cons_self, x.2, rfl⟩
    · exact .inr ⟨List.mem_cons_of_mem _ hn, rank, launchCommand_sendCommand m _ _ _ _ _⟩

theorem dispatchAllocatedJob_eq (m : Manager) (job : JobDict) (nodes : List NodeRow) :
    m.dispatchAllocatedJob cfg job nodes now =
      (m.startJob job nodes now).sendCommands cfg job
        ((nodes.head?.map NodeRow.ipAddress).getD "") nodes.zipIdx := rfl

theorem mem_selectNodes {job : JobDict} {node : NodeRow} (h : node ∈ m.selectNodes cfg job now) :
    node ∈ (m.registry.getAvailableNodes now).2 :=
  mem_of_mem_allocate h

theorem registry_dispatch (m : Manager) (job : JobDict) (nodes : List NodeRow) :
    ((m.reserveNodes nodes).dispatchAllocatedJob cfg job nodes now).registry =
      (m.reserveNodes nodes).registry.updateJobStatus job.jobId .running
        (some (nodes.map NodeRow.nodeId)) none now := by
  rw [dispatchAllocatedJob_eq, (sendCommands_keeps _ _ _ _ _).1]
  rfl

theorem jobs_dispatch (m : Manager) (queue : List JobDict) (job : JobDict)
    (nodes : List NodeRow) :
    (((m.popTopJob queue now).reserveNodes nodes).dispatchAllocatedJob cfg job nodes
        now).registry.jobs =
      (m.registry.updateJobStatus job.jobId .running (some (nodes.map NodeRow.nodeId)) none
        now).jobs := by
  simp only [registry_dispatch, Registry.updateJobStatus, Registry.updateJob, jobs_reserveNodes]
  rfl

theorem running_dispatch {queue : List JobDict} {job : JobDict} {nodes : List NodeRow}
    {row : JobRow} (h : row ∈ (((m.popTopJob queue now).reserveNodes nodes).dispatchAllocatedJob
      cfg job nodes now).registry.getJobs .running) :
    row.jobId ≠ job.jobId ∧ row ∈ m.registry.getJobs .running ∨
      row.jobId = job.jobId ∧ row.assignedNodes = nodes.map NodeRow.nodeId := by
  obtain ⟨hrow, hs⟩ := Registry.mem_getJobs.1 h
  rw [registry_dispatch, Registry.updateJobStatus, Registry.getJob_updateJob] at hrow
  simp only [Registry.getJob, jobs_reserveNodes] at hrow
  split_ifs at hrow with hj
  · obtain ⟨r, -, rfl⟩ := Option.map_eq_some_iff.1 hrow
    exact .inr ⟨hj, rfl⟩
  · exact .inl ⟨hj, Registry.mem_getJobs.2 ⟨hrow, hs⟩⟩

theorem getNode_dispatch (m : Manager) (queue : List JobDict) (job : JobDict)
    (nodes : List NodeRow) (n : String) :
    (((m.popTopJob queue now).reserveNodes nodes).dispatchAllocatedJob cfg job nodes
        now).registry.getNode n =
      ((m.registry.markOfflineNodes now defaultTimeoutSeconds).getNode n).map fun r =>
        if n ∈ nodes.map NodeRow.nodeId then { r with status := .reserved } else r := by
  rw [registry_dispatch]
  exact getNode_reserveNodes (m.popTopJob queue now) nodes n

/-! ### Monitor -/

end Manager

/-- What the monitor leaves of a running row. -/
def JobRow.failedOver (offline : List String) (now : Time) (row : JobRow) : JobRow :=
  if row.lostNode offline then
    if row.retries < row.maxRetries then { row with status := .pending, retries := row.retries + 1 }
    else row.withStatus .failed none (some 1) now
  else row

/-- The entries that the monitor appends. -/
def failOverEntries (offline : List String) (jobs : List JobRow) : List JobDict :=
  (jobs.filter fun job => job.lostNode offline && decide (job.retries < job.maxRetries)).map
    fun job => job.toDict.retried

namespace Manager

variable {cfg : Setup} {m : Manager} {now : Time} {offline : List String}

/-- The monitor writes the row it has read, if it is still the same. -/
theorem getJob_failOver {job : JobRow} (h : m.registry.getJob job.jobId = some job) (j : String) :
    (m.failOver offline now job).registry.getJob j = (m.registry.getJob j).map fun row =>
      if j = job.jobId then row.failedOver offline now else row := by
  -- the three branches differ in what they do to the row that was read
  have hmap : ∀ f : JobRow → JobRow, f job = job.failedOver offline now →
      (if j = job.jobId then (m.registry.getJob job.jobId).map f else m.registry.getJob j) =
        (m.registry.getJob j).map fun row =>
          if j = job.jobId then row.failedOver offline now else row := by
    intro f hf
    by_cases hj : j = job.jobId
    · simp [hj, h, hf]
    · simp [hj]
  unfold failOver
  by_cases hlost : job.lostNode offline = true
  · by_cases hlt : job.retries < job.maxRetries
    · rw [if_pos hlost, if_pos hlt]
      exact (Registry.getJob_updateJob _ _ _ _).trans
        (hmap _ (by simp [JobRow.failedOver, hlost, hlt]))
    · rw [if_pos hlost, if_neg hlt]
      exact (Registry.getJob_updateJob _ _ _ _).trans
        (hmap _ (by simp [JobRow.failedOver, hlost, hlt]))
  · rw [if_neg hlost, ← hmap id (by simp [JobRow.failedOver, hlost])]
    by_cases hj : j = job.jobId <;> simp [hj]

theorem nodes_failOver (m : Manager) (job : JobRow) :
    (m.failOver offline now job).registry.nodes = m.registry.nodes := by
  unfold failOver
  split_ifs <;> rfl

theorem commandQueues_failOver (m : Manager) (job : JobRow) :
    (m.failOver offline now job).commandQueues = m.commandQueues := by
  unfold failOver
  split_ifs <;> rfl

theorem dispatchesIn_failOver (m : Manager) (job : JobRow) (j : String) :
    dispatchesIn (m.failOver offline now job).history j = dispatchesIn m.history j := by
  unfold failOver
  split_ifs
  · simp [retryJob, enqueue, writeRetry, dispatchesIn, Event.isDispatchOf]
  · rfl
  · rfl

theorem queue_failOver (m : Manager) (job : JobRow) :
    (m.failOver offline now job).queue.Perm (failOverEntries offline [job] ++ m.queue) := by
  unfold failOver
  split_ifs with hlost hlt
  · have hentries : failOverEntries offline [job] = [job.toDict.retried] := by
      simp [failOverEntries, hlost, hlt]
    rw [hentries]
    exact perm_appendSorted m.queue job.toDict.retried
  · simp [failOverEntries, hlt, closeJob, setRegistry]
  · simp [failOverEntries, hlost]

/-- The loop of the monitor over the running jobs. -/
def failOverAll (m : Manager) (offline : List String) (now : Time) (jobs : List JobRow) : Manager :=
  jobs.foldl (fun m job => m.failOver offline now job) m

theorem getJob_failOverAll {jobs : List JobRow} (hnd : (jobs.map JobRow.jobId).Nodup)
    (h : ∀ job ∈ jobs, m.registry.getJob job.jobId = some job) (j : String) :
    (m.failOverAll offline now jobs).registry.getJob j = (m.registry.getJob j).map fun row =>
      if j ∈ jobs.map JobRow.jobId then row.failedOver offline now else row := by
  induction jobs generalizing m with
  | nil => simp [failOverAll]
  | cons job jobs ih =>
    obtain ⟨hne, hnd⟩ := List.nodup_cons.1 hnd
    have hhead : ∀ j, (m.failOver offline now job).registry.getJob j = _ :=
      getJob_failOver (h job List.mem_cons_self)
    have hother : ∀ job' ∈ jobs, job'.jobId ≠ job.jobId := by
      intro job' hjob' heq
      exact hne (heq ▸ List.mem_map_of_mem hjob')
    -- failing over one row leaves the other rows that were read as they are
    refine (ih hnd fun job' hjob' => ?_).trans ?_
    · rw [hhead, h job' (List.mem_cons_of_mem _ hjob')]
      simp [hother job' hjob']
    · rw [hhead, Option.map_map]
      refine Option.map_congr fun row _ => ?_
      by_cases hj : j = job.jobId
      · subst hj; simp [hne]
      · simp [hj]

theorem failOverAll_frame {α : Type*} (view : Manager → α)
    (h : ∀ m job, view (m.failOver offline now job) = view m) (m : Manager) (jobs : List JobRow) :
    view (m.failOverAll offline now jobs) = view m := by
  induction jobs generalizing m with
  | nil => rfl
  | cons job jobs ih => exact (ih (m.failOver offline now job)).trans (h m job)

theorem failOverAll_keeps (m : Manager) (jobs : List JobRow) :
    (m.failOverAll offline now jobs).registry.nodes = m.registry.nodes ∧
      (m.failOverAll offline now jobs).commandQueues = m.commandQueues ∧
      ∀ j, dispatchesIn (m.failOverAll offline now jobs).history j = dispatchesIn m.history j :=
  ⟨failOverAll_frame (fun m => m.registry.nodes) nodes_failOver m jobs,
    failOverAll_frame commandQueues commandQueues_failOver m jobs,
    fun j => failOverAll_frame (fun m => dispatchesIn m.history j)
      (fun m job => dispatchesIn_failOver m job j) m jobs⟩

theorem queue_failOverAll (m : Manager) (jobs : List JobRow) :
    (m.failOverAll offline now jobs).queue.Perm (failOverEntries offline jobs ++ m.queue) := by
  induction jobs generalizing m with
  | nil => exact .refl _
  | cons job jobs ih =>
    refine (ih (m.failOver offline now job)).trans ?_
    refine ((queue_failOver m job).append_left _).trans ?_
    rw [← List.append_assoc]
    refine List.Perm.append_right _ (List.perm_append_comm.trans (.of_eq ?_))
    simp only [failOverEntries, ← List.map_append, ← List.filter_append, List.singleton_append]

theorem getNode_markAndCount (m : Manager) (n : String) :
    (m.markAndCount now).registry.getNode n =
      (m.registry.markOfflineNodes now defaultTimeoutSeconds).getNode n := by
  show ((m.registry.markOfflineNodes now defaultTimeoutSeconds).markOfflineNodes now
    defaultTimeoutSeconds).getNode n = _
  rw [Registry.getNode_markOfflineNodes _ _ n, Registry.getNode_markOfflineNodes _ _ n,
    Option.map_map]
  exact Option.map_congr fun r _ => r.mark_mark _

/-- A monitor pass as one loop: without offline nodes it does nothing. -/
theorem monitorPass_eq (m : Manager) :
    m.monitorPass cfg now = (m.failOverAll (m.offlineNodes cfg now) now
      (m.registry.getJobs .running)).markAndCount now := by
  unfold monitorPass
  dsimp only
  split_ifs with hempty
  · have hid : ∀ jobs : List JobRow, m.failOverAll [] now jobs = m := by
      intro jobs
      induction jobs with
      | nil => rfl
      | cons job jobs ih =>
        simp only [failOverAll, List.foldl_cons, failOver, JobRow.lostNode, List.any_nil,
          Bool.false_eq_true, if_false] at ih ⊢
        exact ih
    rw [List.isEmpty_iff.1 hempty, hid]
  · rfl

/-- **A monitor pass fails over the running jobs that lost a node**, and no other row. -/
theorem getJob_monitorPass (m : Manager) (j : String) :
    (m.monitorPass cfg now).registry.getJob j = (m.registry.getJob j).map fun row =>
      if row.status = .running then row.failedOver (m.offlineNodes cfg now) now else row := by
  rw [monitorPass_eq]
  refine (getJob_failOverAll (m.registry.nodup_getJobs _)
    (fun job hjob => (Registry.mem_getJobs.1 hjob).1) j).trans ?_
  refine Option.map_congr fun row hrow => if_congr ?_ rfl rfl
  rw [List.mem_map]
  constructor
  · rintro ⟨row', hrow', rfl⟩
    obtain ⟨h, hs⟩ := Registry.mem_getJobs.1 hrow'
    obtain rfl : row' = row := Option.some.inj (h.symm.trans hrow)
    exact hs
  · intro hs
    have hid := Registry.jobId_of_getJob hrow
    exact ⟨row, Registry.mem_getJobs.2 ⟨hid ▸ hrow, hs⟩, hid⟩

theorem mem_running_monitorPass {row : JobRow}
    (h : row ∈ (m.monitorPass cfg now).registry.getJobs .running) :
    row ∈ m.registry.getJobs .running ∧ row.lostNode (m.offlineNodes cfg now) = false := by
  obtain ⟨hrow, hs⟩ := Registry.mem_getJobs.1 h
  rw [getJob_monitorPass] at hrow
  obtain ⟨r, hr, heq⟩ := Option.map_eq_some_iff.1 hrow
  have hsame : r = row ∧ row.lostNode (m.offlineNodes cfg now) = false := by
    subst heq
    simp only [JobRow.failedOver, JobRow.withStatus] at hs ⊢
    split_ifs at hs ⊢ with hrun hlost
    · exact ⟨rfl, by simpa using hlost⟩
    · exact absurd hs hrun
  obtain ⟨rfl, hlost⟩ := hsame
  exact ⟨Registry.mem_getJobs.2 ⟨hr, hs⟩, hlost⟩

theorem getNode_monitorPass (m : Manager) (n : String) :
    (m.monitorPass cfg now).registry.getNode n =
      (m.registry.markOfflineNodes now defaultTimeoutSeconds).getNode n := by
  rw [monitorPass_eq, getNode_markAndCount]
  simp only [Registry.getNode, Registry.markOfflineNodes, Registry.updateNodes,
    (failOverAll_keeps m _).1]

theorem queue_monitorPass (m : Manager) : (m.monitorPass cfg now).queue.Perm
    (failOverEntries (m.offlineNodes cfg now) (m.registry.getJobs .running) ++ m.queue) := by
  rw [monitorPass_eq]
  exact queue_failOverAll m _

theorem commandQueues_monitorPass (m : Manager) :
    (m.monitorPass cfg now).commandQueues = m.commandQueues := by
  rw [monitorPass_eq]
  exact (failOverAll_keeps m _).2.1

theorem dispatchesIn_monitorPass (m : Manager) (j : String) :
    dispatchesIn (m.monitorPass cfg now).history j = dispatchesIn m.history j := by
  rw [monitorPass_eq]
  exact (failOverAll_keeps m _).2.2 j

end Manager

end Dmlf
