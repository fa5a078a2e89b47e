import Dmlf.Manager.Effects

/-!
# A scheduler pass from end to end

An iteration of the scheduler loop goes through the queue, the registry, the allocator and the
command queues.  `Manager.schedulerPass_outcome` says what it does to each of them and what it
leaves alone, in terms of the state before it.

* `Registry.freshNodes` : the nodes a pass may use, without a word on how stale ones are marked.
* `Manager.PassIdle`, `PassRequeues`, `PassDispatches` : the three outcomes, with their frames.
-/

namespace Dmlf

/-- The idle nodes with a heartbeat in the last 15 seconds, in the order of the table. -/
def Registry.freshNodes (reg : Registry) (now : Time) : List NodeRow :=
  reg.nodes.rows.filter fun r => r.status = .idle ∧ now - 15 ≤ r.lastHeartbeat

theorem NodeRow.mark_of_fresh {cutoff : Time} {r : NodeRow} (h : cutoff ≤ r.lastHeartbeat) :
    r.mark cutoff = r := by
  simp [mark, isStale, not_lt.2 h]

theorem NodeRow.idle_mark_iff {cutoff : Time} {r : NodeRow} :
    (r.mark cutoff).status = .idle ↔ r.status = .idle ∧ cutoff ≤ r.lastHeartbeat := by
  rcases lt_or_ge r.lastHeartbeat cutoff with hold | hfresh
  · -- an old row is marked unless its status excludes that, and such a row is not idle
    refine iff_of_false (fun h => ?_) fun h => absurd hold (not_lt.2 h.2)
    have hidle := idle_of_mark h
    simp [mark, isStale, hold, hidle] at h
  · rw [mark_of_fresh hfresh]
    exact (and_iff_left hfresh).symm

namespace Manager

variable {cfg : Setup} {m : Manager} {now : Time}

theorem getAvailableNodes_eq (reg : Registry) (now : Time) :
    (reg.getAvailableNodes now).2 = reg.freshNodes now := by
  have hrows : (reg.markOfflineNodes now defaultTimeoutSeconds).nodes.rows =
      reg.nodes.rows.map (NodeRow.mark (now - 15)) := rfl
  simp only [Registry.getAvailableNodes, Registry.freshNodes, hrows, List.filter_map,
    Function.comp_def, NodeRow.idle_mark_iff]
  refine (List.map_congr_left (g := id) fun r hr => ?_).trans (List.map_id _)
  exact NodeRow.mark_of_fresh (of_decide_eq_true (List.mem_filter.1 hr).2).2

/-- The nodes that a pass picks for a job. -/
def picks (cfg : Setup) (m : Manager) (now : Time) (job : JobDict) : List NodeRow :=
  allocate cfg.scoreNode (m.registry.freshNodes now) job.requiredNodes

theorem selectNodes_eq (job : JobDict) : m.selectNodes cfg job now = m.picks cfg now job := by
  rw [selectNodes, picks, getAvailableNodes_eq]

/-- A pass that finds no job leaves everything alone. -/
structure PassIdle (m m' : Manager) : Prop where
  queue : m.queue = []
  same : m' = m

/-- A pass that finds too few nodes for the top job `job` marks the stale nodes and leaves the
queue, the jobs and the command queues alone. -/
structure PassRequeues (cfg : Setup) (m : Manager) (now : Time) (job : JobDict) (m' : Manager) :
    Prop where
  top : m.queue.head? = some job
  tooFew : m.picks cfg now job = []
  queue : m'.queue = m.queue
  jobs : m'.registry.jobs = m.registry.jobs
  commandQueues : m'.commandQueues = m.commandQueues
  nodes : ∀ n, m'.registry.getNode n = (m.registry.getNode n).map (NodeRow.mark (now - 15))

/-- A pass that dispatches the top job `job`: what it does to the queue, the nodes, the row of
the job and the command queues of its nodes, and that it leaves the rest alone. -/
structure PassDispatches (cfg : Setup) (m : Manager) (now : Time) (job : JobDict) (m' : Manager) :
    Prop where
  top : m.queue.head? = some job
  enough : m.picks cfg now job ≠ []
  queue : m'.queue = m.queue.tail
  /-- No node is picked twice. -/
  nodup : ((m.picks cfg now job).map NodeRow.nodeId).Nodup
  /-- Exactly the nodes that are picked become `RESERVED`; the others are marked if stale. -/
  nodes : ∀ n, m'.registry.getNode n = (m.registry.getNode n).map fun r =>
    if n ∈ (m.picks cfg now job).map NodeRow.nodeId then { r with status := .reserved }
    else r.mark (now - 15)
  row : ∃ row, m.registry.getJob job.jobId = some row ∧
    m'.registry.getJob job.jobId = .some { row with
      status := .running, startedAt := some now
      assignedNodes := (m.picks cfg now job).map NodeRow.nodeId }
  otherRows : ∀ j ≠ job.jobId, m'.registry.getJob j = m.registry.getJob j
  /-- The node at rank `k` gets one command, if it has a queue. -/
  launched : ∀ k node, (m.picks cfg now job)[k]? = some node → ∃ command : Command,
    command.type = .launchJob ∧ command.jobPayload.jobId = job.jobId ∧
    command.jobPayload.nodeRank = k ∧
    m'.commandQueues node.nodeId = (m.commandQueues node.nodeId).map (· ++ [command])
  otherQueues : ∀ n ∉ (m.picks cfg now job).map NodeRow.nodeId,
    m'.commandQueues n = m.commandQueues n

theorem nodup_picks (job : JobDict) : ((m.picks cfg now job).map NodeRow.nodeId).Nodup := by
  have hfresh : ((m.registry.freshNodes now).map NodeRow.nodeId).Nodup :=
    m.registry.nodes.nodup.sublist (List.filter_sublist.map _)
  obtain ⟨l, hperm, hsub⟩ := subperm_allocate cfg.scoreNode (m.registry.freshNodes now)
    job.requiredNodes
  exact ((hperm.map _).nodup_iff).1 (hfresh.sublist (hsub.map _))

theorem fresh_of_picks {job : JobDict} {n : String} {r : NodeRow}
    (hn : n ∈ (m.picks cfg now job).map NodeRow.nodeId) (hr : m.registry.getNode n = some r) :
    r.status = .idle ∧ now - 15 ≤ r.lastHeartbeat := by
  obtain ⟨node, hnode, rfl⟩ := List.mem_map.1 hn
  obtain ⟨hrow, hfresh⟩ := List.mem_filter.1 (mem_of_mem_allocate hnode)
  obtain rfl : node = r := Option.some.inj ((Registry.mem_nodes.1 hrow).symm.trans hr)
  exact of_decide_eq_true hfresh

theorem getJob_dispatch (m : Manager) (queue : List JobDict) (job : JobDict)
    (nodes : List NodeRow) (j : String) :
    (((m.popTopJob queue now).reserveNodes nodes).dispatchAllocatedJob cfg job nodes
        now).registry.getJob j =
      if j = job.jobId then (m.registry.getJob job.jobId).map
        (JobRow.withStatus .running (some (nodes.map NodeRow.nodeId)) none now)
      else m.registry.getJob j := by
  rw [Registry.getJob, jobs_dispatch]
  exact Registry.getJob_updateJob ..

/-- The command queues after the dispatch of a popped job: the commands go to the queues as they
were before. -/
theorem commandQueues_dispatch (cfg : Setup) (now : Time) (m : Manager) (queue : List JobDict)
    (job : JobDict) (nodes : List NodeRow) :
    ∃ (m₁ : Manager) (masterAddr : String), m₁.commandQueues = m.commandQueues ∧
      (((m.popTopJob queue now).reserveNodes nodes).dispatchAllocatedJob cfg job nodes
        now).commandQueues = (m₁.sendCommands cfg job masterAddr nodes.zipIdx).commandQueues := by
  refine ⟨((m.popTopJob queue now).reserveNodes nodes).startJob job nodes now,
    (nodes.head?.map NodeRow.ipAddress).getD "", ?_, rfl⟩
  rw [reserveNodes_eq]
  rfl

theorem passDispatches {job : JobDict} {queue : List JobDict} (hq : m.queue = job :: queue)
    (hne : m.picks cfg now job ≠ []) (hjob : (m.registry.getJob job.jobId).isSome) :
    PassDispatches cfg m now job (((m.popTopJob queue now).reserveNodes
      (m.picks cfg now job)).dispatchAllocatedJob cfg job (m.picks cfg now job) now) := by
  have hids : ((m.picks cfg now job).zipIdx.map fun x => x.1.nodeId) =
      (m.picks cfg now job).map NodeRow.nodeId := by
    rw [show (fun x : NodeRow × ℕ => x.1.nodeId) = NodeRow.nodeId ∘ Prod.fst from rfl,
      ← List.map_map, List.zipIdx_map_fst]
  obtain ⟨m₁, masterAddr, hm₁, hsend⟩ :=
    commandQueues_dispatch cfg now m queue job (m.picks cfg now job)
  obtain ⟨row, hrow⟩ := Option.isSome_iff_exists.1 hjob
  refine ⟨by simp [hq], hne, ?_, nodup_picks job, fun n => ?_, ⟨row, hrow, ?_⟩, fun j hj => ?_,
    fun k node hk => ?_, fun n hn => ?_⟩
  · rw [dispatchAllocatedJob_eq, (sendCommands_keeps ..).2.1, reserveNodes_eq, hq]
    rfl
  · rw [getNode_dispatch, Registry.getNode_markOfflineNodes, Option.map_map]
    refine Option.map_congr fun r hr => ?_
    by_cases hn : n ∈ (m.picks cfg now job).map NodeRow.nodeId
    · have hmark : r.mark (now - defaultTimeoutSeconds) = r :=
        NodeRow.mark_of_fresh (fresh_of_picks hn hr).2
      simp [hn, hmark]
    · simp only [Function.comp_apply, if_neg hn]
      rfl
  · rw [getJob_dispatch, if_pos rfl, hrow]
    rfl
  · rw [getJob_dispatch, if_neg hj]
  · have hmem : (node, k) ∈ (m.picks cfg now job).zipIdx := by
      simpa [List.mk_mem_zipIdx_iff_getElem?] using hk
    refine ⟨m₁.launchCommand cfg job masterAddr k, rfl, rfl, rfl, ?_⟩
    rw [hsend, ← hm₁]
    exact commandQueues_sendCommands (hids ▸ nodup_picks job) hmem
  · rw [hsend, ← hm₁]
    exact commandQueues_sendCommands_of_not_mem (hids ▸ hn)

/-- **A scheduler pass from end to end.**  If the queued jobs are known, a pass that nothing
interrupts has exactly one of three outcomes. -/
theorem schedulerPass_outcome (cfg : Setup) (m : Manager) (now : Time)
    (h : ∀ job ∈ m.queue, (m.registry.getJob job.jobId).isSome) :
    let m' := m.schedulerPass cfg now
    (PassIdle m m' ∨ (∃ job, PassRequeues cfg m now job m') ∨
      ∃ job, PassDispatches cfg m now job m') ∧
    ¬ (PassIdle m m' ∧ ∃ job, PassRequeues cfg m now job m') ∧
    ¬ (PassIdle m m' ∧ ∃ job, PassDispatches cfg m now job m') ∧
    ¬ ((∃ job, PassRequeues cfg m now job m') ∧ ∃ job, PassDispatches cfg m now job m') := by
  dsimp only
  refine ⟨?_, ?_, ?_, ?_⟩
  · have heff := passEffect cfg m now
    generalize m.schedulerPass cfg now = m' at heff
    cases heff with
    | noJob hq => exact .inl ⟨hq, rfl⟩
    | requeued job queue hq hnone =>
      rw [selectNodes_eq] at hnone
      exact .inr (.inl ⟨job, by simp [hq], hnone, hq.symm, rfl, rfl,
        Registry.getNode_markOfflineNodes now defaultTimeoutSeconds⟩)
    | dispatched job queue hq hsome =>
      rw [selectNodes_eq] at hsome ⊢
      exact .inr (.inr ⟨job, passDispatches hq hsome (h job (hq ▸ List.mem_cons_self))⟩)
  · rintro ⟨hidle, job, hreq⟩
    simpa [hidle.queue] using hreq.top
  · rintro ⟨hidle, job, hdis⟩
    simpa [hidle.queue] using hdis.top
  · rintro ⟨⟨job, hreq⟩, job', hdis⟩
    obtain rfl : job = job' := Option.some.inj (hreq.top.symm.trans hdis.top)
    exact hdis.enough hreq.tooFew

/-- One node, and a job for it. -/
theorem schedulerPass_outcome_single :
    let m := (((serve .empty []).registerNode "node-1" "secret-1" Sample.node 100).submitJob
      "job-1" (Sample.job 1 1) 101).getD (serve .empty [])
    let m' := m.schedulerPass Sample.setup 102
    PassIdle m m' ∨ (∃ job, PassRequeues Sample.setup m 102 job m') ∨
      ∃ job, PassDispatches Sample.setup m 102 job m' :=
  (schedulerPass_outcome Sample.setup _ 102 (by decide +kernel)).1

end Manager

end Dmlf
