import Dmlf.Jobs.Pass

/-!
# The world that a job is started in

`torchrun` waits for as many nodes as it is told there are, with ranks from zero on, at the address
of the node with rank zero.  `SubmitJob` accepts any number of nodes, and so does every layer after
it: the length test and the slice of the allocator, the emptiness test of the scheduler loop, and
the enumeration of the ranks.

* `Manager.World` : commands that start a job as `torchrun` needs it.
* `Manager.worldWellFormed_iff` : a pass dispatches a job whenever there are enough nodes, and
  starts it as it should, exactly if the job asks for at least one node.
-/

namespace Dmlf

theorem length_allocate (score : NodeRow → ℚ) (available : List NodeRow) {k : ℤ} (hk : 1 ≤ k) :
    ((allocate score available k).length : ℤ) = if k ≤ available.length then k else 0 := by
  unfold allocate
  by_cases hlen : (available.length : ℤ) < k
  · rw [if_pos hlen, if_neg (not_le.2 hlen), List.length_nil, Nat.cast_zero]
  · rw [if_neg hlen, if_pos (not_lt.1 hlen), sliceTo, if_pos (by omega : (0 : ℤ) ≤ k),
      List.length_take, List.length_insertionSort]
    omega

namespace Manager

variable {cfg : Setup} {m : Manager} {now : Time} {job : JobDict} {queue : List JobDict}

/-- The commands that `dispatch_allocated_job` builds, each with the node that it is for. -/
def builtCommands (cfg : Setup) (m : Manager) (job : JobDict) (nodes : List NodeRow) :
    List (String × Command) :=
  nodes.zipIdx.map fun (node, rank) =>
    (node.nodeId, m.launchCommand cfg job ((nodes.head?.map NodeRow.ipAddress).getD "") rank)

theorem dispatchAllocatedJob_eq_foldl (m : Manager) (job : JobDict) (nodes : List NodeRow) :
    m.dispatchAllocatedJob cfg job nodes now =
      ((m.startJob job nodes now).builtCommands cfg job nodes).foldl
        (fun m (n, command) => m.sendCommand n command) (m.startJob job nodes now) := by
  rw [builtCommands, List.foldl_map]
  -- sending a command does not change what the next one is built from
  have hsend : ∀ (m₀ m₁ : Manager) (masterAddr : String) (todo : List (NodeRow × ℕ)),
      (∀ rank, m₁.launchCommand cfg job masterAddr rank =
        m₀.launchCommand cfg job masterAddr rank) →
      m₁.sendCommands cfg job masterAddr todo = todo.foldl (fun m x =>
        m.sendCommand x.1.nodeId (m₀.launchCommand cfg job masterAddr x.2)) m₁ := by
    intro m₀ m₁ masterAddr todo h
    induction todo generalizing m₁ with
    | nil => rfl
    | cons x todo ih =>
      rw [List.foldl_cons, ← h x.2]
      exact ih _ fun rank => (launchCommand_sendCommand ..).trans (h rank)
  exact hsend _ _ _ _ fun _ => rfl

/-- The commands that a scheduler pass at time `now` builds. -/
def passCommands (cfg : Setup) (m : Manager) (now : Time) : List (String × Command) :=
  match m.queue with
  | [] => []
  | job :: queue =>
    let nodes := m.selectNodes cfg job now
    (((m.popTopJob queue now).reserveNodes nodes).startJob job nodes now).builtCommands cfg job
      nodes

/-- The pass sets the job `RUNNING`. -/
def PassStarts (cfg : Setup) (m : Manager) (now : Time) (job : JobDict) : Prop :=
  ∃ nodes, (m.schedulerPass cfg now).history = m.history ++ [.dispatched job.jobId nodes]

/-- The commands `sends` start a job on `nnodes` nodes. -/
structure World (m : Manager) (nnodes : ℤ) (sends : List (String × Command)) : Prop where
  size : (sends.length : ℤ) = nnodes
  distinct : (sends.map Prod.fst).Nodup
  launch : ∀ x ∈ sends, x.2.type = .launchJob ∧ x.2.jobPayload.nnodes = nnodes
  ranks : sends.map (fun x => x.2.jobPayload.nodeRank) = List.range sends.length
  /-- All of them carry the address of the node with rank zero. -/
  master : ∃ y ∈ sends, y.2.jobPayload.nodeRank = 0 ∧ ∃ r ∈ m.registry.getNode y.1,
    ∀ x ∈ sends, x.2.jobPayload.masterAddr = r.ipAddress

/-- The top job is dispatched if there are enough nodes, and if it is dispatched, the commands that
are sent start it as it should be. -/
structure WorldWellFormed (cfg : Setup) (m : Manager) (now : Time) (job : JobDict) : Prop where
  starts : job.requiredNodes ≤ (m.registry.freshNodes now).length → m.PassStarts cfg now job
  sends : m.PassStarts cfg now job → ∃ m₁ : Manager, m₁.commandQueues = m.commandQueues ∧
    m.schedulerPass cfg now = (m.passCommands cfg now).foldl
      (fun m (n, command) => m.sendCommand n command) m₁
  world : m.PassStarts cfg now job → m.World job.requiredNodes (m.passCommands cfg now)

theorem schedulerPass_of_cons (cfg : Setup) (now : Time) (hq : m.queue = job :: queue) :
    m.schedulerPass cfg now =
      if m.picks cfg now job = [] then (m.popTopJob queue now).requeueJob job
      else ((m.popTopJob queue now).reserveNodes (m.picks cfg now job)).dispatchAllocatedJob cfg job
        (m.picks cfg now job) now := by
  have heff := passEffect cfg m now
  generalize m.schedulerPass cfg now = m' at heff ⊢
  cases heff with
  | noJob hnil => cases hq.symm.trans hnil
  | requeued job' queue' hq' hnone =>
    obtain ⟨rfl, rfl⟩ := List.cons.inj (hq.symm.trans hq')
    rw [selectNodes_eq] at hnone
    rw [if_pos hnone]
  | dispatched job' queue' hq' hsome =>
    obtain ⟨rfl, rfl⟩ := List.cons.inj (hq.symm.trans hq')
    rw [selectNodes_eq] at hsome ⊢
    rw [if_neg hsome]

theorem passStarts_iff (cfg : Setup) (now : Time) (hq : m.queue = job :: queue) :
    m.PassStarts cfg now job ↔ m.picks cfg now job ≠ [] := by
  rw [PassStarts, schedulerPass_of_cons cfg now hq]
  split_ifs with hpicks
  · refine iff_of_false ?_ fun h => h hpicks
    rintro ⟨nodes, hhistory⟩
    exact absurd (congrArg List.length hhistory) (by simp [requeueJob, popTopJob])
  · refine iff_of_true ⟨(m.picks cfg now job).map NodeRow.nodeId, ?_⟩ hpicks
    rw [dispatchAllocatedJob_eq, (sendCommands_keeps ..).2.2, startJob, reserveNodes_eq]
    rfl

theorem passCommands_eq (cfg : Setup) (now : Time) (hq : m.queue = job :: queue) :
    m.passCommands cfg now = (((m.popTopJob queue now).reserveNodes
      (m.picks cfg now job)).startJob job (m.picks cfg now job) now).builtCommands cfg job
        (m.picks cfg now job) := by
  simp only [passCommands, hq, selectNodes_eq]

theorem schedulerPass_eq_foldl (hq : m.queue = job :: queue) (h : m.PassStarts cfg now job) :
    ∃ m₁ : Manager, m₁.commandQueues = m.commandQueues ∧
      m.schedulerPass cfg now = (m.passCommands cfg now).foldl
        (fun m (n, command) => m.sendCommand n command) m₁ := by
  rw [schedulerPass_of_cons cfg now hq, if_neg ((passStarts_iff cfg now hq).1 h),
    passCommands_eq cfg now hq, dispatchAllocatedJob_eq_foldl]
  refine ⟨_, ?_, rfl⟩
  rw [startJob, reserveNodes_eq]
  rfl

theorem length_passCommands (hq : m.queue = job :: queue) :
    (m.passCommands cfg now).length = (m.picks cfg now job).length := by
  simp [passCommands_eq cfg now hq, builtCommands]

theorem nodes_passCommands (hq : m.queue = job :: queue) :
    (m.passCommands cfg now).map Prod.fst = (m.picks cfg now job).map NodeRow.nodeId := by
  simp only [passCommands_eq cfg now hq, builtCommands, List.map_map]
  rw [show (Prod.fst ∘ fun x : NodeRow × ℕ => _) = NodeRow.nodeId ∘ Prod.fst from rfl,
    ← List.map_map, List.zipIdx_map_fst]

/-- **A job that is dispatched to as many nodes as it asks for** is started as it should be. -/
theorem world_passCommands (hq : m.queue = job :: queue)
    (hlen : ((m.picks cfg now job).length : ℤ) = job.requiredNodes)
    (hne : m.picks cfg now job ≠ []) : m.World job.requiredNodes (m.passCommands cfg now) := by
  obtain ⟨master, rest, hpicks⟩ := List.exists_cons_of_ne_nil hne
  have hmem : master ∈ m.registry.freshNodes now :=
    mem_of_mem_allocate (hpicks ▸ List.mem_cons_self : master ∈ m.picks cfg now job)
  have hcommands := passCommands_eq cfg now hq
  rw [builtCommands] at hcommands
  refine ⟨by rw [length_passCommands hq, hlen], nodes_passCommands hq ▸ nodup_picks job, ?_, ?_, ?_⟩
  · intro x hx
    rw [hcommands] at hx
    obtain ⟨y, -, rfl⟩ := List.mem_map.1 hx
    exact ⟨rfl, rfl⟩
  · rw [length_passCommands hq, hcommands, List.map_map]
    exact (List.zipIdx_map_snd 0 _).trans (List.range_eq_range' ..).symm
  · -- the first command is the one for the master
    have hfirst : (master, 0) ∈ (m.picks cfg now job).zipIdx := by simp [hpicks]
    refine ⟨_, hcommands ▸ List.mem_map_of_mem hfirst, rfl, master,
      Registry.mem_nodes.1 (List.mem_filter.1 hmem).1, fun x hx => ?_⟩
    rw [hcommands] at hx
    obtain ⟨y, -, rfl⟩ := List.mem_map.1 hx
    simp [launchCommand, hpicks]

/-- **A job has a well-formed world exactly if it asks for at least one node.**  One that asks for
none is never dispatched, and one that asks for fewer is started on as many nodes as the slice
leaves, or not at all. -/
theorem worldWellFormed_iff (cfg : Setup) (now : Time) (hq : m.queue = job :: queue) :
    WorldWellFormed cfg m now job ↔ 1 ≤ job.requiredNodes := by
  have hstarts := passStarts_iff cfg now hq
  constructor
  · intro h
    by_contra hlt
    -- there are enough nodes, so the job has been started on at least one
    have hpass : m.PassStarts cfg now job := h.starts (by omega)
    have hsize := (h.world hpass).size
    have hpos : 0 < (m.picks cfg now job).length := List.length_pos_iff.2 (hstarts.1 hpass)
    rw [length_passCommands hq] at hsize
    omega
  · intro hk
    have hlen := length_allocate cfg.scoreNode (m.registry.freshNodes now) hk
    refine ⟨?_, schedulerPass_eq_foldl hq, ?_⟩
    · intro henough
      rw [hstarts, picks, ← List.length_pos_iff]
      rw [if_pos henough] at hlen
      omega
    · intro hpass
      have hne := hstarts.1 hpass
      have hpos : 0 < (m.picks cfg now job).length := List.length_pos_iff.2 hne
      refine world_passCommands hq ?_ hne
      rw [picks] at hpos ⊢
      split_ifs at hlen <;> omega

end Manager

/-- A manager at which some nodes have registered, and a job is queued for `nnodes` nodes. -/
def Sample.queued (nodes : List String) (nnodes : ℤ) : Manager :=
  let m := nodes.foldl (fun (m : Manager) n => m.registerNode n "secret" Sample.node 100)
    (.serve .empty [])
  (m.submitJob "job-1" (Sample.job nnodes 1) 101).getD m

namespace Manager

/-- One node, and a job for it. -/
theorem worldWellFormed_iff_single :
    WorldWellFormed Sample.setup (Sample.queued ["node-1"] 1) 102
      ((Sample.job 1 1).toDict "job-1") ↔ 1 ≤ ((Sample.job 1 1).toDict "job-1").requiredNodes :=
  worldWellFormed_iff Sample.setup 102 rfl

/-- A job for no node at all stays at the front of the queue, although there is an idle node. -/
theorem worldWellFormed_fails :
    ¬ ∀ (cfg : Setup) (m : Manager) (now : Time) (job : JobDict) (queue : List JobDict),
      m.queue = job :: queue → WorldWellFormed cfg m now job := by
  intro hall
  have h := hall Sample.setup (Sample.queued ["node-1"] 0) 102 _ [] rfl
  obtain ⟨nodes, hhistory⟩ := h.starts (Int.natCast_nonneg _)
  have hsame : ((Sample.queued ["node-1"] 0).schedulerPass Sample.setup 102).history =
      (Sample.queued ["node-1"] 0).history := by decide +kernel
  exact absurd (hsame.symm.trans hhistory) (by simp)

/-- A job for minus one nodes is started on two of three nodes. -/
example : ((Sample.queued ["node-1", "node-2", "node-3"] (-1)).passCommands Sample.setup 102).map
    (fun x => (x.1, x.2.jobPayload.nodeRank, x.2.jobPayload.nnodes)) =
      [("node-1", 0, -1), ("node-2", 1, -1)] := by
  decide +kernel

end Manager

end Dmlf
