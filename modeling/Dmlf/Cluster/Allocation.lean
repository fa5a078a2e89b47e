import Dmlf.Manager.Effects
import Dmlf.Cluster.Basic
import Mathlib.Tactic.NormNum

/-!
# Exclusive allocation of nodes

A node is free if its status is `IDLE`, and four writers set that column: registrations,
heartbeats, reports and the scheduler.  None of them looks at the jobs.

* `World.exclusive_iff_spares` : no node of a run is given to two running jobs, or offered while
  it works, exactly as long as no node that works for a running job is set `IDLE` by a heartbeat
  or by a report about another job.
* `World.exclusive_fails` : a heartbeat that was built before the reservation.
-/

namespace Dmlf

theorem NodeState.ofText_eq_idle {text : String} :
    NodeState.ofText text = .idle ↔ text = "IDLE" := by
  constructor
  · intro h
    by_contra hne
    unfold NodeState.ofText at h
    split_ifs at h
  · rintro rfl
    rfl

namespace Registry

variable {reg reg' : Registry}

/-- No node is assigned to two running jobs, and no node of a running job is ever offered. -/
structure Exclusive (reg : Registry) : Prop where
  disjoint : ∀ row ∈ reg.getJobs .running, ∀ row' ∈ reg.getJobs .running,
    row.jobId ≠ row'.jobId → ∀ n ∈ row.assignedNodes, n ∉ row'.assignedNodes
  offered : ∀ now, ∀ node ∈ (reg.getAvailableNodes now).2, ∀ row ∈ reg.getJobs .running,
    node.nodeId ∉ row.assignedNodes

/-- The nodes of running jobs are registered. -/
def AssignedKnown (reg : Registry) : Prop :=
  ∀ row ∈ reg.getJobs .running, ∀ n ∈ row.assignedNodes, ∃ r, reg.getNode n = some r

/-- The nodes of running jobs are not idle. -/
def NoneIdle (reg : Registry) : Prop :=
  ∀ row ∈ reg.getJobs .running, ∀ n ∈ row.assignedNodes, ∀ r, reg.getNode n = some r →
    r.status ≠ .idle

/-- A node is offered at some time if it is idle: at the time of its last heartbeat it was. -/
theorem noneIdle_iff : reg.NoneIdle ↔ ∀ now, ∀ node ∈ (reg.getAvailableNodes now).2,
    ∀ row ∈ reg.getJobs .running, node.nodeId ∉ row.assignedNodes := by
  constructor
  · intro h now node hnode row hrow hn
    obtain ⟨hnode, hidle⟩ := mem_getAvailableNodes.1 hnode
    rw [getNode_markOfflineNodes] at hnode
    obtain ⟨r, hr, heq⟩ := Option.map_eq_some_iff.1 hnode
    subst heq
    exact h row hrow _ hn r hr (NodeRow.idle_of_mark hidle)
  · -- ask at the time of the last heartbeat, when no timeout has passed
    intro h row hrow n hn r hr hidle
    have hid := nodeId_of_getNode hr
    refine h r.lastHeartbeat r (mem_getAvailableNodes.2 ⟨?_, hidle⟩) row hrow (hid ▸ hn)
    have hle : ¬ r.lastHeartbeat < r.lastHeartbeat - defaultTimeoutSeconds :=
      not_lt.2 (sub_le_self _ (by unfold defaultTimeoutSeconds; norm_num))
    have hfresh : r.isStale (r.lastHeartbeat - defaultTimeoutSeconds) = false := by
      simp [NodeRow.isStale, hle]
    rw [getNode_markOfflineNodes, hid, hr, Option.map_some, NodeRow.mark, hfresh,
      if_neg Bool.false_ne_true]

/-- A change after which no more jobs run, and no more nodes are idle. -/
structure Tame (reg reg' : Registry) : Prop where
  running : ∀ row ∈ reg'.getJobs .running, row ∈ reg.getJobs .running
  known : ∀ n r, reg.getNode n = some r → ∃ r', reg'.getNode n = some r'
  idle : ∀ n r r', reg.getNode n = some r → reg'.getNode n = some r' → r'.status = .idle →
    r.status = .idle

theorem Tame.of_nodes_eq (hn : reg'.nodes = reg.nodes)
    (hr : ∀ row ∈ reg'.getJobs .running, row ∈ reg.getJobs .running) : reg.Tame reg' where
  running := hr
  known := fun n r h => ⟨r, by rw [getNode, hn]; exact h⟩
  idle := fun n r r' h h' hi => by
    rw [getNode, hn] at h'
    obtain rfl : r = r' := Option.some.inj (h.symm.trans h')
    exact hi

theorem Tame.refl (reg : Registry) : reg.Tame reg := .of_nodes_eq rfl fun _ h => h

theorem Tame.of_map (f : NodeRow → NodeRow) (hf : ∀ r, (f r).status = .idle → r.status = .idle)
    (hn : ∀ n, reg'.getNode n = (reg.getNode n).map f)
    (hr : ∀ row ∈ reg'.getJobs .running, row ∈ reg.getJobs .running) : reg.Tame reg' where
  running := hr
  known := fun n r h => ⟨f r, by rw [hn, h]; rfl⟩
  idle := fun n r r' h h' hi => by
    rw [hn, h] at h'
    obtain rfl := Option.some.inj h'
    exact hf r hi

theorem tame_markOfflineNodes (reg : Registry) (now : Time) (timeout : ℚ) :
    reg.Tame (reg.markOfflineNodes now timeout) :=
  .of_map _ (fun _ => NodeRow.idle_of_mark) (getNode_markOfflineNodes now timeout) fun _ h => h

theorem AssignedKnown.of_tame (h : reg.Tame reg') (hK : reg.AssignedKnown) :
    reg'.AssignedKnown := by
  intro row hrow n hn
  obtain ⟨r, hr⟩ := hK row (h.running row hrow) n hn
  exact h.known n r hr

theorem Exclusive.of_tame (h : reg.Tame reg') (hK : reg.AssignedKnown) (hE : reg.Exclusive) :
    reg'.Exclusive where
  disjoint := fun row hrow row' hrow' =>
    hE.disjoint row (h.running row hrow) row' (h.running row' hrow')
  offered := noneIdle_iff.1 fun row hrow n hn r' hr' hidle => by
    obtain ⟨r, hr⟩ := hK row (h.running row hrow) n hn
    exact noneIdle_iff.2 hE.offered row (h.running row hrow) n hn r hr (h.idle n r r' hr hr' hidle)

/-! ### The writers of the status column -/

/-- A heartbeat keeps nodes exclusive exactly if it sets no working node idle. -/
theorem exclusive_updateHeartbeat (hK : reg.AssignedKnown) (hE : reg.Exclusive) (n : String)
    (text : String) (metrics latency now) :
    (reg.updateHeartbeat n (.ofText text) metrics latency now).Exclusive ↔
      (text = "IDLE" → ∀ row ∈ reg.getJobs .running, n ∉ row.assignedNodes) := by
  constructor
  · intro hE' htext row hrow hn
    obtain ⟨r, hr⟩ := hK row hrow n hn
    refine noneIdle_iff.2 hE'.offered row hrow n hn
      { r with lastHeartbeat := now, status := .ofText text } ?_ (NodeState.ofText_eq_idle.2 htext)
    rw [getNode_updateHeartbeat, hr, Option.map_some, if_pos (nodeId_of_getNode hr)]
  · intro hG
    refine ⟨hE.disjoint, noneIdle_iff.1 fun row hrow n' hn' r' hr' hidle => ?_⟩
    rw [getNode_updateHeartbeat] at hr'
    obtain ⟨r, hr, rfl⟩ := Option.map_eq_some_iff.1 hr'
    split_ifs at hidle with heq
    · have hid : n' = n := (nodeId_of_getNode hr).symm.trans heq
      exact hG (NodeState.ofText_eq_idle.1 hidle) row hrow (hid ▸ hn')
    · exact noneIdle_iff.2 hE.offered row hrow n' hn' r hr hidle

theorem exclusive_setIdle (hK : reg.AssignedKnown) (hE : reg.Exclusive) {n : String}
    (hjobs : ∀ row ∈ reg'.getJobs .running, row ∈ reg.getJobs .running)
    (hnode : ∀ n', reg'.getNode n' = (reg.updateNodeState n .idle).getNode n') :
    reg'.Exclusive ↔ ∀ row ∈ reg'.getJobs .running, n ∉ row.assignedNodes := by
  constructor
  · intro hE' row hrow hn
    obtain ⟨r, hr⟩ := hK row (hjobs row hrow) n hn
    refine noneIdle_iff.2 hE'.offered row hrow n hn { r with status := .idle } ?_ rfl
    rw [hnode, getNode_updateNodeState, hr, Option.map_some, if_pos rfl]
  · intro hG
    refine ⟨fun row hrow row' hrow' => hE.disjoint row (hjobs row hrow) row' (hjobs row' hrow'),
      noneIdle_iff.1 fun row hrow n' hn' r' hr' hidle => ?_⟩
    rw [hnode, getNode_updateNodeState] at hr'
    obtain ⟨r, hr, rfl⟩ := Option.map_eq_some_iff.1 hr'
    split_ifs at hidle with hn
    · exact hG row hrow (hn ▸ hn')
    · exact noneIdle_iff.2 hE.offered row (hjobs row hrow) n' hn' r hr hidle

theorem exclusive_release (hK : reg.AssignedKnown) (hE : reg.Exclusive) {j n : String}
    (hjobs : ∀ row, row ∈ reg'.getJobs .running ↔ row ∈ reg.getJobs .running ∧ row.jobId ≠ j)
    (hnode : ∀ n', reg'.getNode n' = (reg.updateNodeState n .idle).getNode n') :
    reg'.Exclusive ↔ ∀ row ∈ reg.getJobs .running, row.jobId ≠ j → n ∉ row.assignedNodes := by
  rw [exclusive_setIdle hK hE (fun row hrow => ((hjobs row).1 hrow).1) hnode]
  simp only [hjobs, and_imp]

theorem disjoint_start (hE : reg.Exclusive) {j : String} {nodes : List String}
    (hfree : ∀ n ∈ nodes, ∀ row ∈ reg.getJobs .running, n ∉ row.assignedNodes)
    (hjobs : ∀ row ∈ reg'.getJobs .running, row ∈ reg.getJobs .running ∨
      row.jobId = j ∧ row.assignedNodes = nodes) :
    ∀ row ∈ reg'.getJobs .running, ∀ row' ∈ reg'.getJobs .running, row.jobId ≠ row'.jobId →
      ∀ n ∈ row.assignedNodes, n ∉ row'.assignedNodes := by
  intro row hrow row' hrow' hne n hn hn'
  rcases hjobs row hrow with hold | ⟨hj, hnew⟩ <;>
    rcases hjobs row' hrow' with hold' | ⟨hj', hnew'⟩
  · exact hE.disjoint row hold row' hold' hne n hn hn'
  · exact hfree n (hnew' ▸ hn') row hold hn
  · exact hfree n (hnew ▸ hn) row' hold' hn'
  · exact hne (hj.trans hj'.symm)

theorem exclusive_dispatch (hK : reg.AssignedKnown) {j : String} {now : Time}
    {nodes : List NodeRow} (hnodes : ∀ node ∈ nodes, node ∈ (reg.getAvailableNodes now).2)
    (hjobs : ∀ row ∈ reg'.getJobs .running, row ∈ reg.getJobs .running ∨
      row.jobId = j ∧ row.assignedNodes = nodes.map NodeRow.nodeId)
    (hnode : ∀ n, reg'.getNode n =
      ((reg.markOfflineNodes now defaultTimeoutSeconds).getNode n).map fun r =>
        if n ∈ nodes.map NodeRow.nodeId then { r with status := .reserved } else r) :
    reg'.AssignedKnown ∧ (reg.Exclusive → reg'.Exclusive) := by
  have hfree (hE : reg.Exclusive) : ∀ n ∈ nodes.map NodeRow.nodeId, ∀ row ∈ reg.getJobs .running,
      n ∉ row.assignedNodes := by
    intro n hn row hrow
    obtain ⟨node, hmem, rfl⟩ := List.mem_map.1 hn
    exact hE.offered now node (hnodes node hmem) row hrow
  -- the nodes that the job gets were offered, so no other running job has them
  refine ⟨fun row hrow n hn => ?_, fun hE => ⟨disjoint_start hE (hfree hE) hjobs,
    noneIdle_iff.1 fun row hrow n hn r' hr' hidle => ?_⟩⟩
  · have hmark : ∃ r, (reg.markOfflineNodes now defaultTimeoutSeconds).getNode n = some r := by
      rcases hjobs row hrow with hold | ⟨-, hnew⟩
      · obtain ⟨r, hr⟩ := hK row hold n hn
        exact (tame_markOfflineNodes reg now defaultTimeoutSeconds).known n r hr
      · obtain ⟨node, hmem, rfl⟩ := List.mem_map.1 (hnew ▸ hn)
        exact ⟨node, (mem_getAvailableNodes.1 (hnodes node hmem)).1⟩
    obtain ⟨r, hr⟩ := hmark
    exact ⟨_, (hnode n).trans (by rw [hr]; rfl)⟩
  · rw [hnode] at hr'
    obtain ⟨r, hr, rfl⟩ := Option.map_eq_some_iff.1 hr'
    split_ifs at hidle with hmem
    rcases hjobs row hrow with hold | ⟨-, hnew⟩
    · rw [getNode_markOfflineNodes] at hr
      obtain ⟨r₀, hr₀, rfl⟩ := Option.map_eq_some_iff.1 hr
      exact noneIdle_iff.2 hE.offered row hold n hn r₀ hr₀ (NodeRow.idle_of_mark hidle)
    · exact hmem (hnew ▸ hn)

end Registry

namespace Manager

variable {cfg : Setup} {m m' : Manager} {now : Time}

/-- A heartbeat that says `IDLE` comes from no node of a running job.  A failure or a completion
that is handled comes from no node of another running job. -/
def SparesNodes (m : Manager) : Label → Prop
  | .sendHeartbeat req _ => req.currentStatus = "IDLE" →
      ∀ row ∈ m.registry.getJobs .running, req.nodeId ∉ row.assignedNodes
  | .reportJobStatus req _ => m.Acts req →
      ∀ row ∈ m.registry.getJobs .running, row.jobId ≠ req.jobId → req.nodeId ∉ row.assignedNodes
  | _ => True

theorem tame_monitorPass (m : Manager) :
    m.registry.Tame (m.monitorPass cfg now).registry :=
  .of_map (NodeRow.mark (now - defaultTimeoutSeconds)) (fun _ => NodeRow.idle_of_mark)
    (fun n => by rw [getNode_monitorPass, Registry.getNode_markOfflineNodes])
    fun _ hrow => (mem_running_monitorPass hrow).1

theorem exclusive_schedulerPass (cfg : Setup) (now : Time) (hK : m.registry.AssignedKnown) :
    (m.schedulerPass cfg now).registry.AssignedKnown ∧
      (m.registry.Exclusive → (m.schedulerPass cfg now).registry.Exclusive) := by
  have heff := passEffect cfg m now
  generalize m.schedulerPass cfg now = m' at heff
  cases heff with
  | noJob => exact ⟨hK, id⟩
  | requeued job queue hq hnone =>
    have ht := m.registry.tame_markOfflineNodes now defaultTimeoutSeconds
    exact ⟨hK.of_tame ht, fun hE => hE.of_tame ht hK⟩
  | dispatched job queue hq hsome =>
    have hoffered : ∀ node ∈ m.selectNodes cfg job now,
        node ∈ (m.registry.getAvailableNodes now).2 := fun _ h => mem_selectNodes h
    refine Registry.exclusive_dispatch (j := job.jobId) hK hoffered (fun row hrow => ?_)
      (getNode_dispatch m queue job _)
    exact (running_dispatch hrow).imp_left And.right

theorem exclusive_reportJobStatus (hK : m.registry.AssignedKnown) (req : JobStatusRequest) :
    (m.reportJobStatus req now).registry.AssignedKnown ∧ (m.registry.Exclusive →
      ((m.reportJobStatus req now).registry.Exclusive ↔
        m.SparesNodes (.reportJobStatus req now))) := by
  rcases release_reportJobStatus m req now with ⟨hno, heq⟩ | ⟨hacts, hjobs, hnode⟩
  · rw [heq]
    exact ⟨hK, fun hE => iff_of_true hE fun h => absurd h hno⟩
  · refine ⟨fun row hrow n hn => ?_, fun hE => ?_⟩
    · obtain ⟨r, hr⟩ := hK row ((hjobs row).1 hrow).1 n hn
      exact ⟨_, by rw [hnode, Registry.getNode_updateNodeState, hr]; rfl⟩
    · rw [Registry.exclusive_release hK hE hjobs hnode]
      exact ⟨fun h _ => h, fun h => h hacts⟩

/-- A new node is idle, but works for no job. -/
theorem tame_registerNode {nodeId nodeSecret : String} {req : RegistrationRequest}
    (h : (m.registry.getNode nodeId).isNone) :
    m.registry.Tame (m.registerNode nodeId nodeSecret req now).registry where
  running := fun row hrow => by
    simpa only [Registry.getJobs, registerNode, newCommandQueue, insertNode, registry_setRegistry,
      Registry.jobs_registerNode] using hrow
  known := fun n r hr => by
    refine ⟨r, (Registry.getNode_registerNode ..).trans ?_⟩
    rw [if_neg ?_, hr]
    rintro rfl
    simp [hr] at h
  idle := fun n r r' hr hr' hidle => by
    have hne : n ≠ nodeId := by
      rintro rfl
      simp [hr] at h
    have hget := (Registry.getNode_registerNode ..).symm.trans hr'
    rw [if_neg hne, hr] at hget
    obtain rfl := Option.some.inj hget
    exact hidle

/-- **One handler or pass** keeps nodes exclusive exactly if it spares the nodes of running jobs. -/
theorem exclusive_step {l : Label} (hK : m.registry.AssignedKnown)
    (hst : m.perform cfg l = some m') : m'.registry.AssignedKnown ∧
      (m.registry.Exclusive → (m'.registry.Exclusive ↔ m.SparesNodes l)) := by
  have htame : m.registry.Tame m'.registry → m'.registry.AssignedKnown ∧
      (m.registry.Exclusive → (m'.registry.Exclusive ↔ True)) := fun h =>
    ⟨hK.of_tame h, fun hE => iff_of_true (hE.of_tame h hK) trivial⟩
  cases l with
  | registerNode nodeId nodeSecret req now =>
    obtain ⟨hnew, hm⟩ := Option.ite_none_right_eq_some.1 hst
    obtain rfl := Option.some.inj hm
    exact htame (tame_registerNode hnew)
  | sendHeartbeat req now =>
    obtain rfl := Option.some.inj hst
    refine ⟨fun row hrow n hn => ?_, fun hE =>
      Registry.exclusive_updateHeartbeat hK hE _ _ _ _ _⟩
    obtain ⟨r, hr⟩ := hK row hrow n hn
    exact ⟨_, (Registry.getNode_updateHeartbeat ..).trans (by rw [hr]; rfl)⟩
  | listenForCommands nodeId =>
    obtain ⟨queues, rfl⟩ := perform_listenForCommands hst
    exact htame (.refl _)
  | takeCommand nodeId =>
    obtain ⟨queues, rfl⟩ := perform_takeCommand hst
    exact htame (.refl _)
  | reportJobStatus req now =>
    obtain rfl := Option.some.inj hst
    exact exclusive_reportJobStatus hK req
  | submitJob jobId req now =>
    obtain ⟨hnodes, hjobs⟩ := running_submitJob hst
    exact htame (.of_nodes_eq hnodes hjobs)
  | schedulerPass now =>
    obtain rfl := Option.some.inj hst
    obtain ⟨hK', hE'⟩ := exclusive_schedulerPass cfg now hK
    exact ⟨hK', fun hE => iff_of_true (hE' hE) trivial⟩
  | monitorPass now => obtain rfl := Option.some.inj hst; exact htame (tame_monitorPass m)
  | probe now =>
    obtain rfl := Option.some.inj hst
    exact htame (m.registry.tame_markOfflineNodes now defaultTimeoutSeconds)
  | restart => obtain rfl := Option.some.inj hst; exact htame (.refl _)
  | runTask => cases hst

end Manager

namespace World

variable {cfg : Setup}

theorem exclusive_empty : Registry.empty.AssignedKnown ∧ Registry.empty.Exclusive := by
  refine ⟨fun row hrow => ?_, fun row hrow => ?_, fun now node hnode => ?_⟩
  · cases hrow
  · cases hrow
  · cases hnode

/-- **No double allocation, exactly if working nodes are not set idle.**  In all states of a run
of the cluster no node is assigned to two running jobs, and none of a running job is offered, if
and only if every heartbeat that says `IDLE` is handled while its node works for no running job,
and every failure and completion while its node works for no other running job. -/
theorem exclusive_iff_spares {tr : List (Move × World Manager)}
    (h : (lts (.serial cfg)).Run (start (.serve .empty [])) tr) :
    LTS.StatesMeet (fun w => w.manager.registry.Exclusive) (start (.serve .empty [])) tr ↔
      LTS.StepsMeet (LTS.Lift World.manager label Manager.SparesNodes)
        (start (.serve .empty [])) tr := by
  have P := projection (.serial cfg)
  have hK : (Manager.serial cfg).Preserves fun m => m.registry.AssignedKnown :=
    fun _ _ _ hst hK => (Manager.exclusive_step hK hst).1
  have hstep : ∀ (m : Manager) l m', m.registry.AssignedKnown → m.registry.Exclusive →
      (Manager.serial cfg).step m l m' → (m'.registry.Exclusive ↔ m.SparesNodes l) :=
    fun _ _ _ hK hE hst => (Manager.exclusive_step hK hst).2 hE
  exact h.statesMeet_iff_stepsMeet (P.preserves hK) (P.exact_step hstep) exclusive_empty.1
    exclusive_empty.2

/-- The run in which a job is dispatched and both of its nodes complete it. -/
theorem exclusive_iff_spares_completed :
    let s := start (.serve .empty [])
    let tr := LTS.runOf (exec (.serial Sample.setup)) s
      (Sample.launchTwo false ++ Sample.finish "node-1" 0 0 ++ [.deliverReport 0 110] ++
        Sample.finish "node-2" 0 0 ++ [.deliverReport 0 111])
    LTS.StatesMeet (fun w => w.manager.registry.Exclusive) s tr ↔
      LTS.StepsMeet (LTS.Lift World.manager label Manager.SparesNodes) s tr :=
  exclusive_iff_spares (LTS.run_runOf (exec (.serial Sample.setup)) _ _)

/-- A node builds a heartbeat while it is idle, the scheduler gives it a job, and then the
heartbeat is handled: the next job gets the node too. -/
theorem exclusive_fails :
    ¬ ∀ (cfg : Setup) (w : World Manager),
      (lts (.serial cfg)).Reachable (start (.serve .empty [])) w →
      w.manager.registry.Exclusive := by
  intro hall
  obtain ⟨w, hw, hp⟩ := LTS.exists_of_exec (exec (.serial Sample.setup))
    (start (.serve .empty []))
    ([.join "node-1" "secret-1" Sample.node 100,
      .manager (.submitJob "job-1" (Sample.job 1 3) 101),
      .manager (.submitJob "job-2" (Sample.job 1 3) 101),
      .buildHeartbeat "node-1" ⟨5, 20, 0, 0⟩ 102, .manager (.schedulerPass 102),
      .deliverHeartbeat 0 103, .manager (.schedulerPass 104)])
    (fun w => (w.manager.registry.getJobs .running).any fun row =>
      (w.manager.registry.getJobs .running).any fun row' =>
        row.jobId ≠ row'.jobId && row.assignedNodes.any fun n => n ∈ row'.assignedNodes)
    (by decide +kernel)
  obtain ⟨row, hrow, hp⟩ := List.any_eq_true.1 hp
  obtain ⟨row', hrow', hp⟩ := List.any_eq_true.1 hp
  obtain ⟨hne, hp⟩ := (Bool.and_eq_true _ _).mp hp
  obtain ⟨n, hn, hn'⟩ := List.any_eq_true.1 hp
  exact (hall _ w hw).disjoint row hrow row' hrow' (of_decide_eq_true hne) n hn
    (of_decide_eq_true hn')

end World

end Dmlf
