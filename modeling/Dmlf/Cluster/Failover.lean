import Dmlf.Manager.Effects
import Dmlf.Cluster.Basic

/-!
# Crash failover

The monitor looks for nodes that are late and not yet `DISCONNECTED`, and then sets them
`DISCONNECTED`; so does every other reader of the node table, which does not look at the jobs.

* `Manager.failsOver_iff` : a monitor pass fails a running job over exactly if one of its nodes is
  late and not yet marked.
* `World.failover_never_missed` : no failover is missed in the runs of the cluster in which no
  node of a running job is marked without its job being failed over.
* `World.failover_missed` : a probe that comes between the crash and the monitor pass.
-/

namespace Dmlf

/-- The texts an agent has for its status. -/
def agentStatuses : List String := ["IDLE", "TRAINING", "OFFLINE"]

theorem NodeState.ofText_ne_disconnected {text : String} (h : text ∈ agentStatuses) :
    NodeState.ofText text ≠ .disconnected := by
  simp only [agentStatuses, List.mem_cons, List.not_mem_nil, or_false] at h
  rcases h with rfl | rfl | rfl <;> decide

/-- No node of a running job is marked. -/
def Registry.NoneDown (reg : Registry) : Prop :=
  ∀ row ∈ reg.getJobs .running, ∀ n ∈ row.assignedNodes, ∀ r ∈ reg.getNode n,
    r.status ≠ .disconnected

/-- No node of the jobs in `rows` is about to be marked. -/
def Registry.NoneStale (reg : Registry) (cutoff : Time) (rows : List JobRow) : Prop :=
  ∀ row ∈ rows, ∀ n ∈ row.assignedNodes, ∀ r ∈ reg.getNode n, r.isStale cutoff = false

instance (reg : Registry) (cutoff : Time) (rows : List JobRow) :
    Decidable (reg.NoneStale cutoff rows) :=
  inferInstanceAs (Decidable (∀ row ∈ rows, ∀ n ∈ row.assignedNodes, ∀ r ∈ reg.getNode n,
    r.isStale cutoff = false))

/-- A node of the job has been silent since before the cutoff, and is not in maintenance. -/
def Registry.HasLateNode (reg : Registry) (cutoff : Time) (row : JobRow) : Prop :=
  ∃ n ∈ row.assignedNodes, ∃ r ∈ reg.getNode n,
    r.status ≠ .maintenance ∧ r.lastHeartbeat < cutoff

instance (reg : Registry) (cutoff : Time) (row : JobRow) : Decidable (reg.HasLateNode cutoff row) :=
  inferInstanceAs (Decidable (∃ n ∈ row.assignedNodes, ∃ r ∈ reg.getNode n,
    r.status ≠ .maintenance ∧ r.lastHeartbeat < cutoff))

namespace Manager

variable {cfg : Setup} {m m' : Manager} {now : Time} {l : Label}

/-- After a monitor pass the job of a running row is pending with one retry more, or it has
failed, its retries being exhausted. -/
def FailsOver (cfg : Setup) (m : Manager) (now : Time) (row : JobRow) : Prop :=
  ∃ row', (m.monitorPass cfg now).registry.getJob row.jobId = some row' ∧
    if row.retries < row.maxRetries then row'.status = .pending ∧ row'.retries = row.retries + 1
    else row'.status = .failed

theorem lostNode_offlineNodes {row : JobRow} : row.lostNode (m.offlineNodes cfg now) = true ↔
    ∃ n ∈ row.assignedNodes, ∃ r ∈ m.registry.getNode n,
      r.isStale (now - cfg.offlineTimeoutSec) = true := by
  simp only [JobRow.lostNode, offlineNodes, List.any_eq_true, List.mem_map, List.mem_filter,
    decide_eq_true_eq]
  constructor
  · rintro ⟨_, ⟨r, ⟨hr, hstale⟩, rfl⟩, hn⟩
    exact ⟨r.nodeId, hn, r, Registry.mem_nodes.1 hr, hstale⟩
  · rintro ⟨n, hn, r, hr, hstale⟩
    have hid := Registry.nodeId_of_getNode hr
    exact ⟨n, ⟨r, ⟨Registry.mem_nodes.2 (hid ▸ hr), hstale⟩, hid⟩, hn⟩

/-- **When a monitor pass fails a job over**: one of its nodes is late and not yet marked. -/
theorem failsOver_iff {row : JobRow} (hrow : row ∈ m.registry.getJobs .running) :
    m.FailsOver cfg now row ↔ ∃ n ∈ row.assignedNodes, ∃ r ∈ m.registry.getNode n,
      r.isStale (now - cfg.offlineTimeoutSec) = true := by
  obtain ⟨hget, hrun⟩ := Registry.mem_getJobs.1 hrow
  rw [← lostNode_offlineNodes, FailsOver, getJob_monitorPass, hget, Option.map_some, if_pos hrun]
  simp only [Option.some.injEq, exists_eq_left', JobRow.failedOver]
  by_cases hlost : row.lostNode (m.offlineNodes cfg now) = true
  · by_cases hlt : row.retries < row.maxRetries <;> simp [hlost, hlt, JobRow.withStatus]
  · by_cases hlt : row.retries < row.maxRetries <;> simp [hlost, hlt, hrun]

/-- No call of `mark_offline_nodes` marks a node of a running job; the one at the end of a monitor
pass may mark the nodes of the jobs that the pass fails over. -/
def MarksNoWorker (cfg : Setup) (m : Manager) : Label → Prop
  | .schedulerPass now => m.queue ≠ [] →
      m.registry.NoneStale (now - defaultTimeoutSeconds) (m.registry.getJobs .running)
  | .probe now =>
      m.registry.NoneStale (now - defaultTimeoutSeconds) (m.registry.getJobs .running)
  | .monitorPass now => m.registry.NoneStale (now - defaultTimeoutSeconds)
      ((m.registry.getJobs .running).filter fun row => !row.lostNode (m.offlineNodes cfg now))
  | _ => True

instance : Decidable (MarksNoWorker cfg m l) :=
  match l with
  | .schedulerPass now => inferInstanceAs (Decidable (m.queue ≠ [] →
      m.registry.NoneStale (now - defaultTimeoutSeconds) (m.registry.getJobs .running)))
  | .probe now => inferInstanceAs (Decidable
      (m.registry.NoneStale (now - defaultTimeoutSeconds) (m.registry.getJobs .running)))
  | .monitorPass now => inferInstanceAs (Decidable (m.registry.NoneStale
      (now - defaultTimeoutSeconds) ((m.registry.getJobs .running).filter fun row =>
        !row.lostNode (m.offlineNodes cfg now))))
  | .registerNode .. | .sendHeartbeat .. | .listenForCommands _ | .takeCommand _
  | .reportJobStatus .. | .submitJob .. | .restart | .runTask .. => .isTrue trivial

end Manager

namespace Registry

variable {reg reg' : Registry}

theorem NoneDown.of_le (h : reg.NoneDown)
    (hjobs : ∀ row ∈ reg'.getJobs .running, row ∈ reg.getJobs .running)
    (hnode : ∀ row ∈ reg'.getJobs .running, ∀ n ∈ row.assignedNodes, ∀ r' ∈ reg'.getNode n,
      r'.status = .disconnected → ∃ r ∈ reg.getNode n, r.status = .disconnected) :
    reg'.NoneDown := by
  intro row hrow n hn r' hr' hdown
  obtain ⟨r, hr, hdown⟩ := hnode row hrow n hn r' hr' hdown
  exact h row (hjobs row hrow) n hn r hr hdown

theorem NoneDown.mark (h : reg.NoneDown) {now : Time} {rows : List JobRow}
    (hrows : ∀ row ∈ reg'.getJobs .running, row ∈ reg.getJobs .running ∧ row ∈ rows)
    (hstale : reg.NoneStale (now - defaultTimeoutSeconds) rows)
    (hnode : ∀ n, reg'.getNode n =
      (reg.markOfflineNodes now defaultTimeoutSeconds).getNode n) : reg'.NoneDown := by
  refine h.of_le (fun row hrow => (hrows row hrow).1) fun row hrow n hn r' hr' hdown => ?_
  rw [hnode, getNode_markOfflineNodes] at hr'
  obtain ⟨r, hr, rfl⟩ := Option.map_eq_some_iff.1 hr'
  rw [NodeRow.mark, hstale row (hrows row hrow).2 n hn r hr, if_neg Bool.false_ne_true] at hdown
  exact ⟨r, hr, hdown⟩

end Registry

namespace Manager

variable {cfg : Setup} {m m' : Manager} {now : Time}

theorem noneDown_schedulerPass (h : m.registry.NoneDown)
    (hG : m.MarksNoWorker cfg (.schedulerPass now)) :
    (m.schedulerPass cfg now).registry.NoneDown := by
  have heff := passEffect cfg m now
  generalize m.schedulerPass cfg now = m' at heff
  cases heff with
  | noJob => exact h
  | requeued job queue hq hnone =>
    exact h.mark (fun row hrow => ⟨hrow, hrow⟩) (hG (by simp [hq])) fun _ => rfl
  | dispatched job queue hq hsome =>
    have hstale := hG (by simp [hq])
    intro row hrow n hn r' hr' hdown
    rw [Option.mem_def, getNode_dispatch, Registry.getNode_markOfflineNodes] at hr'
    obtain ⟨r₁, hr₁, rfl⟩ := Option.map_eq_some_iff.1 hr'
    obtain ⟨r, hr, rfl⟩ := Option.map_eq_some_iff.1 hr₁
    split_ifs at hdown with hmem
    -- the nodes of the new job are `RESERVED`, those of the others are not stale
    rcases running_dispatch hrow with ⟨-, hold⟩ | ⟨-, hnew⟩
    · rw [NodeRow.mark, hstale row hold n hn r hr, if_neg Bool.false_ne_true] at hdown
      exact h row hold n hn r hr hdown
    · exact hmem (hnew ▸ hn)

/-- One handler or pass that marks no node of a running job leaves none marked. -/
theorem noneDown_step {l : Label} (h : m.registry.NoneDown) (hG : m.MarksNoWorker cfg l)
    (hbeat : ∀ req now, l = .sendHeartbeat req now →
      NodeState.ofText req.currentStatus ≠ .disconnected)
    (hst : m.perform cfg l = some m') : m'.registry.NoneDown := by
  cases l with
  | registerNode nodeId nodeSecret req now =>
    obtain ⟨-, hm⟩ := Option.ite_none_right_eq_some.1 hst
    obtain rfl := Option.some.inj hm
    refine h.of_le (fun row hrow => ?_) fun row _ n _ r' hr' hdown => ?_
    · simpa only [Registry.getJobs, registerNode, newCommandQueue, insertNode,
        registry_setRegistry, Registry.jobs_registerNode] using hrow
    · have hget := (Registry.getNode_registerNode ..).symm.trans hr'
      split_ifs at hget
      · obtain rfl := Option.some.inj hget
        cases hdown
      · exact ⟨r', hget, hdown⟩
  | sendHeartbeat req now =>
    obtain rfl := Option.some.inj hst
    refine h.of_le (fun row hrow => hrow) fun row _ n _ r' hr' hdown => ?_
    obtain ⟨r, hr, rfl⟩ :=
      Option.map_eq_some_iff.1 ((Registry.getNode_updateHeartbeat ..).symm.trans hr')
    split_ifs at hdown
    · exact absurd hdown (hbeat req now rfl)
    · exact ⟨r, hr, hdown⟩
  | listenForCommands nodeId => obtain ⟨queues, rfl⟩ := perform_listenForCommands hst; exact h
  | takeCommand nodeId => obtain ⟨queues, rfl⟩ := perform_takeCommand hst; exact h
  | reportJobStatus req now =>
    obtain rfl := Option.some.inj hst
    rcases release_reportJobStatus m req now with ⟨-, heq⟩ | ⟨-, hjobs, hnode⟩
    · rwa [heq]
    · refine h.of_le (fun row hrow => ((hjobs row).1 hrow).1) fun row _ n _ r' hr' hdown => ?_
      rw [Option.mem_def, hnode, Registry.getNode_updateNodeState] at hr'
      obtain ⟨r, hr, rfl⟩ := Option.map_eq_some_iff.1 hr'
      split_ifs at hdown
      exact ⟨r, hr, hdown⟩
  | submitJob jobId req now =>
    obtain ⟨hnodes, hjobs⟩ := running_submitJob hst
    refine h.of_le hjobs fun row _ n _ r' hr' hdown => ⟨r', ?_, hdown⟩
    rw [Option.mem_def, Registry.getNode, hnodes] at hr'
    exact hr'
  | schedulerPass now => obtain rfl := Option.some.inj hst; exact noneDown_schedulerPass h hG
  | monitorPass now =>
    obtain rfl := Option.some.inj hst
    -- what still runs after the pass has lost no node, and so the guard speaks of it
    refine h.mark (fun row hrow => ?_) hG (getNode_monitorPass m)
    obtain ⟨hold, hlost⟩ := mem_running_monitorPass hrow
    exact ⟨hold, List.mem_filter.2 ⟨hold, by simp [hlost]⟩⟩
  | probe now =>
    obtain rfl := Option.some.inj hst
    exact h.mark (fun row hrow => ⟨hrow, hrow⟩) hG fun _ => rfl
  | restart => obtain rfl := Option.some.inj hst; exact h
  | runTask => cases hst

theorem failsOver_of_noneDown (h : m.registry.NoneDown) {row : JobRow}
    (hrow : row ∈ m.registry.getJobs .running)
    (hlate : m.registry.HasLateNode (now - cfg.offlineTimeoutSec) row) :
    m.FailsOver cfg now row := by
  obtain ⟨n, hn, r, hr, hm, hlate⟩ := hlate
  refine (failsOver_iff hrow).2 ⟨n, hn, r, hr, ?_⟩
  simp [NodeRow.isStale, hlate, hm, h row hrow n hn r hr]

end Manager

namespace World

variable {cfg : Setup} {w w' : World Manager}

/-- Agents and heartbeats under way have statuses of agents. -/
structure StatusesKnown {X : Type} (w : World X) : Prop where
  agents : ∀ n agent, w.agents n = some agent → agent.status ∈ agentStatuses
  heartbeats : ∀ req ∈ w.heartbeats, req.currentStatus ∈ agentStatuses

theorem StatusesKnown.setAgent {X : Type} {w : World X} (h : w.StatusesKnown) (n : String)
    (agent : Agent) (hs : agent.status ∈ agentStatuses) : (w.setAgent n agent).StatusesKnown where
  agents := fun n' agent' h' => by
    simp only [World.setAgent] at h'
    split_ifs at h'
    · obtain rfl := Option.some.inj h'
      exact hs
    · exact h.agents n' agent' h'
  heartbeats := h.heartbeats

/-- An agent sets its status to one of three texts. -/
theorem preserves_statusesKnown {X : Type} (sys : ManagerSystem X) :
    (lts sys).Preserves StatusesKnown := by
  intro w mv w' hst h
  have hstatus := h.agents
  cases effect sys hst with
  | manager | listen | deliverReport => exact ⟨h.agents, h.heartbeats⟩
  | @join nodeId =>
    have h' := h.setAgent nodeId .new (by decide)
    exact ⟨h'.agents, h'.heartbeats⟩
  | buildHeartbeat ha =>
    refine ⟨h.agents, fun req hreq => ?_⟩
    rcases List.mem_append.1 hreq with hreq | hreq
    · exact h.heartbeats req hreq
    · obtain rfl := List.mem_singleton.1 hreq
      exact hstatus _ _ ha
  | deliverHeartbeat =>
    exact ⟨h.agents, fun req hreq => h.heartbeats req (List.mem_of_mem_eraseIdx hreq)⟩
  | @takeCommand nodeId agent command _ _ ha =>
    have h' := h.setAgent nodeId { agent with stream := agent.stream ++ [command] }
      (hstatus nodeId agent ha)
    exact ⟨h'.agents, h'.heartbeats⟩
  | @receive nodeId agent agent' ha hrec =>
    refine h.setAgent nodeId agent' ?_
    have hs := hstatus nodeId agent ha
    unfold Agent.receive at hrec
    split at hrec
    · cases hrec
    · obtain rfl := Option.some.inj hrec
      split <;> first | exact hs | simp [agentStatuses]
  | @disconnect nodeId agent =>
    exact h.setAgent nodeId agent.disconnect (by simp [Agent.disconnect, agentStatuses])
  | @exit nodeId k code agent agent' ha hexit =>
    obtain ⟨launcher, -, rfl⟩ := Option.map_eq_some_iff.1 hexit
    exact h.setAgent nodeId _ (hstatus nodeId agent ha)
  | @logStep nodeId k agent agent' report ha hlog =>
    obtain ⟨p, launcher, status, -, -, rfl, -⟩ := Agent.eq_of_logStep hlog
    have h' := h.setAgent nodeId { agent with launcher } (hstatus nodeId agent ha)
    exact ⟨h'.agents, h'.heartbeats⟩

theorem preserves_noneDown : ((lts (.serial cfg)).restrict
    (LTS.Lift World.manager label (Manager.MarksNoWorker cfg))).Preserves fun w =>
      w.StatusesKnown ∧ w.manager.registry.NoneDown := by
  rintro w mv w' ⟨hG, hst⟩ ⟨hknown, hdown⟩
  refine ⟨preserves_statusesKnown _ hst hknown, ?_⟩
  have P := projection (.serial cfg)
  cases hl : label w mv with
  | none => rwa [P.quiet hst hl]
  | some l =>
    have hm : (Manager.serial cfg).step w.manager l w'.manager := P.step hst hl
    refine Manager.noneDown_step hdown (hG l hl) (fun req now heq => ?_) hm
    -- only the delivery of a heartbeat is one, and an agent has built it
    subst heq
    cases effect _ hst with
    | @deliverHeartbeat i now' req' x hreq =>
      simp only [label, hreq, Option.map_some, Option.some.injEq, Label.sendHeartbeat.injEq] at hl
      obtain ⟨rfl, -⟩ := hl
      exact NodeState.ofText_ne_disconnected
        (hknown.heartbeats req' (List.mem_of_getElem? hreq))
    | @manager l x hint =>
      obtain rfl := Option.some.inj hl
      cases hint
    | deliverReport hreq => simp [label, hreq] at hl
    | _ => cases hl

/-- **No failover is missed if no node of a running job is marked behind the monitor's back.**
In any state, a monitor pass fails a running job over exactly if one of its nodes is late, not in
maintenance and not yet `DISCONNECTED`.  In the runs of the cluster in which `mark_offline_nodes`
marks no node of a running job that is not being failed over, a job that has a late node not in
maintenance is therefore always failed over. -/
theorem failover_never_missed {cfg : Setup} :
    (∀ (m : Manager) (now : Time), ∀ row ∈ m.registry.getJobs .running,
      (m.FailsOver cfg now row ↔ ∃ n ∈ row.assignedNodes, ∃ r ∈ m.registry.getNode n,
        r.isStale (now - cfg.offlineTimeoutSec) = true)) ∧
    ∀ w, ((lts (.serial cfg)).restrict (LTS.Lift World.manager label
        (Manager.MarksNoWorker cfg))).Reachable (start (.serve .empty [])) w →
      ∀ now, ∀ row ∈ w.manager.registry.getJobs .running,
        w.manager.registry.HasLateNode (now - cfg.offlineTimeoutSec) row →
        w.manager.FailsOver cfg now row := by
  refine ⟨fun m now row hrow => Manager.failsOver_iff hrow, ?_⟩
  intro w hw now row hrow hlate
  have hstart : (start (Manager.serve .empty [])).StatusesKnown ∧
      Registry.empty.NoneDown := by
    refine ⟨⟨fun n agent h => ?_, fun req h => ?_⟩, fun row h => ?_⟩ <;> cases h
  have hdown := (hw.keeps preserves_noneDown hstart).2
  exact Manager.failsOver_of_noneDown hdown hrow hlate

/-- A node of a running job has been silent for longer than the timeout, and no pass or probe has
looked at the nodes since: the next monitor pass fails the job over. -/
theorem failover_never_missed_crash :
    ∃ w : World Manager, ∃ row ∈ w.manager.registry.getJobs .running,
      w.manager.FailsOver Sample.setup 121 row := by
  obtain ⟨w, hw, hp⟩ := LTS.exists_of_exec_restrict (exec (.serial Sample.setup))
    (LTS.Lift World.manager label (Manager.MarksNoWorker Sample.setup))
    (start (.serve .empty [])) (Sample.launchTwo false ++ [.manager (.probe 110)])
    (fun w => (w.manager.registry.getJobs .running).any fun row =>
      w.manager.registry.HasLateNode (121 - Sample.setup.offlineTimeoutSec) row)
    (by decide +kernel)
  obtain ⟨row, hrow, hlate⟩ := List.any_eq_true.1 hp
  exact ⟨w, row, hrow, failover_never_missed.2 w hw 121 row hrow (of_decide_eq_true hlate)⟩

/-- A probe of the node table comes between the crash and the monitor pass, which then finds
nothing. -/
theorem failover_missed :
    ¬ ∀ (cfg : Setup) (w : World Manager),
      (lts (.serial cfg)).Reachable (start (.serve .empty [])) w →
      ∀ now, ∀ row ∈ w.manager.registry.getJobs .running,
        w.manager.registry.HasLateNode (now - cfg.offlineTimeoutSec) row →
        w.manager.FailsOver cfg now row := by
  intro hall
  obtain ⟨w, hw, hp⟩ := LTS.exists_of_exec (exec (.serial Sample.setup))
    (start (.serve .empty [])) (Sample.launchTwo false ++ [.manager (.probe 120)])
    (fun w => (w.manager.registry.getJobs .running).any fun row =>
      w.manager.registry.HasLateNode (121 - Sample.setup.offlineTimeoutSec) row &&
      (((w.manager.monitorPass Sample.setup 121).registry.getJob row.jobId).map
        JobRow.status = some .running))
    (by decide +kernel)
  obtain ⟨row, hrow, hp⟩ := List.any_eq_true.1 hp
  obtain ⟨hlate, hrun⟩ := (Bool.and_eq_true _ _).mp hp
  obtain ⟨row', hget, hover⟩ := hall Sample.setup w hw 121 row hrow (of_decide_eq_true hlate)
  have hs := of_decide_eq_true hrun
  rw [hget, Option.map_some, Option.some.injEq] at hs
  rw [hs] at hover
  split_ifs at hover
  cases hover.1

end World

end Dmlf
