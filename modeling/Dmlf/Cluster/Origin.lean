import Dmlf.Cluster.Crash

/-!
# Where processes come from

A process on an agent is the last of a chain: a scheduler pass writes the row and builds the
commands, `send_command` queues one, a stream takes it, the agent receives it and starts
`torchrun`.  Commands may be lost on every link, and the manager may be killed between any two
calls, but no link makes a command up or hands it on twice.

* `plannedNode` : the node that a dispatch has a command for, by the history of the manager.
* `World.Traced` : the commands that an agent has started processes for are among those it has
  received, each once.
* `World.process_origin` : in every state of every run, each process in the cluster is there for a
  rank that a dispatch has given to its node, and no two processes are there for the same one.
-/

namespace Dmlf

/-! ### Dispatches in the history -/

/-- The nodes of a dispatch of job `j`. -/
def Event.dispatchOf (j : String) : Event → Option (List String)
  | .dispatched j' assignedNodes => if j' = j then some assignedNodes else none
  | _ => none

/-- The nodes of the dispatch `d` of job `j`, counted from 1. -/
def dispatchNodes (history : List Event) (j : String) (d : ℕ) : Option (List String) :=
  (history.filterMap (Event.dispatchOf j))[d - 1]?

theorem length_filterMap_dispatchOf (history : List Event) (j : String) :
    (history.filterMap (Event.dispatchOf j)).length = dispatchesIn history j := by
  rw [List.length_filterMap_eq_countP, dispatchesIn]
  congr 1
  funext e
  cases e with
  | dispatched j' nodes =>
    simp only [Event.dispatchOf, Event.isDispatchOf]
    by_cases hj : j' = j <;> simp [hj]
  | submitted | retried => rfl

theorem dispatchNodes_append {history : List Event} {j : String} {d : ℕ} {nodes : List String}
    (h : dispatchNodes history j d = some nodes) (events : List Event) :
    dispatchNodes (history ++ events) j d = some nodes := by
  obtain ⟨hlt, -⟩ := List.getElem?_eq_some_iff.1 h
  rw [dispatchNodes, List.filterMap_append, List.getElem?_append_left hlt]
  exact h

theorem dispatchNodes_dispatched (history : List Event) (j : String) (nodes : List String) :
    dispatchNodes (history ++ [.dispatched j nodes]) j (dispatchesIn history j + 1) =
      some nodes := by
  have hlen := length_filterMap_dispatchOf history j
  simp [dispatchNodes, Event.dispatchOf, List.filterMap_append, ← hlen]

/-- The node that has the rank of a command in its dispatch. -/
def plannedNode (history : List Event) (id : CommandId) : Option String :=
  ((history.filterMap (Event.dispatchOf id.jobId))[id.dispatch - 1]?).bind fun assignedNodes =>
    assignedNodes[id.rank]?

theorem plannedNode_eq_some {history : List Event} {id : CommandId} {n : String} :
    plannedNode history id = some n ↔
      ∃ nodes, dispatchNodes history id.jobId id.dispatch = some nodes ∧ nodes[id.rank]? = some n :=
  Option.bind_eq_some_iff

theorem plannedNode_append {history : List Event} {id : CommandId} {n : String}
    (h : plannedNode history id = some n) (events : List Event) :
    plannedNode (history ++ events) id = some n := by
  obtain ⟨nodes, hnodes, hrank⟩ := plannedNode_eq_some.1 h
  exact plannedNode_eq_some.2 ⟨nodes, dispatchNodes_append hnodes events, hrank⟩

namespace Conf

variable {cfg : Setup} {c c' : Conf} {l : Label}

theorem prefix_history (hst : exec cfg c l = some c') : c.mgr.history <+: c'.mgr.history := by
  cases call hst with
  | first hbegun =>
    cases hbegun with
    | submitJob => exact List.prefix_append _ _
    | registerNode | sendHeartbeat | listenForCommands | takeCommand | reportIgnored | reportRetry
      | reportFail | reportCompleted | noJob | popJob | noneOffline | someOffline | probe =>
      exact List.prefix_refl _
  | restart => exact List.prefix_refl _
  | @next i now t =>
    have hwrites := Task.writes_step cfg now c.mgr t
    cases hwrites with
    | none _ hh | fail _ _ _ hh => exact hh ▸ List.prefix_refl _
    | retry _ _ hh | start _ _ _ _ _ hh => exact hh ▸ List.prefix_append _ _

/-- A command that a call commits the manager to is for the node that has its rank. -/
theorem plannedNode_of_mem_assigns (hst : exec cfg c l = some c') {n : String} {id : CommandId}
    (h : id ∈ c.assigns n l) : plannedNode c'.mgr.history id = some n := by
  unfold assigns at h
  cases hl : c.starts l with
  | none => rw [hl] at h; cases Multiset.notMem_zero _ h
  | some x =>
    rw [hl] at h
    obtain ⟨i, now, -, -, rfl⟩ := eq_of_starts hst hl
    obtain ⟨y, hy, rfl⟩ := List.mem_map.1 (Multiset.mem_coe.1 h)
    obtain ⟨hmem, hn⟩ := List.mem_filter.1 hy
    refine plannedNode_eq_some.2 ⟨x.2.map NodeRow.nodeId, ?_, ?_⟩
    · exact dispatchNodes_dispatched c.mgr.history x.1.jobId _
    · rw [List.getElem?_map, List.mk_mem_zipIdx_iff_getElem?.1 hmem]
      exact congrArg some (of_decide_eq_true hn)

end Conf

/-! ### What an agent starts -/

/-- A command as a dispatch builds it. -/
structure Command.Launches (command : Command) : Prop where
  type : command.type = .launchJob
  jobId : command.jobPayload.jobId = command.commandId.jobId
  nodeRank : command.jobPayload.nodeRank = command.commandId.rank

namespace World

variable {cfg : Setup} {w w' : World Conf} {mv : Move}

/-- The commands that the agent of a node has started processes for. -/
def startedAt (w : World Conf) (n : String) : Multiset CommandId :=
  commandIds (((w.agents n).map fun agent => agent.launcher.started).getD [])

theorem startedAt_setAgent (w : World Conf) (nodeId : String) (agent : Agent) (n : String) :
    (w.setAgent nodeId agent).startedAt n =
      if nodeId = n then commandIds agent.launcher.started else w.startedAt n := by
  simp only [startedAt, setAgent]
  by_cases hn : nodeId = n
  · simp [hn]
  · simp [hn, Ne.symm hn]

theorem startedAt_of_same {nodeId : String} {agent agent' : Agent}
    (ha : w.agents nodeId = some agent)
    (h : agent'.launcher.started = agent.launcher.started) (n : String) :
    (w.setAgent nodeId agent').startedAt n = w.startedAt n := by
  rw [startedAt_setAgent]
  split_ifs with hn
  · subst hn
    rw [startedAt, ha, h]
    rfl
  · rfl

/-- **What is started in a move** is received in it. -/
theorem startedAt_step (hst : (lts (.fine cfg)).step w mv w') (n : String) :
    w'.startedAt n ≤ w.startedAt n + w.receives n mv := by
  cases effect _ hst with
  | manager | buildHeartbeat | deliverHeartbeat | listen | deliverReport =>
    exact Multiset.le_add_right _ _
  | @join nodeId nodeSecret req now x =>
    rw [startedAt_setAgent]
    split_ifs
    · exact Multiset.zero_le _
    · exact Multiset.le_add_right _ _
  | @takeCommand nodeId agent command m x ha =>
    let w₁ : World Conf := { w with manager := x }
    let agent' : Agent := { agent with stream := agent.stream ++ [command] }
    have ha₁ : w₁.agents nodeId = some agent := ha
    have hstarted : agent'.launcher.started = agent.launcher.started := rfl
    have hsame : (w₁.setAgent nodeId agent').startedAt n = w₁.startedAt n :=
      startedAt_of_same ha₁ hstarted n
    rw [hsame]
    exact Multiset.le_add_right _ _
  | @receive nodeId agent agent' ha hrec =>
    obtain ⟨command, hstream, hstarted⟩ := Agent.started_receive hrec
    rw [startedAt_setAgent]
    split_ifs with hn
    · subst hn
      have hold : w.startedAt nodeId = commandIds agent.launcher.started := by
        rw [startedAt, ha]
        rfl
      have hreceives : w.receives nodeId (.receive nodeId) = {command.commandId} := by
        simp [receives, ha, hstream]
      rw [hold, hreceives]
      rcases hstarted with hsame | hnew
      · rw [hsame]
        exact Multiset.le_add_right _ _
      · rw [hnew, commandIds_append, commandIds_cons, commandIds_nil, add_zero]
    · exact Multiset.le_add_right _ _
  | disconnect ha =>
    rw [startedAt_of_same ha (by rfl)]
    exact Multiset.le_add_right _ _
  | exit ha hexit =>
    rw [startedAt_of_same ha (Agent.started_exit hexit)]
    exact Multiset.le_add_right _ _
  | logStep ha hlog =>
    have hs := startedAt_of_same ha (Agent.started_logStep hlog) n
    exact (le_of_eq hs).trans (Multiset.le_add_right _ _)

/-! ### The chain -/

/-- What the history says about the processes of the agents. -/
structure Traced (s : World Conf × CommandHistory) : Prop where
  /-- A dispatch has one command for each node, at the rank of the node. -/
  planned : ∀ n, ∀ id ∈ s.2.assigned n, plannedNode s.1.manager.mgr.history id = some n
  started : ∀ n, s.1.startedAt n ≤ s.2.received n
  launches : ∀ n, ∀ command ∈ s.1.commandsAt Conf.mgr n, command.Launches

theorem traced_start : Traced (start (.start .empty), .empty) where
  planned := fun _ _ h => absurd h (Multiset.notMem_zero _)
  started := fun _ => le_rfl
  launches := fun _ _ h => absurd h List.not_mem_nil

theorem Traced.planned_step {s : World Conf × CommandHistory} (h : Traced s)
    (hst : (lts (.fine cfg)).step s.1 mv w') (n : String) {id : CommandId}
    (hid : id ∈ s.2.assigned n + s.1.assigns n mv) :
    plannedNode w'.manager.mgr.history id = some n := by
  have P := projection (.fine cfg)
  unfold assigns at hid
  cases hl : label s.1 mv with
  | none =>
    rw [hl, Option.map_none, Option.getD_none, add_zero] at hid
    have hsame : w'.manager = s.1.manager := P.quiet hst hl
    exact hsame ▸ h.planned n id hid
  | some l =>
    rw [hl, Option.map_some, Option.getD_some] at hid
    have hx : Conf.exec cfg s.1.manager l = some w'.manager := P.step hst hl
    rcases Multiset.mem_add.1 hid with hid | hid
    · obtain ⟨events, hevents⟩ := Conf.prefix_history hx
      rw [← hevents]
      exact plannedNode_append (h.planned n id hid) events
    · exact Conf.plannedNode_of_mem_assigns hx hid

theorem traced_step : ((lts (.fine cfg)).recorded extend).Preserves Traced := by
  rintro ⟨w, h⟩ mv ⟨w', _⟩ ⟨hst, rfl⟩ hs
  refine ⟨fun n id hid => hs.planned_step hst n hid, fun n => ?_, ?_⟩
  · exact (startedAt_step hst n).trans (Multiset.add_le_add_right (hs.started n))
  · refine forall_commandsAt_step hst (fun _ h => h) (fun l hl n q hq command hc => ?_) hs.launches
    have hx : Conf.exec cfg w.manager l = some w'.manager :=
      (projection (.fine cfg)).step hst hl
    refine (Conf.mem_commandQueues hx hq hc).imp_right ?_
    rintro ⟨job, masterAddr, node, rank, todo, -, rfl⟩
    exact ⟨rfl, rfl, rfl⟩

/-- Process `k` of the agent of node `n` is `p`. -/
def HasProcess (w : World Conf) (n : String) (k : ℕ) (p : Process) : Prop :=
  ∃ agent, w.agents n = some agent ∧ agent.launcher.processes[k]? = some p

theorem HasProcess.mem_startedAt {n : String} {k : ℕ} {p : Process} (h : w.HasProcess n k p) :
    p.command.commandId ∈ w.startedAt n := by
  obtain ⟨agent, ha, hp⟩ := h
  rw [startedAt, ha]
  exact Multiset.mem_coe.2 (List.mem_map_of_mem
    (List.mem_map_of_mem (List.mem_of_getElem? hp)))

theorem HasProcess.mem_commandsAt {n : String} {k : ℕ} {p : Process} (h : w.HasProcess n k p) :
    p.command ∈ w.commandsAt Conf.mgr n := by
  obtain ⟨agent, ha, hk⟩ := h
  have hmem : p.command ∈ agent.commands :=
    List.mem_append_right _ (List.mem_map_of_mem (List.mem_of_getElem? hk))
  exact List.mem_append_right _ (by rwa [ha])

theorem Traced.startedAt_le {h : CommandHistory} (htraced : Traced (w, h))
    (htracked : Tracked (w, h)) (n : String) : w.startedAt n ≤ h.assigned n := by
  refine (htraced.started n).trans ?_
  rw [← htracked.conserved n, add_right_comm]
  exact Multiset.le_add_left _ _

theorem HasProcess.planned (h : (lts (.fine cfg)).Reachable (start (.start .empty)) w) {n : String}
    {k : ℕ} {p : Process} (hp : w.HasProcess n k p) :
    plannedNode w.manager.mgr.history p.command.commandId = some n := by
  obtain ⟨h, hrec⟩ := h.exists_record extend .empty
  have htracked : Tracked (w, h) := hrec.keeps tracked_step tracked_start
  have htraced : Traced (w, h) := hrec.keeps traced_step traced_start
  exact htraced.planned n _
    (Multiset.mem_of_le (htraced.startedAt_le htracked n) hp.mem_startedAt)

/-- **Where processes come from.**  In every run from an empty database, whatever is lost and
however often the manager is killed: a process on a node is there for a rank that a dispatch of its
job has given to the node, and no two processes in the cluster, alive or not, are there for the same
rank of the same dispatch. -/
theorem process_origin (h : (lts (.fine cfg)).Reachable (start (.start .empty)) w) :
    (∀ n k p, w.HasProcess n k p → p.command.Launches ∧
      plannedNode w.manager.mgr.history p.command.commandId = some n) ∧
    ∀ n k p n' k' p', w.HasProcess n k p → w.HasProcess n' k' p' →
      p.command.commandId = p'.command.commandId → n = n' ∧ k = k' := by
  have hplanned : ∀ n k p, w.HasProcess n k p →
      plannedNode w.manager.mgr.history p.command.commandId = some n := fun _ _ _ hp => hp.planned h
  obtain ⟨h, hrec⟩ := h.exists_record extend .empty
  have htracked : Tracked (w, h) := hrec.keeps tracked_step tracked_start
  have htraced : Traced (w, h) := hrec.keeps traced_step traced_start
  refine ⟨fun n k p hp => ⟨htraced.launches n _ hp.mem_commandsAt, hplanned n k p hp⟩,
    fun n k p n' k' p' hp hp' hid => ?_⟩
  have hn : n = n' := Option.some.inj
    ((hplanned n k p hp).symm.trans (hid ▸ hplanned n' k' p' hp'))
  subst hn
  refine ⟨rfl, ?_⟩
  -- the commands of one agent are pairwise different
  obtain ⟨agent, ha, hk⟩ := hp
  obtain ⟨agent', ha', hk'⟩ := hp'
  obtain rfl := Option.some.inj (ha.symm.trans ha')
  have hnd : (agent.launcher.started.map Command.commandId).Nodup := by
    have hnodup := Multiset.nodup_of_le (htraced.startedAt_le htracked n) (htracked.nodup n)
    rw [startedAt, ha] at hnodup
    exact Multiset.coe_nodup.1 hnodup
  have hget : ∀ (j : ℕ) (q : Process), agent.launcher.processes[j]? = some q →
      (agent.launcher.started.map Command.commandId)[j]? = some q.command.commandId := by
    intro j q hq
    simp [JobLauncher.started, hq]
  obtain ⟨hlt, -⟩ := List.getElem?_eq_some_iff.1 (hget k p hk)
  exact (List.getElem?_inj hlt hnd).1 ((hget k p hk).trans (hid ▸ hget k' p' hk').symm)

/-- The run in which a job is launched on both of its nodes. -/
theorem process_origin_launched :
    let w := LTS.last (start (.start .empty)) (LTS.runOf (exec (.fine Sample.setup))
      (start (.start .empty)) (Sample.launchTwo true))
    (∃ p, w.HasProcess "node-2" 0 p) ∧
    (∀ n k p, w.HasProcess n k p → p.command.Launches ∧
      plannedNode w.manager.mgr.history p.command.commandId = some n) ∧
    ∀ n k p n' k' p', w.HasProcess n k p → w.HasProcess n' k' p' →
      p.command.commandId = p'.command.commandId → n = n' ∧ k = k' := by
  intro w
  have hsome : ((w.agents "node-2").bind fun agent => agent.launcher.processes[0]?).isSome := by
    decide +kernel
  obtain ⟨p, hp⟩ := Option.isSome_iff_exists.1 hsome
  exact ⟨⟨p, Option.bind_eq_some_iff.1 hp⟩, process_origin (LTS.run_runOf _ _ _).reachable⟩

end World

end Dmlf
