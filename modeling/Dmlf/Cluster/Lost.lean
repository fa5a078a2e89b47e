import Dmlf.Manager.Unheard
import Dmlf.Cluster.Allocation

/-!
# Lost nodes

An agent whose command stream breaks sets its status to `OFFLINE` (`dmlf/agent/agent.py`), connects
again, and waits for commands.  Nothing but a command changes the status back.  The scheduler, on
its side, takes idle nodes only, and nothing but a heartbeat or a report sets a node idle.

* `World.Lost` : an agent without work says something else than `IDLE`, and the manager knows.
* `World.lost_forever` : the node never works again, however long it goes on with its heartbeats.
-/

namespace Dmlf

/-- The node is registered, and it is not idle. -/
def Registry.NotIdle (n : String) (reg : Registry) : Prop :=
  ∃ r, reg.getNode n = some r ∧ r.status ≠ .idle

namespace Registry

variable {n : String} {reg reg' : Registry}

theorem NotIdle.congr (hn : reg'.nodes = reg.nodes) (h : reg.NotIdle n) : reg'.NotIdle n := by
  rwa [NotIdle, getNode, hn]

theorem NotIdle.of_unheard (h : reg.NotIdle n) (hw : reg.Unheard reg') : reg'.NotIdle n := by
  obtain ⟨r, hr, hstatus⟩ := h
  have hkeys : reg'.nodes.rows.map NodeRow.nodeId = reg.nodes.rows.map NodeRow.nodeId := by
    have hfst := congrArg (List.map Prod.fst) hw.heartbeats
    rwa [List.map_map, List.map_map] at hfst
  unfold NotIdle
  cases hr' : reg'.getNode n with
  | none =>
    have hno : n ∉ reg.nodes.rows.map NodeRow.nodeId := hkeys ▸ Table.find?_eq_none_iff.1 hr'
    cases (Table.find?_eq_none_iff.2 hno).symm.trans hr
  | some r' =>
    refine ⟨r', rfl, fun hidle => hstatus ?_⟩
    have hmem := hw.idle r' (Table.mem_of_find? hr') hidle
    have hsame := mem_nodes.1 hmem
    rw [nodeId_of_getNode hr', hr] at hsame
    exact Option.some.inj hsame ▸ hidle

theorem NotIdle.updateNodes (h : reg.NotIdle n) (p : NodeRow → Bool) {f : NodeRow → NodeRow}
    (hf : ∀ r, (f r).nodeId = r.nodeId)
    (hkeep : ∀ r, r.nodeId = n → p r = true → (f r).status ≠ .idle) :
    (reg.updateNodes p f hf).NotIdle n := by
  obtain ⟨r, hr, hstatus⟩ := h
  refine ⟨if p r then f r else r, by rw [getNode_updateNodes, hr]; rfl, ?_⟩
  split_ifs with hp
  · exact hkeep r (nodeId_of_getNode hr) hp
  · exact hstatus

theorem NotIdle.not_selected (h : reg.NotIdle n) {now : Time} {r : NodeRow}
    (hr : r ∈ (reg.getAvailableNodes now).2) : r.nodeId ≠ n := by
  rintro rfl
  obtain ⟨hget, hidle⟩ := mem_getAvailableNodes.1 hr
  obtain ⟨r', hr', hstatus⟩ := h.of_unheard (reg.unheard_markOfflineNodes now defaultTimeoutSeconds)
  cases hget.symm.trans hr'
  exact hstatus hidle

end Registry

/-- The task will neither set node `n` idle nor give it a job. -/
def Task.Spares (n : String) : Task → Prop
  | .retrySetIdle req _ | .failWrite req | .closedSetIdle req => req.nodeId ≠ n
  | .schedReserve _ nodes _ => ∀ node ∈ nodes, node.nodeId ≠ n
  | _ => True

/-- The call does not say that node `n` is idle. -/
def Label.Spares (n : String) : Label → Prop
  | .sendHeartbeat req _ => req.nodeId = n → NodeState.ofText req.currentStatus ≠ .idle
  | .reportJobStatus req _ => req.nodeId ≠ n
  | _ => True

namespace Task

variable {cfg : Setup} {now : Time} {m : Manager} {t t' : Task} {n : String}

theorem notIdle_step (h : m.registry.NotIdle n) (ht : t.Spares n) :
    (t.step cfg now m).1.registry.NotIdle n := by
  have hset : ∀ n', n' ≠ n → (m.registry.updateNodeState n' .idle).NotIdle n := fun n' hne =>
    h.updateNodes (fun r => r.nodeId = n') (f := fun r => { r with status := .idle })
      (fun _ => rfl) fun r hr hp => absurd ((of_decide_eq_true hp).symm.trans hr) hne
  cases t with
  | registerQueue | submitAppend | retryWrite | retryAppend | failWrite => exact h
  | retrySetIdle req job => exact hset req.nodeId ht
  | closedSetIdle req =>
    simp only [step]
    split_ifs <;> exact hset req.nodeId ht
  | schedSelect | schedRequeue | schedReserve | schedSend | monJobs | monLoop | monAppend
    | monCount => exact h.of_unheard (unheard_step cfg now m rfl)

theorem spares_step (h : m.registry.NotIdle n) (ht : t.Spares n)
    (hst : (t.step cfg now m).2 = some t') : t'.Spares n := by
  cases next_of_step hst with
  | retryWrite | retryAppend | tooFew | started | sent | monLoop | lost | passed | marked
    | appended => trivial
  | failed => exact ht
  | selected job nodes hnodes =>
    intro node hnode
    exact h.not_selected (mem_of_mem_allocate (hnodes ▸ hnode))
  | reserved => exact ht

end Task

/-! ### The manager -/

/-- The event is not a dispatch to node `n`. -/
def Event.Spares (n : String) : Event → Prop
  | .dispatched _ nodes => n ∉ nodes
  | _ => True

namespace Conf

variable {cfg : Setup} {c c' : Conf} {l : Label} {n : String}

/-- Node `n` is not idle, no command for it is on its way out, and none will be. -/
structure Lost (n : String) (c : Conf) : Prop where
  oneScheduler : c.OneScheduler
  notIdle : c.mgr.registry.NotIdle n
  outgoing : c.outgoing n = 0
  tasks : ∀ t ∈ c.tasks, t.Spares n

theorem Lost.notIdle_step (h : c.Lost n) (hl : l.Spares n) (hst : exec cfg c l = some c') :
    c'.mgr.registry.NotIdle n := by
  cases call hst with
  | first hbegun =>
    cases hbegun with
    | @registerNode nodeId nodeSecret req now hnew =>
      obtain ⟨r, hr, hstatus⟩ := h.notIdle
      refine ⟨r, ?_, hstatus⟩
      rw [spawn, Manager.insertNode, Manager.registry_setRegistry,
        Registry.getNode_registerNode, if_neg, hr]
      rintro rfl
      rw [hr] at hnew
      cases hnew
    | sendHeartbeat =>
      obtain ⟨r, hr, hstatus⟩ := h.notIdle
      refine ⟨_, (Registry.getNode_updateHeartbeat ..).trans (congrArg _ hr), ?_⟩
      dsimp only
      split_ifs with hn
      · exact hl (hn.symm.trans (Registry.nodeId_of_getNode hr))
      · exact hstatus
    | reportCompleted => exact h.notIdle
    | submitJob hreg => exact Registry.NotIdle.congr (Registry.nodes_insertJob hreg).1 h.notIdle
    | probe => exact h.notIdle.of_unheard (Registry.unheard_markOfflineNodes ..)
    | listenForCommands | takeCommand | reportIgnored | reportRetry | reportFail | noJob | popJob
      | noneOffline | someOffline => exact h.notIdle
  | restart => exact h.notIdle
  | next hi => exact Task.notIdle_step h.notIdle (h.tasks _ (List.mem_of_getElem? hi))

theorem Begun.spares {m : Manager} {t : Task} (hb : Begun cfg c l m (some t)) (hl : l.Spares n) :
    t.Spares n := by
  cases hb with
  | registerNode | submitJob | popJob | noneOffline | someOffline => trivial
  | reportRetry | reportFail | reportCompleted => exact hl

theorem Lost.not_started (h : c.Lost n) {x : JobDict × List NodeRow} (hl : c.starts l = some x) :
    ∀ node ∈ x.2, node.nodeId ≠ n := by
  cases l with
  | runTask i now =>
    obtain ⟨t, hi, ht⟩ := Option.bind_eq_some_iff.1 hl
    have hspares := h.tasks t (List.mem_of_getElem? hi)
    rwa [Task.eq_of_starts ht] at hspares
  | registerNode | sendHeartbeat | listenForCommands | takeCommand | reportJobStatus | submitJob
    | schedulerPass | monitorPass | probe | restart => cases hl

theorem Lost.outgoing_step (h : c.Lost n) (hst : exec cfg c l = some c') : c'.outgoing n = 0 := by
  have hstep := Conf.outgoing_step h.oneScheduler hst n
  have hassigns : c.assigns n l = 0 := by
    unfold assigns
    cases hl : c.starts l with
    | none => rfl
    | some x =>
      have hno : x.2.zipIdx.filter (fun y => decide (y.1.nodeId = n)) = [] := by
        refine List.filter_eq_nil_iff.2 fun y hy => ?_
        have hmem := List.mem_of_getElem? (List.mem_zipIdx_iff_getElem?.1 hy)
        simpa using h.not_started hl y.1 hmem
      simp [hno]
  rw [h.outgoing, hassigns, add_zero, add_assoc] at hstep
  exact Multiset.le_zero.1 ((Multiset.le_add_right _ _).trans_eq hstep)

theorem Lost.history_step (h : c.Lost n) (hst : exec cfg c l = some c') :
    ∃ later, c'.mgr.history = c.mgr.history ++ later ∧ ∀ e ∈ later, e.Spares n := by
  have hnil : c.mgr.history = c.mgr.history ++ [] ∧ ∀ e ∈ ([] : List Event), e.Spares n :=
    ⟨(List.append_nil _).symm, fun _ he => absurd he List.not_mem_nil⟩
  cases call hst with
  | first hbegun =>
    cases hbegun with
    | submitJob => exact ⟨_, rfl, List.forall_mem_singleton.2 trivial⟩
    | registerNode | sendHeartbeat | listenForCommands | takeCommand | reportIgnored | reportRetry
      | reportFail | reportCompleted | noJob | popJob | noneOffline | someOffline | probe =>
      exact ⟨[], hnil⟩
  | restart => exact ⟨[], hnil⟩
  | @next i now t hi =>
    have hwrites := Task.writes_step cfg now c.mgr t
    cases hwrites with
    | none _ hh | fail _ _ _ hh => exact ⟨[], hh ▸ hnil⟩
    | retry _ _ hh => exact ⟨_, hh, List.forall_mem_singleton.2 trivial⟩
    | start job nodes now' ht hj hh =>
      refine ⟨_, hh, List.forall_mem_singleton.2 fun hmem => ?_⟩
      obtain ⟨node, hnode, hn⟩ := List.mem_map.1 hmem
      have hspares := h.tasks t (List.mem_of_getElem? hi)
      rw [ht] at hspares
      exact hspares node hnode hn

/-- **A lost node stays lost.** -/
theorem Lost.step (h : c.Lost n) (hl : l.Spares n) (hst : exec cfg c l = some c') : c'.Lost n where
  oneScheduler := oneScheduler_step h.oneScheduler hst
  notIdle := h.notIdle_step hl hst
  outgoing := h.outgoing_step hst
  tasks := by
    intro t ht
    have hafter := taskAfter hst ht
    generalize c'.mgr = m at hafter
    cases hafter with
    | kept ht => exact h.tasks t ht
    | begun hb => exact hb.spares hl
    | next hi _ hnext =>
      exact Task.spares_step h.notIdle (h.tasks _ (List.mem_of_getElem? hi)) hnext

theorem Lost.takeCommand_eq_none (h : c.Lost n) : c.mgr.takeCommand n = none := by
  have hqueued : c.mgr.queued n = 0 :=
    Multiset.le_zero.1 ((Multiset.le_add_left _ _).trans_eq h.outgoing)
  unfold Manager.takeCommand
  cases hq : c.mgr.commandQueues n with
  | none => rfl
  | some q =>
    cases q with
    | nil => rfl
    | cons command rest => simp [Manager.queued, hq] at hqueued

end Conf

/-! ### The cluster -/

namespace World

variable {cfg : Setup} {w w' : World Conf} {mv : Move} {n : String}

/-- The agent has no work and no command, and what it says is not that it is idle. -/
structure AgentLost (agent : Agent) : Prop where
  status : agent.status ≠ "IDLE"
  stream : agent.stream = []
  finished : ∀ p ∈ agent.launcher.processes, p.logThread = .finished

/-- Node `n` is lost to its manager, its agent has nothing to do, and no message under way says that
it is idle. -/
structure Lost (n : String) (w : World Conf) : Prop where
  manager : w.manager.Lost n
  agent : ∃ agent, w.agents n = some agent ∧ AgentLost agent
  heartbeats : ∀ req ∈ w.heartbeats, req.nodeId = n → req.currentStatus ≠ "IDLE"
  reports : ∀ report ∈ w.reports, report.request.nodeId ≠ n

/-- The number of processes that have ever been started on node `n`. -/
def started (w : World Conf) (n : String) : ℕ :=
  ((w.agents n).map fun agent => agent.launcher.processes.length).getD 0

theorem Lost.setAgent (h : w.Lost n) {nodeId : String} {agent : Agent}
    (hagent : nodeId = n → AgentLost agent ∧ agent.launcher.processes.length = w.started n)
    (x : Conf) :
    (∃ agent', ({ w with manager := x }.setAgent nodeId agent).agents n = some agent' ∧
      AgentLost agent') ∧
      ({ w with manager := x }.setAgent nodeId agent).started n = w.started n := by
  by_cases hn : nodeId = n
  · subst hn
    obtain ⟨hlost, hlen⟩ := hagent rfl
    refine ⟨⟨agent, by simp [World.setAgent], hlost⟩, ?_⟩
    rw [← hlen]
    simp [started, World.setAgent]
  · obtain ⟨agent', ha, hlost⟩ := h.agent
    refine ⟨⟨agent', by simpa [World.setAgent, Ne.symm hn] using ha, hlost⟩, ?_⟩
    simp [started, World.setAgent, Ne.symm hn]

/-- **A move of the cluster** leaves a lost node lost. -/
theorem Lost.step (h : w.Lost n) (hst : (lts (.fine cfg)).step w mv w') :
    w'.Lost n ∧ w'.started n = w.started n ∧ ∃ later,
      w'.manager.mgr.history = w.manager.mgr.history ++ later ∧ ∀ e ∈ later, e.Spares n := by
  obtain ⟨agent₀, ha₀, hlost₀⟩ := h.agent
  have hagent : ∀ {agent}, w.agents n = some agent → AgentLost agent := fun ha =>
    Option.some.inj (ha₀.symm.trans ha) ▸ hlost₀
  have hstarted : ∀ agent, w.agents n = some agent →
      agent.launcher.processes.length = w.started n := fun agent ha => by rw [started, ha]; rfl
  have hsame : ∃ later, w.manager.mgr.history = w.manager.mgr.history ++ later ∧
      ∀ e ∈ later, e.Spares n := ⟨[], (List.append_nil _).symm, by rintro _ ⟨⟩⟩
  have hcall : ∀ (l : Label) (x : Conf), l.Spares n → w.manager.exec cfg l = some x →
      x.Lost n ∧ ∃ later, x.mgr.history = w.manager.mgr.history ++ later ∧
        ∀ e ∈ later, e.Spares n := fun l x hl hx =>
    ⟨h.manager.step hl hx, h.manager.history_step hx⟩
  cases effect (.fine cfg) hst with
  | @manager l x hl hx =>
    have hspares : l.Spares n := by
      cases l with
      | sendHeartbeat | reportJobStatus => cases hl
      | registerNode | listenForCommands | takeCommand | submitJob | schedulerPass | monitorPass
        | probe | restart | runTask => trivial
    obtain ⟨hx', hhist⟩ := hcall l x hspares hx
    exact ⟨⟨hx', h.agent, h.heartbeats, h.reports⟩, rfl, hhist⟩
  | @join nodeId nodeSecret req now x hx =>
    have hne : nodeId = n → AgentLost .new ∧ Agent.new.launcher.processes.length = w.started n := by
      rintro rfl
      obtain ⟨r, hr, -⟩ := h.manager.notIdle
      have hnone := (Option.ite_none_right_eq_some.1 hx).1
      rw [hr] at hnone
      cases hnone
    obtain ⟨hagents, hcount⟩ := h.setAgent hne x
    obtain ⟨hx', hhist⟩ := hcall (.registerNode nodeId nodeSecret req now) x trivial hx
    exact ⟨⟨hx', hagents, h.heartbeats, h.reports⟩, hcount, hhist⟩
  | @buildHeartbeat nodeId metrics sendTimestamp agent ha =>
    refine ⟨⟨h.manager, h.agent, fun req hreq hn => ?_, h.reports⟩, rfl, hsame⟩
    rcases List.mem_append.1 hreq with hreq | hreq
    · exact h.heartbeats req hreq hn
    · obtain rfl := List.mem_singleton.1 hreq
      exact (hagent (hn ▸ ha)).status
  | @deliverHeartbeat i now req x hreq hx =>
    have hspares : (Label.sendHeartbeat req now).Spares n := fun hn hidle =>
      h.heartbeats req (List.mem_of_getElem? hreq) hn (NodeState.ofText_eq_idle.1 hidle)
    obtain ⟨hx', hhist⟩ := hcall (.sendHeartbeat req now) x hspares hx
    exact ⟨⟨hx', h.agent, fun req hreq => h.heartbeats req (List.mem_of_mem_eraseIdx hreq),
      h.reports⟩, rfl, hhist⟩
  | @listen nodeId x hx =>
    obtain ⟨hx', hhist⟩ := hcall (.listenForCommands nodeId) x trivial hx
    exact ⟨⟨hx', h.agent, h.heartbeats, h.reports⟩, rfl, hhist⟩
  | @takeCommand nodeId agent command m x ha hc hx =>
    have hne : nodeId ≠ n := by
      rintro rfl
      cases h.manager.takeCommand_eq_none.symm.trans hc
    let agent' : Agent := { agent with stream := agent.stream ++ [command] }
    have hother : nodeId = n → AgentLost agent' ∧
        agent'.launcher.processes.length = w.started n := fun hn => absurd hn hne
    obtain ⟨hagents, hcount⟩ := h.setAgent hother x
    obtain ⟨hx', hhist⟩ := hcall (.takeCommand nodeId) x trivial hx
    exact ⟨⟨hx', hagents, h.heartbeats, h.reports⟩, hcount, hhist⟩
  | @receive nodeId agent agent' ha hr =>
    have hne : nodeId ≠ n := by
      rintro rfl
      rw [Agent.receive, (hagent ha).stream] at hr
      cases hr
    have hother : nodeId = n → AgentLost agent' ∧
        agent'.launcher.processes.length = w.started n := fun hn => absurd hn hne
    obtain ⟨hagents, hcount⟩ := h.setAgent hother w.manager
    exact ⟨⟨h.manager, hagents, h.heartbeats, h.reports⟩, hcount, hsame⟩
  | @disconnect nodeId agent ha =>
    have hlost : nodeId = n → AgentLost agent.disconnect ∧
        agent.disconnect.launcher.processes.length = w.started n := by
      rintro rfl
      exact ⟨⟨(by decide : "OFFLINE" ≠ "IDLE"), rfl, (hagent ha).finished⟩, hstarted agent ha⟩
    obtain ⟨hagents, hcount⟩ := h.setAgent hlost w.manager
    exact ⟨⟨h.manager, hagents, h.heartbeats, h.reports⟩, hcount, hsame⟩
  | @exit nodeId k code agent agent' ha he =>
    obtain ⟨launcher, hexit, rfl⟩ := Option.map_eq_some_iff.1 he
    obtain ⟨p, hp, -, rfl⟩ := JobLauncher.eq_of_exit hexit
    have hlost : nodeId = n →
        AgentLost { agent with
          launcher := agent.launcher.setProcess k { p with exitCode := some code } } ∧
        (agent.launcher.processes.set k { p with exitCode := some code }).length = w.started n := by
      rintro rfl
      obtain ⟨hstatus, hstream, hfinished⟩ := hagent ha
      refine ⟨⟨hstatus, hstream, fun q hq => ?_⟩, List.length_set.trans (hstarted agent ha)⟩
      rcases List.mem_or_eq_of_mem_set hq with hq | rfl
      · exact hfinished q hq
      · exact hfinished p (List.mem_of_getElem? hp)
    obtain ⟨hagents, hcount⟩ := h.setAgent hlost w.manager
    exact ⟨⟨h.manager, hagents, h.heartbeats, h.reports⟩, hcount, hsame⟩
  | @logStep nodeId k agent agent' report ha hl =>
    obtain ⟨p, launcher, status, hp, hlog, rfl, rfl⟩ := Agent.eq_of_logStep hl
    have hne : nodeId ≠ n := by
      rintro rfl
      have hfinished := (hagent ha).finished p (List.mem_of_getElem? hp)
      simp [JobLauncher.logStep, hp, hfinished] at hlog
    let agent' : Agent := { agent with launcher }
    have hother : nodeId = n → AgentLost agent' ∧
        agent'.launcher.processes.length = w.started n := fun hn => absurd hn hne
    obtain ⟨hagents, hcount⟩ := h.setAgent hother w.manager
    refine ⟨⟨h.manager, hagents, h.heartbeats, fun report hreport => ?_⟩, hcount, hsame⟩
    rcases List.mem_append.1 hreport with hreport | hreport
    · exact h.reports report hreport
    · obtain ⟨status, -, rfl⟩ := Option.map_eq_some_iff.1 (Option.mem_toList.1 hreport)
      exact hne
  | @deliverReport i now report x hreport hx =>
    have hspares : (Label.reportJobStatus report.request now).Spares n :=
      h.reports report (List.mem_of_getElem? hreport)
    obtain ⟨hx', hhist⟩ := hcall (.reportJobStatus report.request now) x hspares hx
    exact ⟨⟨hx', h.agent, h.heartbeats,
      fun report hreport => h.reports report (List.mem_of_mem_eraseIdx hreport)⟩, rfl, hhist⟩

/-- **A node that is lost is lost for good.**  Whatever happens from then on, restarts of the
manager included: the node is never dispatched to, and no process is started on it. -/
theorem lost_forever (h : w.Lost n) (hrun : (lts (.fine cfg)).Reachable w w') :
    w'.Lost n ∧ w'.started n = w.started n ∧ ∃ later,
      w'.manager.mgr.history = w.manager.mgr.history ++ later ∧
        ∀ j nodes, .dispatched j nodes ∈ later → n ∉ nodes := by
  have hkeep := hrun.keeps (I := fun w' => w'.Lost n ∧ w'.started n = w.started n ∧ ∃ later,
      w'.manager.mgr.history = w.manager.mgr.history ++ later ∧ ∀ e ∈ later, e.Spares n)
    (fun y mv y' hst ⟨hy, hcount, later, hhist, hspares⟩ => by
      obtain ⟨hy', hcount', later', hhist', hspares'⟩ := hy.step hst
      refine ⟨hy', hcount'.trans hcount, later ++ later', ?_, ?_⟩
      · rw [hhist', hhist, List.append_assoc]
      · exact List.forall_mem_append.2 ⟨hspares, hspares'⟩)
    ⟨h, rfl, [], (List.append_nil _).symm, by rintro _ ⟨⟩⟩
  obtain ⟨hlost, hcount, later, hhist, hspares⟩ := hkeep
  exact ⟨hlost, hcount, later, hhist, fun j nodes hmem => hspares _ hmem⟩

namespace Sample

/-- The stream of an idle node breaks, and a heartbeat says so. -/
def breakStream : List Move :=
  [.join "node-1" "secret-1" Dmlf.Sample.node 100, .manager (.runTask 0 100), .listen "node-1",
    .disconnect "node-1", .buildHeartbeat "node-1" ⟨0, 0, 0, 0⟩ 105, .deliverHeartbeat 0 105]

/-- The node listens again and sends a heartbeat.  A job is submitted, and the scheduler looks for a
node. -/
def reconnect : List Move :=
  [.listen "node-1", .buildHeartbeat "node-1" ⟨0, 0, 0, 0⟩ 110, .deliverHeartbeat 0 110,
    .manager (.submitJob "job-1" (Dmlf.Sample.job 1 1) 111), .manager (.runTask 0 111),
    .manager (.schedulerPass 112), .manager (.runTask 0 112), .manager (.runTask 0 112)]

end Sample

/-- The only node of a cluster is lost, and the job stays in the queue. -/
theorem lost_forever_reconnect : ∃ w w',
    (lts (.fine Dmlf.Sample.setup)).Reachable (start (.start .empty)) w ∧
    (lts (.fine Dmlf.Sample.setup)).Reachable w w' ∧
    (w'.manager.mgr.queue.length = 1 ∧ w'.manager.tasks = []) ∧
    w'.Lost "node-1" ∧ w'.started "node-1" = w.started "node-1" ∧ ∃ later,
      w'.manager.mgr.history = w.manager.mgr.history ++ later ∧
        ∀ j nodes, .dispatched j nodes ∈ later → "node-1" ∉ nodes := by
  obtain ⟨w, hreach, hw⟩ := LTS.exists_of_exec (exec (.fine Dmlf.Sample.setup))
    (start (.start .empty)) Sample.breakStream (fun w => decide (
      ((w.manager.tasks.isEmpty ∧ w.heartbeats.isEmpty ∧ w.reports.isEmpty) ∧
        w.manager.outgoing "node-1" = 0 ∧
        (w.manager.mgr.registry.getNode "node-1").any (fun r => r.status ≠ .idle) = true ∧
        (w.agents "node-1").any (fun agent => agent.status ≠ "IDLE" ∧ agent.stream.isEmpty ∧
          agent.launcher.processes.isEmpty) = true) ∧
      (LTS.exec (exec (.fine Dmlf.Sample.setup)) w Sample.reconnect).any (fun w' =>
        w'.manager.mgr.queue.length = 1 ∧ w'.manager.tasks.isEmpty) = true)) (by decide +kernel)
  obtain ⟨⟨⟨htasks, hheartbeats, hreports⟩, hout, hrow, hagent⟩, hlater⟩ := of_decide_eq_true hw
  obtain ⟨w', hrun, hw'⟩ := LTS.exists_of_exec _ w Sample.reconnect _ hlater
  obtain ⟨hqueue, htasks'⟩ := of_decide_eq_true hw'
  rw [List.isEmpty_iff] at htasks hheartbeats hreports htasks'
  obtain ⟨r, hr, hstatus⟩ := (Option.any_eq_true _ _).1 hrow
  obtain ⟨agent, ha, hquiet⟩ := (Option.any_eq_true _ _).1 hagent
  obtain ⟨hstatus', hstream, hprocesses⟩ := of_decide_eq_true hquiet
  have hlost : w.Lost "node-1" := {
    manager := {
      oneScheduler := by simp [Conf.OneScheduler, htasks]
      notIdle := ⟨r, hr, of_decide_eq_true hstatus⟩
      outgoing := hout
      tasks := by simp [htasks] }
    agent := ⟨agent, ha, hstatus', List.isEmpty_iff.1 hstream, by
      simp [List.isEmpty_iff.1 hprocesses]⟩
    heartbeats := by simp [hheartbeats]
    reports := by simp [hreports] }
  exact ⟨w, w', hreach, hrun, ⟨hqueue, htasks'⟩, lost_forever hlost hrun⟩

end World

end Dmlf
