import Dmlf.Ledger.Uses
import Dmlf.Jobs.Duplicates

/-!
# One live attempt

A job is queued again as soon as one of its nodes fails, or is late, and no other node is told:
the manager never sends `STOP_JOB`.  So processes of two dispatches of one job may be alive.

* `World.placed` : what is left of a job's latest dispatch is on the nodes of its row.
* `World.single_attempt` : there is never more than one attempt alive if no job is queued again
  while one of its nodes still has a command or a process of it, or while it is still queued.
* `World.single_attempt_fails` : one of two nodes fails, and the job is dispatched again.
-/

namespace Dmlf

namespace JobLauncher

variable {launcher launcher' : JobLauncher}

/-- The commands whose processes are alive. -/
def running (launcher : JobLauncher) : List Command :=
  (launcher.processes.filter fun p => p.exitCode.isNone).map Process.command

theorem mem_running {c : Command} : c ∈ launcher.running ↔
    ∃ p ∈ launcher.processes, p.exitCode.isNone = true ∧ p.command = c := by
  simp only [running, List.mem_map, List.mem_filter, and_assoc]

theorem running_setProcess {k : ℕ} {p q : Process} (hk : launcher.processes[k]? = some p)
    (hq : q.exitCode.isNone = true → p.exitCode.isNone = true) (hc : q.command = p.command) :
    (launcher.setProcess k q).running ⊆ launcher.running := by
  intro c hc'
  obtain ⟨r, hr, halive, rfl⟩ := mem_running.1 hc'
  rcases List.mem_or_eq_of_mem_set hr with hr | rfl
  · exact mem_running.2 ⟨r, hr, halive, rfl⟩
  · exact mem_running.2 ⟨p, List.mem_of_getElem? hk, hq halive, hc.symm⟩

theorem running_launchTorchrun (command : Command) :
    (launcher.launchTorchrun command).running ⊆ command :: launcher.running := by
  intro c hc
  unfold launchTorchrun at hc
  split_ifs at hc
  · exact List.mem_cons_of_mem _ hc
  · obtain ⟨p, hp, halive, rfl⟩ := mem_running.1 hc
    rcases List.mem_append.1 hp with hp | hp
    · exact List.mem_cons_of_mem _ (mem_running.2 ⟨p, hp, halive, rfl⟩)
    · obtain rfl := List.mem_singleton.1 hp
      exact List.mem_cons_self

theorem running_stopCurrentJob : launcher.stopCurrentJob.running = launcher.running := by
  unfold stopCurrentJob
  split_ifs <;> rfl

theorem running_exit {k : ℕ} {code : ℤ} (h : launcher.exit k code = some launcher') :
    launcher'.running ⊆ launcher.running := by
  obtain ⟨p, hp, -, rfl⟩ := eq_of_exit h
  exact running_setProcess hp (fun h => by cases h) rfl

theorem running_logStep {k : ℕ} {status : Option String}
    (h : launcher.logStep k = some (launcher', status)) : launcher'.running ⊆ launcher.running := by
  obtain ⟨p, thread, hp, rfl⟩ := eq_of_logStep h
  exact running_setProcess (q := { p with logThread := thread }) hp id rfl

end JobLauncher

namespace Agent

variable {agent agent' : Agent}

/-- The commands that an agent has not yet taken, or whose processes are alive. -/
def work (agent : Agent) : List Command := agent.stream ++ agent.launcher.running

theorem work_receive (h : agent.receive = some agent') : agent'.work ⊆ agent.work := by
  unfold receive at h
  split at h
  · cases h
  · rename_i command stream hs
    have hrest : ∀ {launcher : JobLauncher} {status},
        launcher.running ⊆ command :: agent.launcher.running →
        (⟨status, launcher, stream⟩ : Agent).work ⊆ agent.work := by
      intro launcher status hrun c hc
      rw [work, hs]
      rcases List.mem_append.1 hc with hc | hc
      · exact List.mem_append_left _ (List.mem_cons_of_mem _ hc)
      · rcases List.mem_cons.1 (hrun hc) with rfl | hc
        · exact List.mem_append_left _ List.mem_cons_self
        · exact List.mem_append_right _ hc
    obtain rfl := Option.some.inj h
    split
    · exact hrest (JobLauncher.running_launchTorchrun command)
    · rw [← JobLauncher.running_stopCurrentJob] at hrest
      exact hrest (List.subset_cons_self _ _)
    · exact hrest (List.subset_cons_self _ _)

theorem work_disconnect (agent : Agent) : agent.disconnect.work ⊆ agent.work :=
  List.subset_append_right _ _

theorem work_launcher {launcher : JobLauncher} (h : launcher.running ⊆ agent.launcher.running) :
    ({ agent with launcher } : Agent).work ⊆ agent.work :=
  List.append_subset.2
    ⟨List.subset_append_left _ _, List.Subset.trans h (List.subset_append_right _ _)⟩

theorem work_exit {k : ℕ} {code : ℤ} (h : agent.exit k code = some agent') :
    agent'.work ⊆ agent.work := by
  obtain ⟨launcher, hl, rfl⟩ := Option.map_eq_some_iff.1 h
  exact work_launcher (JobLauncher.running_exit hl)

theorem work_logStep {nodeId : String} {k : ℕ} {report : Option Report}
    (h : agent.logStep nodeId k = some (agent', report)) : agent'.work ⊆ agent.work := by
  obtain ⟨p, launcher, status, -, hl, rfl, -⟩ := eq_of_logStep h
  exact work_launcher (JobLauncher.running_logStep hl)

end Agent

namespace World

variable {cfg : Setup} {w w' : World Manager}

/-- The commands for node `n` that are undelivered, or whose processes are alive. -/
def work (w : World Manager) (n : String) : List Command :=
  (w.manager.commandQueues n).getD [] ++ ((w.agents n).map Agent.work).getD []

theorem mem_work {n : String} {c : Command} : c ∈ w.work n ↔
    (∃ q, w.manager.commandQueues n = some q ∧ c ∈ q) ∨
      ∃ agent, w.agents n = some agent ∧ c ∈ agent.work := by
  rw [work, List.mem_append]
  refine or_congr ?_ ?_
  · cases w.manager.commandQueues n <;> simp
  · cases w.agents n <;> simp

theorem agents_setAgent {X : Type} {w : World X} {nodeId n : String} {agent a : Agent}
    (h : (w.setAgent nodeId agent).agents n = some a) :
    n = nodeId ∧ agent = a ∨ w.agents n = some a := by
  simp only [setAgent] at h
  split_ifs at h with hn
  · exact .inl ⟨hn, Option.some.inj h⟩
  · exact .inr h

theorem work_agent_step {mv : Move} (hst : (lts (.serial cfg)).step w mv w') {n : String}
    {a : Agent} (ha : w'.agents n = some a) {c : Command} (hc : c ∈ a.work) : c ∈ w.work n := by
  have hsub : ∀ {nodeId agent agent'}, (w.setAgent nodeId agent').agents n = some a →
      w.agents nodeId = some agent → agent'.work ⊆ agent.work → c ∈ w.work n := by
    intro nodeId agent agent' ha hagent hle
    rcases agents_setAgent ha with ⟨rfl, rfl⟩ | ha
    · exact mem_work.2 (.inr ⟨agent, hagent, hle hc⟩)
    · exact mem_work.2 (.inr ⟨a, ha, hc⟩)
  cases effect _ hst with
  | manager | buildHeartbeat | deliverHeartbeat | listen | deliverReport =>
    exact mem_work.2 (.inr ⟨a, ha, hc⟩)
  | join =>
    rcases agents_setAgent ha with ⟨-, rfl⟩ | ha
    · cases hc
    · exact mem_work.2 (.inr ⟨a, ha, hc⟩)
  | takeCommand hagent hcommand =>
    rcases agents_setAgent ha with ⟨rfl, rfl⟩ | ha
    · obtain ⟨rest, hq, -⟩ := Manager.takeCommand_eq_some hcommand
      rcases List.mem_append.1 hc with hc | hc
      · rcases List.mem_append.1 hc with hc | hc
        · exact mem_work.2 (.inr ⟨_, hagent, List.mem_append_left _ hc⟩)
        · obtain rfl := List.mem_singleton.1 hc
          exact mem_work.2 (.inl ⟨_, hq, List.mem_cons_self⟩)
      · exact mem_work.2 (.inr ⟨_, hagent, List.mem_append_right _ hc⟩)
    · exact mem_work.2 (.inr ⟨a, ha, hc⟩)
  | receive hagent hrec => exact hsub ha hagent (Agent.work_receive hrec)
  | disconnect hagent => exact hsub ha hagent (Agent.work_disconnect _)
  | exit hagent hexit => exact hsub ha hagent (Agent.work_exit hexit)
  | logStep hagent hlog => exact hsub ha hagent (Agent.work_logStep hlog)

/-- **What a node has to do after a move** it had to do before, or the move dispatches it. -/
theorem work_step {mv : Move} (hst : (lts (.serial cfg)).step w mv w') {n : String} {c : Command}
    (hc : c ∈ w'.work n) : c ∈ w.work n ∨
      ∃ l nodes, label w mv = some l ∧
        w.manager.dispatches cfg l = some (c.commandId.jobId, nodes) ∧ n ∈ nodes ∧
        c.commandId.dispatch = dispatchesIn w'.manager.history c.commandId.jobId := by
  rcases mem_work.1 hc with ⟨q, hq, hc⟩ | ⟨a, ha, hc⟩
  · -- an undelivered command: only the manager puts commands into the queues
    cases hl : label w mv with
    | none =>
      rw [(projection (.serial cfg)).quiet hst hl] at hq
      exact .inl (mem_work.2 (.inl ⟨q, hq, hc⟩))
    | some l =>
      have hx := (projection (.serial cfg)).step hst hl
      rcases Manager.mem_commandQueues_perform hx hq hc with hold | ⟨nodes, hd, hn, hlatest, -⟩
      · exact .inl (mem_work.2 (.inl hold))
      · exact .inr ⟨l, nodes, rfl, hd, hn, hlatest⟩
  · exact .inl (work_agent_step hst ha hc)

/-! ### Where the work is -/

/-- What is left of the latest dispatch of a job is on nodes of its row; the rest is older. -/
def Placed (w : World Manager) : Prop :=
  ∀ n, ∀ c ∈ w.work n,
    c.commandId.dispatch ≤ dispatchesIn w.manager.history c.commandId.jobId ∧
    ∃ row, w.manager.registry.getJob c.commandId.jobId = some row ∧
      (c.commandId.dispatch = dispatchesIn w.manager.history c.commandId.jobId →
        n ∈ row.assignedNodes)

/-- What is left stays where it is: only a dispatch assigns nodes to a job, and then all that is
left of the job is older. -/
theorem placed_old (h : w.Placed) {mv : Move} (hst : (lts (.serial cfg)).step w mv w') {n : String}
    {c : Command} (hc : c ∈ w.work n) :
    c.commandId.dispatch ≤ dispatchesIn w'.manager.history c.commandId.jobId ∧
    ∃ row, w'.manager.registry.getJob c.commandId.jobId = some row ∧
      (c.commandId.dispatch = dispatchesIn w'.manager.history c.commandId.jobId →
        n ∈ row.assignedNodes) := by
  have P := projection (.serial cfg)
  obtain ⟨hle, row, hrow, hmem⟩ := h n c hc
  cases hl : label w mv with
  | none =>
    rw [P.quiet hst hl]
    exact ⟨hle, row, hrow, hmem⟩
  | some l =>
    have hx := P.step hst hl
    have hcount := Manager.dispatchesIn_perform hx c.commandId.jobId
    obtain ⟨row', hrow', heff⟩ := Manager.rowEffect hx hrow
    refine ⟨by omega, row', hrow', fun heq => ?_⟩
    have hmem' : n ∈ row.assignedNodes := hmem (by omega)
    cases heff with
    | same | requeued | failed | completed => exact hmem'
    | dispatched nodes now hd =>
      -- there is a later dispatch now, so nothing old is of the latest one
      have hid := Registry.jobId_of_getJob hrow
      simp only [hd, hid, Option.any_some, decide_true, if_true] at hcount
      omega

theorem placed_new {m m' : Manager} {l : Label} (hs : m.Sound) (hx : m.perform cfg l = some m')
    {c : Command} {nodes : List String}
    (hd : m.dispatches cfg l = some (c.commandId.jobId, nodes)) :
    ∃ row, m'.registry.getJob c.commandId.jobId = some row ∧ row.assignedNodes = nodes := by
  obtain ⟨⟨e, he, hid⟩, now, hl⟩ := Manager.mem_queue_of_dispatches hd
  obtain ⟨row, hrow⟩ := hs.1.queue e he
  rw [hid] at hrow
  obtain ⟨row', hrow', heff⟩ := Manager.rowEffect hx hrow
  have hid : row.jobId = c.commandId.jobId := Registry.jobId_of_getJob hrow
  refine ⟨row', hrow', ?_⟩
  cases heff with
  | same hdisp => exact absurd hd (hid ▸ hdisp nodes)
  | requeued hmem => rw [hl] at hmem; cases hmem
  | failed _ hnone => rw [hd] at hnone; cases hnone
  | completed _ _ hreport => rw [hl] at hreport; cases hreport
  | dispatched nodes' _ hd' =>
    rw [hd] at hd'
    exact (Prod.mk.inj (Option.some.inj hd')).2.symm

/-- **In every run** the work for the latest dispatch of a job is on the nodes of its row. -/
theorem placed_step (hs : w.manager.Sound) (h : w.Placed) {mv : Move}
    (hst : (lts (.serial cfg)).step w mv w') : w'.Placed := by
  intro n c hc
  rcases work_step hst hc with hc | ⟨l, nodes, hl, hd, hn, hlatest⟩
  · exact placed_old h hst hc
  · obtain ⟨row, hrow, hnodes⟩ := placed_new hs ((projection (.serial cfg)).step hst hl) hd
    exact ⟨hlatest.le, row, hrow, fun _ => hnodes ▸ hn⟩

/-! ### One attempt -/

/-- All that is left of a job, alive or undelivered, belongs to its latest dispatch. -/
def SingleAttempt (w : World Manager) : Prop :=
  ∀ n, ∀ c ∈ w.work n,
    c.commandId.dispatch = dispatchesIn w.manager.history c.commandId.jobId

/-- A job is queued again, after a failure or by the monitor, only if it is not queued already and
none of its nodes has a command or a process of it left. -/
def RequeuesOver (cfg : Setup) (w : World Manager) (mv : Move) : Prop :=
  ∀ l ∈ label w mv, ∀ j ∈ w.manager.requeues cfg l, j ∉ w.manager.queue.map JobDict.jobId ∧
    ∀ row ∈ w.manager.registry.getJob j, ∀ n ∈ row.assignedNodes, ∀ c ∈ w.work n,
      c.commandId.jobId ≠ j

instance (cfg : Setup) (w : World Manager) (mv : Move) : Decidable (RequeuesOver cfg w mv) :=
  inferInstanceAs (Decidable (∀ l ∈ label w mv, ∀ j ∈ w.manager.requeues cfg l,
    j ∉ w.manager.queue.map JobDict.jobId ∧ ∀ row ∈ w.manager.registry.getJob j,
      ∀ n ∈ row.assignedNodes, ∀ c ∈ w.work n, c.commandId.jobId ≠ j))

/-- Something is left of dispatch `d` of job `j`. -/
def Left (w : World Manager) (j : String) (d : ℕ) : Prop :=
  ∃ n, ∃ c ∈ w.work n, c.commandId.jobId = j ∧ c.commandId.dispatch = d

/-- The invariant of the runs in which no job is queued again too early. -/
structure OneAttempt (w : World Manager) : Prop where
  sound : w.manager.Sound
  placed : w.Placed
  sole : (w.manager.ledger 0).SoleUse w.Left

/-- Where nothing is left on the nodes of its row, nothing is left of the job. -/
theorem OneAttempt.not_left (h : w.OneAttempt) {j : String}
    (hrow : ∀ row ∈ w.manager.registry.getJob j, ∀ n ∈ row.assignedNodes, ∀ c ∈ w.work n,
      c.commandId.jobId ≠ j) (d : ℕ) : ¬ w.Left j d := by
  rintro ⟨n, c, hc, rfl, rfl⟩
  obtain ⟨-, row, hget, hmem⟩ := h.placed n c hc
  exact hrow row hget n (hmem (h.sole.latest _ _ ⟨n, c, hc, rfl, rfl⟩)) c hc rfl

end World

namespace Manager

variable {cfg : Setup} {m m' : Manager} {l : Label} {left left' : String → ℕ → Prop}

theorem serialAct_of_dispatches {d : String × List String} (h : m.dispatches cfg l = some d) :
    m.serialAct cfg l = .use d.1 := by
  obtain ⟨-, now, rfl⟩ := mem_queue_of_dispatches h
  simp only [serialAct, h, Option.map_some, Option.getD_some]

theorem retriesOver_serialAct
    (hG : ∀ j ∈ m.requeues cfg l, j ∉ m.queue.map JobDict.jobId ∧ ∀ d, ¬ left j d) :
    (m.ledger 0).RetriesOver left (m.serialAct cfg l) := by
  cases l with
  | reportJobStatus req now =>
    rw [serialAct, reportAct]
    cases hj : m.registry.getJob req.jobId with
    | none => trivial
    | some job =>
      dsimp only
      split_ifs with hf hlt
      · have hmem : job.jobId ∈ m.requeues cfg (.reportJobStatus req now) := by
          simp [requeues, hf, hj, hlt]
        obtain ⟨hq, hleft⟩ := hG _ hmem
        exact ⟨by simpa [ledger] using hq, hleft⟩
      · trivial
      · trivial
      · trivial
  | schedulerPass now =>
    rw [serialAct]
    cases m.dispatches cfg (.schedulerPass now) <;> trivial
  | registerNode | sendHeartbeat | listenForCommands | takeCommand | submitJob | monitorPass
    | probe | restart | runTask => trivial

theorem soleUse_monitorPass {now : Time} (h : (m.ledger 0).SoleUse left)
    (hG : ∀ j ∈ m.requeues cfg (.monitorPass now),
      j ∉ m.queue.map JobDict.jobId ∧ ∀ d, ¬ left j d) :
    ((m.monitorPass cfg now).ledger 0).SoleUse left := by
  refine ledger_monitorPass h fun L job hjob hL _ hcount hen =>
    Ledger.soleUse_step hL hen ?_ fun _ _ hd => .inl hd
  unfold Task.act
  dsimp only
  split_ifs with hlost hlt
  · have hmem : job.jobId ∈ m.requeues cfg (.monitorPass now) := by
      refine List.mem_map.2 ⟨job.toDict.retried, List.mem_map_of_mem ?_, rfl⟩
      exact List.mem_filter.2 ⟨hjob, by simp [hlost, hlt]⟩
    obtain ⟨hq, hleft⟩ := hG _ hmem
    refine ⟨Multiset.count_eq_zero.1 (hcount.trans (Multiset.count_eq_zero.2 ?_)), hleft⟩
    simpa [ledger] using hq
  · trivial
  · trivial

/-- **A handler or pass** that queues no job too early leaves nothing of an earlier dispatch. -/
theorem soleUse_perform (hs : m.Sound) (h : (m.ledger 0).SoleUse left)
    (hst : m.perform cfg l = some m')
    (hG : ∀ j ∈ m.requeues cfg l, j ∉ m.queue.map JobDict.jobId ∧ ∀ d, ¬ left j d)
    (hleft : ∀ j d, left' j d → left j d ∨
      ∃ nodes, m.dispatches cfg l = some (j, nodes) ∧ d = dispatchesIn m'.history j) :
    (m'.ledger 0).SoleUse left' := by
  by_cases hl : ∃ now, l = .monitorPass now
  · obtain ⟨now, rfl⟩ := hl
    obtain rfl := Option.some.inj hst
    refine (soleUse_monitorPass h hG).mono fun j d hd => (hleft j d hd).resolve_right ?_
    rintro ⟨nodes, hd, -⟩
    cases hd
  · obtain ⟨hen, happ⟩ := ledger_perform hs.1 hst fun now h => hl ⟨now, h⟩
    rw [happ]
    refine Ledger.soleUse_step h hen (retriesOver_serialAct hG) fun j d hd => ?_
    refine (hleft j d hd).imp_right ?_
    rintro ⟨nodes, hdisp, rfl⟩
    refine ⟨serialAct_of_dispatches hdisp, ?_⟩
    rw [dispatchesIn_perform hst, hdisp]
    simp [ledger]

end Manager

namespace World

variable {cfg : Setup} {w w' : World Manager} {reg : Registry}

/-- **One move** that queues no job too early keeps the invariant. -/
theorem preserves_oneAttempt :
    ((lts (.serial cfg)).restrict (RequeuesOver cfg)).Preserves OneAttempt := by
  rintro w mv w' ⟨hG, hst⟩ h
  have P := projection (.serial cfg)
  refine ⟨P.preserves Manager.preserves_sound hst h.sound, placed_step h.sound h.placed hst, ?_⟩
  cases hl : label w mv with
  | none =>
    rw [P.quiet hst hl]
    refine h.sole.mono ?_
    rintro j d ⟨n, c, hc, hj, hd⟩
    rcases work_step hst hc with hc | ⟨l, nodes, hl', -⟩
    · exact ⟨n, c, hc, hj, hd⟩
    · rw [hl] at hl'
      cases hl'
  | some l =>
    refine Manager.soleUse_perform h.sound h.sole (P.step hst hl) (fun j hj => ?_) ?_
    · obtain ⟨hq, hrow⟩ := hG l hl j hj
      exact ⟨hq, h.not_left hrow⟩
    · rintro j d ⟨n, c, hc, rfl, rfl⟩
      rcases work_step hst hc with hc | ⟨l', nodes, hl', hd, -, hlatest⟩
      · exact .inl ⟨n, c, hc, rfl, rfl⟩
      · obtain rfl := Option.some.inj (hl.symm.trans hl')
        exact .inr ⟨nodes, hd, hlatest⟩

theorem oneAttempt_start (reg : Registry) : (start (Manager.serve reg [])).OneAttempt := by
  have hempty : ∀ j d, ¬ (start (Manager.serve reg [])).Left j d := by
    rintro j d ⟨n, c, hc, -⟩
    cases hc
  refine ⟨Manager.sound_serve reg, (fun n c hc => by cases hc), ?_⟩
  obtain ⟨happ, hen⟩ := Manager.ledger_restart (m := Manager.serve reg []) (H := 0)
  rw [show (start (Manager.serve reg [])).manager.ledger 0 =
    ((Manager.serve reg []).ledger 0).apply (.restart (Manager.serve reg []).pendingIds) from happ]
  refine ⟨fun j d hd => absurd hd (hempty j d), fun j d hd => absurd hd (hempty j d),
    fun j d hd => absurd hd (hempty j d), fun j d hd => absurd hd (hempty j d),
    fun j hj => ?_, hen.1⟩
  obtain ⟨it, hit, -⟩ := (hen.2 j).1 hj
  exact ⟨it, hit⟩

/-- **There is never more than one attempt alive if no job is queued again too early.**  In every
run of the cluster in which a job is queued again, after a failure or by the monitor, only when
it is not queued already and its nodes have neither a command nor a live process of it left, all
processes that are alive and all commands that are undelivered belong to the latest dispatch of
their job. -/
theorem single_attempt {cfg : Setup} {reg : Registry} {w : World Manager}
    (h : ((lts (.serial cfg)).restrict (RequeuesOver cfg)).Reachable (start (.serve reg [])) w) :
    w.SingleAttempt := by
  intro n c hc
  exact (h.keeps preserves_oneAttempt (oneAttempt_start reg)).sole.latest _ _ ⟨n, c, hc, rfl, rfl⟩

/-- Both processes of a job have exited, one of them with a failure, before the failure is handled
and the job dispatched again. -/
theorem single_attempt_second :
    ∃ w : World Manager, dispatchesIn w.manager.history "job-1" = 2 ∧ w.SingleAttempt := by
  obtain ⟨w, hw, hp⟩ := LTS.exists_of_exec_restrict (exec (.serial Sample.setup))
    (RequeuesOver Sample.setup) (start (.serve .empty []))
    (Sample.launchTwo false ++ Sample.finish "node-1" 0 1 ++ Sample.finish "node-2" 0 0 ++
      [.deliverReport 0 110, .join "node-3" "secret-3" Sample.node 111,
        .manager (.schedulerPass 112)])
    (fun w => dispatchesIn w.manager.history "job-1" = 2) (by decide +kernel)
  exact ⟨w, of_decide_eq_true hp, single_attempt hw⟩

/-- One of the two nodes of a job fails, and the job is dispatched again, to the same node and a
third one, while the other node is still at work. -/
theorem single_attempt_fails :
    ¬ ∀ (cfg : Setup) (reg : Registry) (w : World Manager),
      (lts (.serial cfg)).Reachable (start (.serve reg [])) w → w.SingleAttempt := by
  intro hall
  obtain ⟨w, hw, hp⟩ := LTS.exists_of_exec (exec (.serial Sample.setup))
    (start (.serve .empty []))
    (Sample.launchTwo false ++ Sample.finish "node-1" 0 1 ++
      [.deliverReport 0 110, .join "node-3" "secret-3" Sample.node 111,
        .manager (.schedulerPass 112)])
    (fun w => (w.work "node-2").any fun c =>
      c.commandId.dispatch ≠ dispatchesIn w.manager.history c.commandId.jobId)
    (by decide +kernel)
  obtain ⟨c, hc, hne⟩ := List.any_eq_true.1 hp
  exact of_decide_eq_true hne (hall _ _ w hw "node-2" c hc)

end World

end Dmlf
