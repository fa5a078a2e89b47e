import Dmlf.Cluster.Allocation
import Dmlf.Jobs.Rendezvous

/-!
# Exclusive allocation of nodes, one call at a time

Between two calls of a handler or a pass other threads may run, so a node can be set idle after the
scheduler has reserved it and before its job is set `RUNNING`, and `ReportJobStatus` sets a node
idle before `retry_job` takes the job out of `RUNNING`.

* `Conf.SelectedFree` : the nodes that the scheduler holds work for no running job.
* `Conf.exclusive_step` : what each call does to the exclusion.
* `Conf.exclusive_iff_sparesNodes` : no node is given away twice, in any order of the calls, exactly
  as long as no call sets a working node idle and no job is started on an idle node.
-/

namespace Dmlf

namespace Registry

variable {reg reg' : Registry}

theorem tame_updateNodeState {s : NodeState} (hs : s ≠ .idle) (n : String) :
    reg.Tame (reg.updateNodeState n s) := by
  refine .of_map (fun r => if decide (r.nodeId = n) then { r with status := s } else r)
    (fun r hidle => ?_) (getNode_updateNodes _ _ _) fun _ hrow => hrow
  split_ifs at hidle
  · exact absurd hidle hs
  · exact hidle

theorem exclusive_start (hE : reg.Exclusive) {j : String} {nodes : List String}
    (hfree : ∀ n ∈ nodes, ∀ row ∈ reg.getJobs .running, n ∉ row.assignedNodes)
    (hjobs : ∀ row ∈ reg'.getJobs .running, row ∈ reg.getJobs .running ∨
      row.jobId = j ∧ row.assignedNodes = nodes)
    (hstarted : ∃ row ∈ reg'.getJobs .running, row.assignedNodes = nodes)
    (hnodes : reg'.nodes = reg.nodes) :
    reg'.Exclusive ↔ ∀ n ∈ nodes, ∀ r, reg.getNode n = some r → r.status ≠ .idle := by
  constructor
  · rintro hE' n hn r hr
    obtain ⟨row, hrow, rfl⟩ := hstarted
    exact noneIdle_iff.2 hE'.offered row hrow n hn r (by rw [getNode, hnodes]; exact hr)
  · intro hawake
    refine ⟨disjoint_start hE hfree hjobs, noneIdle_iff.1 fun row hrow n hn r hr => ?_⟩
    rw [getNode, hnodes] at hr
    rcases hjobs row hrow with hold | ⟨-, hnew⟩
    · exact noneIdle_iff.2 hE.offered row hold n hn r hr
    · exact hawake n (hnew ▸ hn) r hr

end Registry

namespace Task

variable {cfg : Setup} {now : Time} {m : Manager} {t : Task}

/-- The node that the next call sets idle. -/
def releases : Task → Option String
  | .retrySetIdle req _ | .closedSetIdle req => some req.nodeId
  | _ => none

theorem tame_step (h : t.releases = none) (hs : t.starts = none) :
    m.registry.Tame (t.step cfg now m).1.registry := by
  have hrun : (t.step cfg now m).1.registry.getJobs .running ⊆ m.registry.getJobs .running :=
    (running_step hs).1
  have hmark := m.registry.tame_markOfflineNodes now defaultTimeoutSeconds
  cases t with
  | registerQueue | submitAppend | retryWrite | retryAppend | failWrite | schedRequeue | monJobs
    | monAppend => exact .of_nodes_eq rfl hrun
  | retrySetIdle | closedSetIdle => cases h
  | schedSelect | monCount => exact hmark
  | schedReserve job nodes todo =>
    cases todo with
    | nil => cases hs
    | cons node todo => exact Registry.tame_updateNodeState (by rintro ⟨⟩) node.nodeId
  | schedSend job masterAddr todo =>
    cases todo with
    | nil => exact .refl _
    | cons x todo => exact .of_nodes_eq (congrArg Registry.nodes (m.sendCommand_keeps ..).1) hrun
  | monLoop offline jobs =>
    cases jobs with
    | nil => exact hmark
    | cons job jobs =>
      refine .of_nodes_eq ?_ hrun
      simp only [step]
      split_ifs <;> rfl

theorem registry_step_of_releases {n : String} (h : t.releases = some n) :
    (t.step cfg now m).1.registry = m.registry.updateNodeState n .idle := by
  cases t with
  | retrySetIdle req job =>
    obtain rfl := Option.some.inj h
    rfl
  | closedSetIdle req =>
    obtain rfl := Option.some.inj h
    simp only [step]
    split_ifs <;> rfl
  | registerQueue | submitAppend | retryWrite | retryAppend | failWrite | schedSelect | schedRequeue
    | schedReserve | schedSend | monJobs | monLoop | monAppend | monCount => cases h

end Task

namespace Conf

variable {cfg : Setup} {c c' : Conf} {l : Label}

/-- The node that the call sets idle. -/
def releases (c : Conf) : Label → Option String
  | .sendHeartbeat req _ => if req.currentStatus = "IDLE" then some req.nodeId else none
  | .runTask i _ => c.tasks[i]?.bind Task.releases
  | _ => none

/-- A node that is set idle works for no running job, and a job is set `RUNNING` only on nodes that
are not idle. -/
structure SparesNodes (c : Conf) (l : Label) : Prop where
  released : ∀ n ∈ c.releases l, ∀ row ∈ c.mgr.registry.getJobs .running, n ∉ row.assignedNodes
  started : ∀ x ∈ c.starts l, ∀ n ∈ x.2.map NodeRow.nodeId, ∀ r ∈ c.mgr.registry.getNode n,
    r.status ≠ .idle

/-- The nodes that the scheduler holds for a job work for no running job. -/
def SelectedFree (c : Conf) : Prop :=
  ∀ job nodes todo, .schedReserve job nodes todo ∈ c.tasks → ∀ n ∈ nodes.map NodeRow.nodeId,
    ∀ row ∈ c.mgr.registry.getJobs .running, n ∉ row.assignedNodes

/-- What holds of the jobs and the scheduler whether nodes are exclusive or not. -/
structure Placed (cfg : Setup) (c : Conf) : Prop where
  rendezvous : c.Rendezvous cfg []
  assigned : c.mgr.registry.AssignedKnown

theorem placed_start (cfg : Setup) : (start .empty).Placed cfg where
  rendezvous := rendezvous_start cfg .empty
  assigned := World.exclusive_empty.1

theorem Placed.selected (h : c.Placed cfg) {job : JobDict} {nodes todo : List NodeRow}
    (ht : .schedReserve job nodes todo ∈ c.tasks) {n : String}
    (hn : n ∈ nodes.map NodeRow.nodeId) : ∃ r, c.mgr.registry.getNode n = some r := by
  obtain ⟨node, hnode, rfl⟩ := List.mem_map.1 hn
  obtain ⟨r, hr, -⟩ := (h.rendezvous.tasks _ ht).2 node hnode
  exact ⟨r, hr⟩

theorem preserves_placed : (fine cfg).Preserves (Placed cfg) := by
  intro c l c' hst h
  have hrecorded : ((fine cfg).recorded (builtAfter cfg)).step (c, []) l
      (c', builtAfter cfg c [] l) := ⟨hst, rfl⟩
  have hnext := rendezvous_step hrecorded h.rendezvous
  refine ⟨⟨hnext.wellFormed, hnext.oneScheduler, hnext.tasks, List.forall_mem_nil _⟩,
    fun row hrow n hn => ?_⟩
  have hknown : ∃ r, c.mgr.registry.getNode n = some r := by
    rcases running_step hst hrow with ⟨hold, -⟩ | ⟨x, hx, -, hnodes⟩
    · exact h.assigned row hold n hn
    · obtain ⟨i, now, -, hi, -⟩ := eq_of_starts hst hx
      exact h.selected (List.mem_of_getElem? hi) (hnodes ▸ hn)
  obtain ⟨r, hr⟩ := hknown
  obtain ⟨r', hr', -⟩ := keepsAddresses hst n r hr
  exact ⟨r', hr'⟩

/-- As long as nodes are exclusive, the scheduler holds free ones: they were offered to it, and
meanwhile no other job is started. -/
theorem selectedFree_step (hp : c.Placed cfg) (hE : c.mgr.registry.Exclusive)
    (hfree : c.SelectedFree) (hst : exec cfg c l = some c') : c'.SelectedFree := by
  intro job nodes todo ht n hn row hrow
  cases hl : c.starts l with
  | some x =>
    obtain ⟨i, now, -, hi, rfl⟩ := eq_of_starts hst hl
    rcases List.mem_append.1 ht with ht | ht
    · -- there is no other task of the scheduler
      cases others_of_countP_le hp.rendezvous.oneScheduler hi rfl _ ht
    · cases List.mem_singleton.1 ht
  | none =>
    have hold := (running_step_of_quiet hst hl).1 hrow
    have hafter := taskAfter hst ht
    generalize c'.mgr = m at hafter
    cases hafter with
    | kept ht => exact hfree job nodes todo ht n hn row hold
    | begun hbegun => cases hbegun
    | next hi hm hnext =>
      cases Task.next_of_step hnext with
      | selected _ _ hnodes =>
        obtain ⟨node, hnode, rfl⟩ := List.mem_map.1 hn
        rw [hnodes] at hnode
        exact hE.offered _ node (mem_of_mem_allocate hnode) row hold
      | reserved _ _ node _ =>
        exact hfree job nodes (node :: todo) (List.mem_of_getElem? hi) n hn row hold

theorem exclusive_start (hp : c.Placed cfg) (hE : c.mgr.registry.Exclusive)
    (hfree : c.SelectedFree) (hst : exec cfg c l = some c') {x : JobDict × List NodeRow}
    (hl : c.starts l = some x) : c'.mgr.registry.Exclusive ↔
      ∀ n ∈ x.2.map NodeRow.nodeId, ∀ r ∈ c.mgr.registry.getNode n, r.status ≠ .idle := by
  have hrun : ∀ row ∈ c'.mgr.registry.getJobs .running, row ∈ c.mgr.registry.getJobs .running ∨
      row.jobId = x.1.jobId ∧ row.assignedNodes = x.2.map NodeRow.nodeId := by
    intro row hrow
    rcases running_step hst hrow with ⟨hold, -⟩ | ⟨x', hx', hid, hnodes⟩
    · exact .inl hold
    · obtain rfl : x = x' := Option.some.inj (hl.symm.trans hx')
      exact .inr ⟨hid.symm, hnodes⟩
  obtain ⟨i, now, -, hi, rfl⟩ := eq_of_starts hst hl
  have ht := List.mem_of_getElem? hi
  obtain ⟨row, hrow⟩ := hp.rendezvous.wellFormed.tasks _ ht
  refine Registry.exclusive_start hE (hfree x.1 x.2 [] ht) hrun
    ⟨row.withStatus .running (some (x.2.map NodeRow.nodeId)) none now, ?_, rfl⟩ rfl
  have hid : row.jobId = x.1.jobId := Registry.jobId_of_getJob hrow
  refine Registry.mem_getJobs.2 ⟨(Registry.getJob_updateJob ..).trans ?_, rfl⟩
  rw [JobRow.jobId_withStatus, if_pos hid, hrow]
  rfl

theorem tame_step (hst : exec cfg c l = some c') (hr : c.releases l = none)
    (hl : c.starts l = none) : c.mgr.registry.Tame c'.mgr.registry := by
  have hrun := (running_step_of_quiet hst hl).1
  cases call hst with
  | first hbegun =>
    cases hbegun with
    | registerNode hnew => exact Manager.tame_registerNode hnew
    | @sendHeartbeat req now =>
      have hne : req.currentStatus ≠ "IDLE" := fun h => by simp [releases, h] at hr
      refine .of_map _ (fun r hidle => ?_) (Registry.getNode_updateHeartbeat _ _ _ _ _) hrun
      split_ifs at hidle with hid
      · exact absurd (NodeState.ofText_eq_idle.1 hidle) hne
      · exact hidle
    | submitJob hreg => exact .of_nodes_eq (Registry.nodes_insertJob hreg).1 hrun
    | probe => exact c.mgr.registry.tame_markOfflineNodes _ defaultTimeoutSeconds
    | listenForCommands | takeCommand | reportIgnored | reportRetry | reportFail | reportCompleted
      | noJob | popJob | noneOffline | someOffline => exact .of_nodes_eq rfl hrun
  | restart => exact .of_nodes_eq rfl hrun
  | next hi =>
    rw [releases, hi] at hr
    rw [starts, hi] at hl
    exact Task.tame_step hr hl

theorem exclusive_release (hp : c.Placed cfg) (hE : c.mgr.registry.Exclusive)
    (hst : exec cfg c l = some c') {n : String} (hr : c.releases l = some n) :
    c'.mgr.registry.Exclusive ↔
      ∀ row ∈ c.mgr.registry.getJobs .running, n ∉ row.assignedNodes := by
  cases call hst with
  | first hbegun =>
    cases hbegun with
    | @sendHeartbeat req now =>
      obtain ⟨hidle, hid⟩ := Option.ite_none_right_eq_some.1 hr
      obtain rfl := Option.some.inj hid
      exact (Registry.exclusive_updateHeartbeat hp.assigned hE _ _ _ _ _).trans
        ⟨fun h => h hidle, fun h _ => h⟩
    | registerNode | listenForCommands | takeCommand | reportIgnored | reportRetry | reportFail
      | reportCompleted | submitJob | noJob | popJob | noneOffline | someOffline | probe => cases hr
  | restart => cases hr
  | @next i now t hi =>
    rw [releases, hi] at hr
    have hreg : (c.resume i (t.step cfg now c.mgr)).mgr.registry =
        c.mgr.registry.updateNodeState n .idle := Task.registry_step_of_releases hr
    rw [hreg]
    exact Registry.exclusive_setIdle hp.assigned hE (fun _ hrow => hrow) fun _ => rfl

/-- **One call** keeps nodes exclusive exactly if it spares the working ones. -/
theorem exclusive_step (hp : c.Placed cfg) (hE : c.mgr.registry.Exclusive)
    (hfree : c.SelectedFree) (hst : exec cfg c l = some c') :
    c'.mgr.registry.Exclusive ↔ c.SparesNodes l := by
  cases hl : c.starts l with
  | some x =>
    have hr : c.releases l = none := by
      obtain ⟨i, now, rfl, hi, -⟩ := eq_of_starts hst hl
      rw [releases, hi]
      rfl
    rw [exclusive_start hp hE hfree hst hl]
    refine ⟨fun h => ⟨by simp [hr], fun x' hx' => ?_⟩, fun h => h.started x hl⟩
    obtain rfl : x = x' := Option.some.inj (hl.symm.trans hx')
    exact h
  | none =>
    cases hr : c.releases l with
    | none =>
      have htame := tame_step hst hr hl
      exact iff_of_true (hE.of_tame htame hp.assigned) ⟨by simp [hr], by simp [hl]⟩
    | some n =>
      rw [exclusive_release hp hE hst hr]
      refine ⟨fun h => ⟨fun n' hn' => ?_, by simp [hl]⟩, fun h => h.released n hr⟩
      obtain rfl : n = n' := Option.some.inj (hr.symm.trans hn')
      exact h

/-- **No double allocation, in any order of the calls, exactly if working nodes are not set idle.**
In all states of a run of the interleaved manager no node is assigned to two running jobs, and none
of a running job is offered, if and only if every call that sets a node idle (a heartbeat that says
`IDLE`, or `ReportJobStatus` before a retry or after it has closed a row) finds it working for no
running job, and none of the nodes of a job is idle when it is set `RUNNING`. -/
theorem exclusive_iff_sparesNodes {tr : List (Label × Conf)}
    (h : (fine cfg).Run (start .empty) tr) :
    LTS.StatesMeet (fun c => c.mgr.registry.Exclusive) (start .empty) tr ↔
      LTS.StepsMeet SparesNodes (start .empty) tr := by
  have hfree : (start .empty).SelectedFree := fun _ _ _ ht => absurd ht List.not_mem_nil
  have hexact := h.statesMeet_iff_stepsMeet (K := Placed cfg)
    (I := fun c => c.mgr.registry.Exclusive ∧ c.SelectedFree) (G := SparesNodes) preserves_placed
    (fun c l c' hp hI hst => by
      rw [← exclusive_step hp hI.1 hI.2 hst]
      exact and_iff_left (selectedFree_step hp hI.1 hI.2 hst))
    (placed_start cfg) ⟨World.exclusive_empty.2, hfree⟩
  rw [← hexact]
  constructor
  · exact h.statesMeet_and preserves_placed
      (fun _ _ _ hp hE hfree hst _ => selectedFree_step hp hE hfree hst) (placed_start cfg) hfree
  · exact h.statesMeet_imp preserves_placed (fun _ _ hI => hI.1) (placed_start cfg)

instance (c : Conf) (l : Label) : Decidable (c.SparesNodes l) :=
  decidable_of_iff
    ((∀ n ∈ c.releases l, ∀ row ∈ c.mgr.registry.getJobs .running, n ∉ row.assignedNodes) ∧
      ∀ x ∈ c.starts l, ∀ n ∈ x.2.map NodeRow.nodeId, ∀ r ∈ c.mgr.registry.getNode n,
        r.status ≠ .idle)
    ⟨fun h => ⟨h.1, h.2⟩, fun h => ⟨h.released, h.started⟩⟩

end Conf

namespace Sample

/-- A job for two nodes is dispatched, while a third node says that it is idle; the first of the two
completes it and joins in a second job. -/
def inTurn : List Label :=
  ["node-1", "node-2", "node-3"].flatMap (fun n =>
    [.registerNode n "secret" node 100, .runTask 0 100]) ++
  [.submitJob "job-1" (job 2 1) 101, .runTask 0 101, .schedulerPass 102, .runTask 0 102,
    .runTask 0 102, .sendHeartbeat ⟨"node-3", ⟨5, 20, 0, 0⟩, "IDLE", 102⟩ 102, .runTask 0 102,
    .runTask 0 102, .runTask 0 102, .runTask 0 102, .runTask 0 102,
    .submitJob "job-2" (job 2 1) 103, .runTask 0 103,
    .reportJobStatus ⟨"node-1", "job-1", "completed"⟩ 104, .schedulerPass 104, .runTask 0 104,
    .runTask 0 105, .runTask 0 105, .runTask 0 105, .runTask 0 105]

end Sample

namespace Conf

theorem exclusive_iff_sparesNodes_inTurn :
    let tr := LTS.runOf (exec Sample.setup) (start .empty) Sample.inTurn
    (((LTS.last (start .empty) tr).mgr.registry.getJobs .running).map fun row =>
        (row.jobId, row.assignedNodes)) = [("job-2", ["node-1", "node-3"])] ∧
      LTS.StatesMeet (fun c => c.mgr.registry.Exclusive) (start .empty) tr :=
  ⟨by decide +kernel, (exclusive_iff_sparesNodes (LTS.run_runOf _ _ _)).2 (by decide +kernel)⟩

end Conf

end Dmlf
