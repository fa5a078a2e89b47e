import Dmlf.Manager.CommandQueues
import Dmlf.Manager.Outgoing

/-!
# Where the processes of a job meet

The `LAUNCH_JOB` commands of a dispatch carry the address that the top node had at its
registration, and the one port of the configuration.  Neither the allocator nor the dispatch
compares it with those of other jobs.

* `Registry.KeepsAddresses` : no call changes the address of a registered node.
* `Conf.rendezvous_step` : the commands of the current dispatch of a row name its first node.
* `Conf.endpoint_ne_iff` : two running jobs meet at different endpoints exactly if their first
  nodes have different addresses.
-/

namespace Dmlf

/-- `master_addr` and `master_port`. -/
def JobPayload.endpoint (payload : JobPayload) : String × ℤ :=
  (payload.masterAddr, payload.masterPort)

/-! ### Addresses -/

namespace Registry

variable {reg reg' : Registry}

/-- The nodes that are registered stay so, with their addresses. -/
def KeepsAddresses (reg reg' : Registry) : Prop :=
  ∀ n r, reg.getNode n = some r → ∃ r', reg'.getNode n = some r' ∧ r'.ipAddress = r.ipAddress

theorem KeepsAddresses.of_nodes_eq (h : reg'.nodes = reg.nodes) : reg.KeepsAddresses reg' := by
  intro n r hr
  exact ⟨r, by rw [getNode, h]; exact hr, rfl⟩

theorem keepsAddresses_updateNodes (p : NodeRow → Bool) {f : NodeRow → NodeRow} (hf)
    (hip : ∀ r, (f r).ipAddress = r.ipAddress) :
    reg.KeepsAddresses (reg.updateNodes p f hf) := by
  intro n r hr
  refine ⟨if p r then f r else r, by rw [getNode_updateNodes, hr]; rfl, ?_⟩
  split_ifs
  · exact hip r
  · rfl

theorem keepsAddresses_markOfflineNodes (now : Time) (timeout : ℚ) :
    reg.KeepsAddresses (reg.markOfflineNodes now timeout) :=
  keepsAddresses_updateNodes _ _ fun _ => rfl

theorem keepsAddresses_updateHeartbeat (n s metrics latency now) :
    reg.KeepsAddresses (reg.updateHeartbeat n s metrics latency now) := by
  intro n' r hr
  refine ⟨_, by rw [getNode_updateHeartbeat, hr]; rfl, ?_⟩
  dsimp only
  split_ifs <;> rfl

theorem keepsAddresses_registerNode {n : String} (hnew : (reg.getNode n).isNone) (h ip c g ram sec
    now) : reg.KeepsAddresses (reg.registerNode n h ip c g ram sec now) := by
  intro n' r hr
  refine ⟨r, ?_, rfl⟩
  rw [getNode_registerNode, if_neg, hr]
  rintro rfl
  rw [hr] at hnew
  cases hnew

/-- The first node of the row is registered with this address. -/
def MasterOf (reg : Registry) (row : JobRow) (masterAddr : String) : Prop :=
  ∃ n r, row.assignedNodes.head? = some n ∧ reg.getNode n = some r ∧ r.ipAddress = masterAddr

theorem MasterOf.mono {row row' : JobRow} {masterAddr : String} (h : reg.MasterOf row masterAddr)
    (hnodes : row'.assignedNodes = row.assignedNodes) (hip : reg.KeepsAddresses reg') :
    reg'.MasterOf row' masterAddr := by
  obtain ⟨n, r, hn, hr, rfl⟩ := h
  obtain ⟨r', hr', heq⟩ := hip n r hr
  exact ⟨n, r', hnodes ▸ hn, hr', heq⟩

end Registry

namespace Task

variable {cfg : Setup} {m : Manager} {now : Time} {t : Task}

theorem keepsAddresses_step (cfg : Setup) (now : Time) (m : Manager) (t : Task) :
    m.registry.KeepsAddresses (t.step cfg now m).1.registry := by
  have hset : ∀ n s, m.registry.KeepsAddresses (m.updateNodeState n s).registry := fun n s =>
    Registry.keepsAddresses_updateNodes _ _ fun _ => rfl
  cases t with
  | registerQueue | submitAppend | retryWrite | retryAppend | failWrite | schedRequeue | monJobs
    | monAppend => exact .of_nodes_eq rfl
  | retrySetIdle req job => exact hset req.nodeId .idle
  | closedSetIdle req =>
    simp only [step]
    split_ifs <;> exact hset req.nodeId .idle
  | schedSelect job => exact Registry.keepsAddresses_markOfflineNodes now defaultTimeoutSeconds
  | schedReserve job nodes todo =>
    cases todo with
    | nil => exact .of_nodes_eq rfl
    | cons node todo => exact hset node.nodeId .reserved
  | schedSend job masterAddr todo =>
    cases todo with
    | nil => exact .of_nodes_eq rfl
    | cons x todo =>
      refine .of_nodes_eq ?_
      simp only [step, (m.sendCommand_keeps x.1.nodeId _).1]
  | monLoop offline jobs =>
    cases jobs with
    | nil => exact Registry.keepsAddresses_markOfflineNodes now defaultTimeoutSeconds
    | cons job jobs =>
      simp only [step]
      split_ifs <;> exact .of_nodes_eq rfl
  | monCount => exact Registry.keepsAddresses_markOfflineNodes now defaultTimeoutSeconds

theorem assignedNodes_step (h : t.starts = none) {j : String} {row : JobRow}
    (hrow : m.registry.getJob j = some row) :
    ∃ row', (t.step cfg now m).1.registry.getJob j = some row' ∧
      row'.assignedNodes = row.assignedNodes := by
  have hupd : ∀ {k f} (hf : ∀ r : JobRow, (f r).jobId = r.jobId)
      (_ : ∀ r, (f r).assignedNodes = r.assignedNodes), ∃ row',
      (m.registry.updateJob k f hf).getJob j = some row' ∧
        row'.assignedNodes = row.assignedNodes :=
    fun hf hkeep => Registry.keeps_updateJob _ hf hkeep hrow
  cases writes_step cfg now m t with
  | none hj => exact ⟨row, by rw [Registry.getJob, hj]; exact hrow, rfl⟩
  | retry job hj =>
    rw [Registry.getJob, hj]
    exact hupd _ fun _ => rfl
  | fail jobId now' hj =>
    rw [Registry.getJob, hj]
    exact hupd _ fun _ => rfl
  | start job nodes now' ht =>
    rw [ht] at h
    cases h

/-- What a task of the scheduler knows of the master of its job: the nodes it has read are
registered with these addresses, and the address it sends is that of the first node of the row. -/
def KnowsMaster (reg : Registry) : Task → Prop
  | .schedReserve _ nodes _ => nodes ≠ [] ∧
    ∀ node ∈ nodes, ∃ r, reg.getNode node.nodeId = some r ∧ r.ipAddress = node.ipAddress
  | .schedSend job masterAddr _ =>
    ∃ row, reg.getJob job.jobId = some row ∧ reg.MasterOf row masterAddr
  | _ => True

theorem knowsMaster_of_not_scheduler {reg : Registry} (h : t.isScheduler = false) :
    t.KnowsMaster reg := by
  cases t with
  | schedReserve | schedSend => cases h
  | _ => trivial

theorem KnowsMaster.mono {reg reg' : Registry} (h : t.KnowsMaster reg)
    (hip : reg.KeepsAddresses reg') (hrow : ∀ j row, reg.getJob j = some row →
      ∃ row', reg'.getJob j = some row' ∧ row'.assignedNodes = row.assignedNodes) :
    t.KnowsMaster reg' := by
  cases t with
  | schedReserve job nodes todo =>
    refine ⟨h.1, fun node hnode => ?_⟩
    obtain ⟨r, hr, heq⟩ := h.2 node hnode
    obtain ⟨r', hr', heq'⟩ := hip _ r hr
    exact ⟨r', hr', heq'.trans heq⟩
  | schedSend job masterAddr todo =>
    obtain ⟨row, hget, hmaster⟩ := h
    obtain ⟨row', hget', hnodes⟩ := hrow _ row hget
    exact ⟨row', hget', hmaster.mono hnodes hip⟩
  | _ => trivial

theorem knowsMaster_step {t' : Task} (h : t.KnowsMaster m.registry) (hs : t.starts = none)
    (ht : (t.step cfg now m).2 = some t') : t'.KnowsMaster (t.step cfg now m).1.registry := by
  have hip := keepsAddresses_step cfg now m t
  have hrow : ∀ j row, m.registry.getJob j = some row →
      ∃ row', (t.step cfg now m).1.registry.getJob j = some row' ∧
        row'.assignedNodes = row.assignedNodes := fun j row hget => assignedNodes_step hs hget
  cases next_of_step ht with
  | retryWrite | retryAppend | failed | tooFew | monLoop | lost | passed | marked | appended =>
    trivial
  | selected job nodes hnodes hne =>
    refine ⟨hne, fun node hnode => ?_⟩
    rw [hnodes] at hnode
    exact ⟨node, (Registry.mem_getAvailableNodes.1 (mem_of_mem_allocate hnode)).1, rfl⟩
  | reserved job nodes node todo =>
    exact KnowsMaster.mono (t := .schedReserve job nodes todo) h hip hrow
  | started => cases hs
  | sent job masterAddr x todo =>
    exact KnowsMaster.mono (t := .schedSend job masterAddr todo) h hip hrow

end Task

namespace Conf

variable {cfg : Setup} {c c' : Conf} {l : Label} {built : List Command}

theorem keepsAddresses (hst : exec cfg c l = some c') :
    c.mgr.registry.KeepsAddresses c'.mgr.registry := by
  cases call hst with
  | first hbegun =>
    cases hbegun with
    | registerNode hnew => exact Registry.keepsAddresses_registerNode hnew _ _ _ _ _ _ _
    | @sendHeartbeat req now => exact Registry.keepsAddresses_updateHeartbeat _ _ _ _ _
    | @probe now => exact Registry.keepsAddresses_markOfflineNodes now defaultTimeoutSeconds
    | submitJob hreg => exact .of_nodes_eq (Registry.nodes_insertJob hreg).1
    | listenForCommands | takeCommand | reportIgnored | reportRetry | reportFail | reportCompleted
      | noJob | popJob | noneOffline | someOffline => exact .of_nodes_eq rfl
  | restart => exact .of_nodes_eq rfl
  | next => exact Task.keepsAddresses_step _ _ _ _

theorem assignedNodes_step (hst : exec cfg c l = some c') (hl : c.starts l = none) {j : String}
    {row : JobRow} (hrow : c.mgr.registry.getJob j = some row) :
    ∃ row', c'.mgr.registry.getJob j = some row' ∧ row'.assignedNodes = row.assignedNodes := by
  cases call hst with
  | first hbegun =>
    cases hbegun with
    | registerNode =>
      refine ⟨row, ?_, rfl⟩
      rw [Registry.getJob, spawn, Manager.insertNode, Manager.registry_setRegistry,
        Registry.jobs_registerNode]
      exact hrow
    | submitJob hreg => exact ⟨row, Registry.getJob_insertJob_of_some hreg hrow, rfl⟩
    | @reportCompleted req now =>
      have hid := JobRow.jobId_withStatus .completed none (some 0) now
      exact Registry.keeps_updateJob req.jobId hid (fun _ => rfl) hrow
    | sendHeartbeat | listenForCommands | takeCommand | reportIgnored | reportRetry | reportFail
      | noJob | popJob | noneOffline | someOffline | probe => exact ⟨row, hrow, rfl⟩
  | restart => exact ⟨row, hrow, rfl⟩
  | next hi =>
    rw [starts, hi] at hl
    exact Task.assignedNodes_step hl hrow

theorem sends_eq_some {x : String × Command} (h : c.sends cfg l = some x) :
    Builds cfg c x.2 := by
  cases l with
  | runTask i now =>
    simp only [sends] at h
    split at h
    · rename_i job masterAddr node rank todo hi
      obtain rfl := Option.some.inj h
      exact ⟨job, masterAddr, node, rank, todo, List.mem_of_getElem? hi, rfl⟩
    · cases h
  | _ => cases h

/-- The commands that have been built, with those of a call. -/
def builtAfter (cfg : Setup) (c : Conf) (built : List Command) (l : Label) : List Command :=
  built ++ (c.sends cfg l).toList.map Prod.snd

/-- A command that was built for a row: if it is of the latest dispatch, it names the first node
of the row and the port of the configuration. -/
structure Builds.Placed (cfg : Setup) (c : Conf) (command : Command) : Prop where
  id : command.commandId.jobId = command.jobPayload.jobId
  port : command.jobPayload.masterPort = cfg.masterPort
  past : command.commandId.dispatch ≤ dispatchesIn c.mgr.history command.commandId.jobId
  row : ∃ row, c.mgr.registry.getJob command.commandId.jobId = some row ∧
    (command.commandId.dispatch = dispatchesIn c.mgr.history command.commandId.jobId →
      c.mgr.registry.MasterOf row command.jobPayload.masterAddr)

/-- What is known of the commands that were built, and of those that will be. -/
structure Rendezvous (cfg : Setup) (c : Conf) (built : List Command) : Prop where
  wellFormed : c.WellFormed
  oneScheduler : c.OneScheduler
  tasks : ∀ t ∈ c.tasks, t.KnowsMaster c.mgr.registry
  built : ∀ command ∈ built, Builds.Placed cfg c command

theorem rendezvous_start (cfg : Setup) (reg : Registry) : (start reg).Rendezvous cfg [] where
  wellFormed := wellFormed_start reg
  oneScheduler := Nat.zero_le 1
  tasks := fun _ ht => absurd ht List.not_mem_nil
  built := fun _ hc => absurd hc List.not_mem_nil

theorem knowsMaster_step (hst : exec cfg c l = some c') (hl : c.starts l = none)
    (h : ∀ t ∈ c.tasks, t.KnowsMaster c.mgr.registry) :
    ∀ t ∈ c'.tasks, t.KnowsMaster c'.mgr.registry := by
  have hmono : ∀ t ∈ c.tasks, t.KnowsMaster c'.mgr.registry := fun t ht =>
    (h t ht).mono (keepsAddresses hst) fun _ _ hrow => assignedNodes_step hst hl hrow
  intro t ht
  have hafter := taskAfter hst ht
  have hmono' := hmono t
  generalize c'.mgr = m at hafter hmono'
  cases hafter with
  | kept ht => exact hmono' ht
  | begun hbegun => cases hbegun <;> trivial
  | next hi hm hnext =>
    rw [starts, hi] at hl
    exact hm ▸ Task.knowsMaster_step (h _ (List.mem_of_getElem? hi)) hl hnext

theorem placed_step (hst : exec cfg c l = some c') (hl : c.starts l = none)
    (h : c.Rendezvous cfg built) :
    ∀ command ∈ builtAfter cfg c built l, Builds.Placed cfg c' command := by
  have hip := keepsAddresses hst
  have hcount := (running_step_of_quiet hst hl).2
  have hold : ∀ command, Builds.Placed cfg c command → Builds.Placed cfg c' command := by
    rintro command ⟨hid, hport, hpast, row, hrow, hmaster⟩
    obtain ⟨row', hrow', hnodes⟩ := assignedNodes_step hst hl hrow
    refine ⟨hid, hport, by rwa [hcount], row', hrow', fun hlatest => ?_⟩
    rw [hcount] at hlatest
    exact (hmaster hlatest).mono hnodes hip
  intro command hc
  rcases List.mem_append.1 hc with hc | hc
  · exact hold command (h.built command hc)
  · obtain ⟨x, hx, rfl⟩ := List.mem_map.1 hc
    obtain ⟨job, masterAddr, node, rank, todo, hmem, heq⟩ :=
      sends_eq_some (l := l) (x := x) (by simpa using hx)
    obtain ⟨row, hrow, hmaster⟩ := h.tasks _ hmem
    rw [heq]
    exact hold _ ⟨rfl, rfl, le_rfl, row, hrow, fun _ => hmaster⟩

/-- A dispatch assigns the nodes that the scheduler has read, the first of which is the master. -/
theorem rendezvous_dispatch (hst : exec cfg c l = some c') {x : JobDict × List NodeRow}
    (hl : c.starts l = some x) (h : c.Rendezvous cfg built) :
    (∀ t ∈ c'.tasks, t.KnowsMaster c'.mgr.registry) ∧
      ∀ command ∈ built, Builds.Placed cfg c' command := by
  have hcount := dispatchesIn_step hst
  obtain ⟨i, now, rfl, hi, rfl⟩ := eq_of_starts hst hl
  have hmem := List.mem_of_getElem? hi
  obtain ⟨hne, hnodes⟩ := h.tasks _ hmem
  have hget : ∀ j, (c.resume i (c.mgr.startJob x.1 x.2 now, some (.schedSend x.1
      ((x.2.head?.map NodeRow.ipAddress).getD "") x.2.zipIdx))).mgr.registry.getJob j =
      if j = x.1.jobId then (c.mgr.registry.getJob x.1.jobId).map
        (JobRow.withStatus .running (some (x.2.map NodeRow.nodeId)) none now)
      else c.mgr.registry.getJob j := fun j => Registry.getJob_updateJob ..
  refine ⟨fun t ht => ?_, fun command hc => ?_⟩
  · rcases List.mem_append.1 ht with ht | ht
    · -- the other tasks are not of the scheduler
      exact Task.knowsMaster_of_not_scheduler (others_of_countP_le h.oneScheduler hi rfl t ht)
    · obtain rfl := List.mem_singleton.1 ht
      obtain ⟨row, hrow⟩ := h.wellFormed.tasks _ hmem
      obtain ⟨node, rest, hcons⟩ := List.exists_cons_of_ne_nil hne
      obtain ⟨r, hr, hip⟩ := hnodes node (hcons ▸ List.mem_cons_self)
      refine ⟨_, (hget _).trans (by rw [if_pos rfl, hrow]; rfl), node.nodeId, r, ?_, hr, ?_⟩
      · simp [JobRow.withStatus, hcons]
      · simp [hcons, hip]
  · obtain ⟨hid, hport, hpast, row, hrow, hmaster⟩ := h.built command hc
    by_cases hj : command.commandId.jobId = x.1.jobId
    · -- the dispatch is a later one
      have hnext := hcount command.commandId.jobId
      simp only [hl, Option.any_some, hj, decide_true, if_true] at hnext
      refine ⟨hid, hport, ?_, _, (hget _).trans (by rw [if_pos hj, ← hj, hrow]; rfl), ?_⟩
      · rw [hj] at hpast ⊢
        omega
      · intro hlatest
        rw [hj] at hpast hlatest
        omega
    · have hsame := hcount command.commandId.jobId
      simp only [hl, Option.any_some, Ne.symm hj, decide_false, Bool.false_eq_true, if_false,
        Nat.add_zero] at hsame
      refine ⟨hid, hport, by rwa [hsame], row, (hget _).trans (by rw [if_neg hj, hrow]), ?_⟩
      rw [hsame]
      exact fun hlatest => (hmaster hlatest).mono rfl (.of_nodes_eq rfl)

/-- **Every call keeps the rendezvous of the latest dispatches.** -/
theorem rendezvous_step :
    ((fine cfg).recorded (builtAfter cfg)).Preserves fun s => s.1.Rendezvous cfg s.2 := by
  rintro ⟨c, built⟩ l ⟨c', built'⟩ ⟨hst, rfl : built' = _⟩ h
  cases hl : c.starts l with
  | none =>
    exact ⟨h.wellFormed.step hst, oneScheduler_step h.oneScheduler hst,
      knowsMaster_step hst hl h.tasks, placed_step hst hl h⟩
  | some x =>
    obtain ⟨htasks, hbuilt⟩ := rendezvous_dispatch hst hl h
    refine ⟨h.wellFormed.step hst, oneScheduler_step h.oneScheduler hst, htasks, ?_⟩
    obtain ⟨i, now, rfl, hi, -⟩ := eq_of_starts hst hl
    have hnone : c.sends cfg (.runTask i now) = none := by simp only [sends, hi]
    rw [builtAfter, hnone]
    simpa using hbuilt

/-- A command of the latest dispatch of the row carries this endpoint. -/
def Carries (s : Conf × List Command) (row : JobRow) (endpoint : String × ℤ) : Prop :=
  ∃ command ∈ s.2, command.jobPayload.jobId = row.jobId ∧
    command.commandId.dispatch = dispatchesIn s.1.mgr.history row.jobId ∧
    command.jobPayload.endpoint = endpoint

/-- The endpoint of a row is the address of its first node, with the port of the configuration. -/
theorem Rendezvous.endpoint {s : Conf × List Command} (h : s.1.Rendezvous cfg s.2) {row : JobRow}
    (hrow : s.1.mgr.registry.getJob row.jobId = some row) {endpoint : String × ℤ}
    (he : Carries s row endpoint) : ∃ r, row.assignedNodes.head? = some r.nodeId ∧
      s.1.mgr.registry.getNode r.nodeId = some r ∧ endpoint = (r.ipAddress, cfg.masterPort) := by
  obtain ⟨command, hc, hj, hd, rfl⟩ := he
  obtain ⟨hid, hport, -, row', hrow', hmaster⟩ := h.built command hc
  have hj' : command.commandId.jobId = row.jobId := hid.trans hj
  rw [hj'] at hrow' hmaster
  obtain rfl := Option.some.inj (hrow.symm.trans hrow')
  obtain ⟨n, r, hn, hr, hip⟩ := hmaster hd
  obtain rfl := Registry.nodeId_of_getNode hr
  exact ⟨r, hn, hr, Prod.ext hip.symm hport⟩

/-- **Two running jobs without a common node meet at different endpoints** exactly if the nodes of
rank `0` have registered with different addresses. -/
theorem endpoint_ne_iff {reg : Registry} {s : Conf × List Command}
    (h : ((fine cfg).recorded (builtAfter cfg)).Reachable (start reg, []) s) {row₁ row₂ : JobRow}
    (h₁ : row₁ ∈ s.1.mgr.registry.getJobs .running)
    (h₂ : row₂ ∈ s.1.mgr.registry.getJobs .running)
    (hdisj : row₁.assignedNodes.Disjoint row₂.assignedNodes) {endpoint₁ endpoint₂ : String × ℤ}
    (he₁ : Carries s row₁ endpoint₁) (he₂ : Carries s row₂ endpoint₂) :
    ∃ r₁ r₂, row₁.assignedNodes.head? = some r₁.nodeId ∧
      row₂.assignedNodes.head? = some r₂.nodeId ∧ r₁.nodeId ≠ r₂.nodeId ∧
      s.1.mgr.registry.getNode r₁.nodeId = some r₁ ∧
      s.1.mgr.registry.getNode r₂.nodeId = some r₂ ∧
      (endpoint₁ ≠ endpoint₂ ↔ r₁.ipAddress ≠ r₂.ipAddress) := by
  have hinv : s.1.Rendezvous cfg s.2 := h.keeps rendezvous_step (rendezvous_start cfg reg)
  obtain ⟨r₁, hn₁, hr₁, rfl⟩ := hinv.endpoint (Registry.mem_getJobs.1 h₁).1 he₁
  obtain ⟨r₂, hn₂, hr₂, rfl⟩ := hinv.endpoint (Registry.mem_getJobs.1 h₂).1 he₂
  refine ⟨r₁, r₂, hn₁, hn₂, fun heq => ?_, hr₁, hr₂, ?_⟩
  · exact hdisj (List.mem_of_head? hn₁) (heq ▸ List.mem_of_head? hn₂)
  · rw [Ne, Prod.mk.injEq, and_iff_left rfl]

end Conf

namespace Sample

/-- Two nodes on one host, each with a job of its own. -/
def oneHost : List Label :=
  [.registerNode "node-1" "secret-1" node 100, .runTask 0 100,
    .registerNode "node-2" "secret-2" node 100, .runTask 0 100,
    .submitJob "job-1" (job 1 1) 101, .runTask 0 101, .submitJob "job-2" (job 1 1) 101,
    .runTask 0 101] ++
  .schedulerPass 102 :: List.replicate 5 (.runTask 0 102) ++
  .schedulerPass 104 :: List.replicate 5 (.runTask 0 104)

/-- The state after these calls, with the commands that were built. -/
def oneHostEnd : Conf × List Command :=
  LTS.last (.start .empty, []) (LTS.record (Conf.builtAfter setup) (.start .empty) []
    (LTS.runOf (Conf.exec setup) (.start .empty) oneHost))

/-- The job runs on this node only, and its command carries the address of `node`. -/
def meetsOn (s : Conf × List Command) (jobId nodeId : String) : Bool :=
  (s.1.mgr.registry.getJob jobId).any (fun row =>
    row.status = .running && row.assignedNodes = [nodeId]) &&
  s.2.any fun command => command.jobPayload.jobId = jobId &&
    command.commandId.dispatch = dispatchesIn s.1.mgr.history jobId &&
    command.jobPayload.endpoint = ("10.0.0.1", 29500)

theorem carries_of_meetsOn {s : Conf × List Command} (jobId nodeId : String)
    (h : meetsOn s jobId nodeId = true) :
    ∃ row ∈ s.1.mgr.registry.getJobs .running, row.jobId = jobId ∧ row.assignedNodes = [nodeId] ∧
      Conf.Carries s row ("10.0.0.1", 29500) := by
  simp only [meetsOn, Bool.and_eq_true, Option.any_eq_true, List.any_eq_true,
    decide_eq_true_eq] at h
  obtain ⟨⟨row, hrow, hrun, hnodes⟩, command, hc, ⟨hj, hd⟩, he⟩ := h
  obtain rfl := Registry.jobId_of_getJob hrow
  exact ⟨row, Registry.mem_getJobs.2 ⟨hrow, hrun⟩, rfl, hnodes, command, hc, hj, hd, he⟩

theorem reachable_oneHostEnd :
    ((Conf.fine setup).recorded (Conf.builtAfter setup)).Reachable (.start .empty, [])
      oneHostEnd :=
  ((LTS.run_runOf (Conf.exec setup) (.start .empty) oneHost).record
    (Conf.builtAfter setup) []).reachable

end Sample

namespace Conf

open Sample

theorem endpoint_ne_iff_oneHost : ∃ r₁ r₂,
    oneHostEnd.1.mgr.registry.getNode "node-1" = some r₁ ∧
      oneHostEnd.1.mgr.registry.getNode "node-2" = some r₂ ∧ r₁.ipAddress = r₂.ipAddress := by
  obtain ⟨row₁, h₁, -, hn₁, hc₁⟩ :=
    carries_of_meetsOn (s := oneHostEnd) "job-1" "node-1" (by decide +kernel)
  obtain ⟨row₂, h₂, -, hn₂, hc₂⟩ :=
    carries_of_meetsOn (s := oneHostEnd) "job-2" "node-2" (by decide +kernel)
  obtain ⟨r₁, r₂, hhead₁, hhead₂, -, hr₁, hr₂, hiff⟩ :=
    endpoint_ne_iff reachable_oneHostEnd h₁ h₂ (by simp [hn₁, hn₂]) hc₁ hc₂
  rw [hn₁, List.head?_cons, Option.some.injEq] at hhead₁
  rw [hn₂, List.head?_cons, Option.some.injEq] at hhead₂
  exact ⟨r₁, r₂, hhead₁ ▸ hr₁, hhead₂ ▸ hr₂, not_not.1 fun hne => hiff.2 hne rfl⟩

/-- Two jobs on two nodes of one host meet at one endpoint. -/
theorem endpoint_fails :
    ¬ ∀ s, ((fine setup).recorded (builtAfter setup)).Reachable (.start .empty, []) s →
      ∀ row₁ ∈ s.1.mgr.registry.getJobs .running, ∀ row₂ ∈ s.1.mgr.registry.getJobs .running,
        row₁.jobId ≠ row₂.jobId → row₁.assignedNodes.Disjoint row₂.assignedNodes →
        ∀ endpoint₁ endpoint₂, Carries s row₁ endpoint₁ → Carries s row₂ endpoint₂ →
          endpoint₁ ≠ endpoint₂ := by
  intro h
  obtain ⟨row₁, h₁, hj₁, hn₁, hc₁⟩ :=
    carries_of_meetsOn (s := oneHostEnd) "job-1" "node-1" (by decide +kernel)
  obtain ⟨row₂, h₂, hj₂, hn₂, hc₂⟩ :=
    carries_of_meetsOn (s := oneHostEnd) "job-2" "node-2" (by decide +kernel)
  exact h oneHostEnd reachable_oneHostEnd row₁ h₁ row₂ h₂ (by simp [hj₁, hj₂]) (by simp [hn₁, hn₂])
    _ _ hc₁ hc₂ rfl

end Conf

end Dmlf
