import Dmlf.Agent.Torchrun
import Dmlf.Cluster.Origin
import Dmlf.Jobs.Rendezvous
import Dmlf.Jobs.Specification
import Dmlf.Jobs.WorldSize

/-!
# What a process is told

The processes of one dispatch have to agree on how many they are and where they meet, and each of
them on its own rank.  What a process is told comes from three places: the request of the client,
which has been through the table and a dict or two, the nodes that the scheduler has selected, and
the configuration of the manager.

* `Conf.Group` : the nodes of a dispatch, as many as the job asks for, and where they meet.
* `Conf.Backed` : a command says what was submitted, and what holds of its dispatch.
* `World.process_group` : every process in the cluster is started with the parameters that were
  submitted for its job and become arguments, the rank that its node has in its dispatch, and the
  address of the first node of that dispatch.
-/

namespace Dmlf

namespace Conf

variable {cfg : Setup} {c c' : Conf} {l : Label}

/-- The nodes of a dispatch: as many as the job asks for, and the first one has registered with the
address at which they meet. -/
structure Group (c : Conf) (nodes : List String) (nnodes : ℤ) (masterAddr : String) : Prop where
  size : 1 ≤ nnodes → (nodes.length : ℤ) = nnodes
  master : ∃ r, nodes.head? = some r.nodeId ∧ c.mgr.registry.getNode r.nodeId = some r ∧
    r.ipAddress = masterAddr

theorem Group.mono {nodes : List String} {nnodes : ℤ} {masterAddr : String}
    (h : c.Group nodes nnodes masterAddr)
    (hip : c.mgr.registry.KeepsAddresses c'.mgr.registry) : c'.Group nodes nnodes masterAddr := by
  refine ⟨h.size, ?_⟩
  obtain ⟨r, hhead, hr, hmaster⟩ := h.master
  obtain ⟨r', hr', heq⟩ := hip _ r hr
  have hid : r'.nodeId = r.nodeId := Registry.nodeId_of_getNode hr'
  exact ⟨r', by rw [hid, hhead], by rw [hid, hr'], heq.trans hmaster⟩

/-- The latest dispatch of a job is to the nodes of a group. -/
def Latest (c : Conf) (job : JobDict) (masterAddr : String) : Prop :=
  ∃ nodes, dispatchNodes c.mgr.history job.jobId (dispatchesIn c.mgr.history job.jobId) =
    some nodes ∧ c.Group nodes job.requiredNodes masterAddr

/-- The scheduler holds the nodes of a group, or has dispatched a job to them. -/
def Grouped (c : Conf) : Task → Prop
  | .schedReserve job nodes _ =>
    c.Group (nodes.map NodeRow.nodeId) job.requiredNodes
      ((nodes.head?.map NodeRow.ipAddress).getD "")
  | .schedSend job masterAddr _ => c.Latest job masterAddr
  | _ => True

theorem grouped_of_not_scheduler {t : Task} (h : t.isScheduler = false) : c.Grouped t := by
  cases t with
  | schedReserve | schedSend => cases h
  | _ => trivial

/-- Without a dispatch of its job a group stays the latest one. -/
theorem Grouped.mono (hst : exec cfg c l = some c') (hl : c.starts l = none) {t : Task}
    (h : c.Grouped t) : c'.Grouped t := by
  have hip := keepsAddresses hst
  cases t with
  | schedReserve job nodes todo => exact Group.mono h hip
  | schedSend job masterAddr todo =>
    obtain ⟨nodes, hnodes, hgroup⟩ := h
    obtain ⟨events, hevents⟩ := prefix_history hst
    refine ⟨nodes, ?_, hgroup.mono hip⟩
    rw [(running_step_of_quiet hst hl).2, ← hevents]
    exact dispatchNodes_append hnodes events
  | _ => trivial

/-- The nodes that the scheduler selects are a group. -/
theorem grouped_selected {now : Time} {job : JobDict} {nodes : List NodeRow}
    (hnodes : nodes = allocate cfg.scoreNode (c.mgr.registry.getAvailableNodes now).2
      job.requiredNodes) (hne : nodes ≠ [])
    (hreg : c'.mgr.registry = c.mgr.registry.markOfflineNodes now defaultTimeoutSeconds) :
    c'.Grouped (.schedReserve job nodes nodes) := by
  obtain ⟨node, rest, hcons⟩ := List.exists_cons_of_ne_nil hne
  constructor
  · intro hk
    have hlen := length_allocate cfg.scoreNode (c.mgr.registry.getAvailableNodes now).2 hk
    rw [← hnodes] at hlen
    rw [List.length_map, hlen, if_pos]
    by_contra hlt
    rw [if_neg hlt] at hlen
    exact hne (List.eq_nil_of_length_eq_zero (by exact_mod_cast hlen))
  · have hmem : node ∈ nodes := hcons ▸ List.mem_cons_self
    rw [hnodes] at hmem
    refine ⟨node, by rw [hcons]; rfl, ?_, by rw [hcons]; rfl⟩
    rw [hreg]
    exact (Registry.mem_getAvailableNodes.1 (mem_of_mem_allocate hmem)).1

/-- A command says what was submitted for its job, and what holds of its dispatch. -/
structure Backed (cfg : Setup) (c : Conf) (command : Command) : Prop where
  launches : command.Launches
  spec : c.HasSpec command.jobPayload.jobId (.ofPayload command.jobPayload)
  masterPort : command.jobPayload.masterPort = cfg.masterPort
  group : ∃ nodes, dispatchNodes c.mgr.history command.commandId.jobId command.commandId.dispatch =
    some nodes ∧ c.Group nodes command.jobPayload.nnodes command.jobPayload.masterAddr

theorem Backed.step {command : Command} (h : c.Backed cfg command)
    (hst : exec cfg c l = some c') : c'.Backed cfg command := by
  obtain ⟨nodes, hnodes, hgroup⟩ := h.group
  obtain ⟨events, hevents⟩ := prefix_history hst
  refine ⟨h.launches, h.spec.step hst, h.masterPort, nodes, ?_, hgroup.mono (keepsAddresses hst)⟩
  rw [← hevents]
  exact dispatchNodes_append hnodes events

/-- What the manager knows about the commands that it will build. -/
structure Prepared (c : Conf) : Prop where
  oneScheduler : c.OneScheduler
  specs : c.SpecsAgree
  tasks : ∀ t ∈ c.tasks, c.Grouped t

theorem prepared_start (reg : Registry) : (start reg).Prepared where
  oneScheduler := Nat.zero_le 1
  specs := specsAgree_start reg
  tasks := fun _ ht => absurd ht List.not_mem_nil

theorem Prepared.backed (h : c.Prepared) {command : Command} (hb : Builds cfg c command) :
    c.Backed cfg command := by
  have hspec := h.specs.builds hb
  obtain ⟨job, masterAddr, node, rank, todo, hmem, rfl⟩ := hb
  exact ⟨⟨rfl, rfl, rfl⟩, hspec, rfl, h.tasks _ hmem⟩

theorem Prepared.step (h : c.Prepared) (hst : exec cfg c l = some c') : c'.Prepared := by
  refine ⟨oneScheduler_step h.oneScheduler hst, preserves_specsAgree hst h.specs,
    fun t ht => ?_⟩
  cases hl : c.starts l with
  | some x =>
    have hip := keepsAddresses hst
    obtain ⟨i, now, rfl, hi, rfl⟩ := eq_of_starts hst hl
    rcases List.mem_append.1 ht with ht | ht
    · -- the other tasks are not of the scheduler
      exact grouped_of_not_scheduler (others_of_countP_le h.oneScheduler hi rfl t ht)
    · obtain rfl := List.mem_singleton.1 ht
      have hgroup : c.Group (x.2.map NodeRow.nodeId) x.1.requiredNodes _ :=
        h.tasks _ (List.mem_of_getElem? hi)
      refine ⟨x.2.map NodeRow.nodeId, ?_, hgroup.mono hip⟩
      have hcount := dispatchesIn_step hst x.1.jobId
      rw [hl, Option.any_some, decide_eq_true rfl, if_pos rfl] at hcount
      rw [hcount]
      exact dispatchNodes_dispatched c.mgr.history x.1.jobId (x.2.map NodeRow.nodeId)
  | none =>
    have hafter := taskAfter hst ht
    generalize hm : c'.mgr = m at hafter
    cases hafter with
    | kept ht => exact (h.tasks t ht).mono hst hl
    | begun hbegun => cases hbegun <;> trivial
    | next hi hm' hnext =>
      have hold := h.tasks _ (List.mem_of_getElem? hi)
      cases Task.next_of_step hnext with
      | retryWrite | retryAppend | failed | tooFew | monLoop | lost | passed | marked
        | appended => trivial
      | selected job nodes hnodes hne =>
        refine grouped_selected hnodes hne ?_
        rw [hm, ← hm']
        rfl
      | reserved job nodes node todo =>
        exact Grouped.mono (t := .schedReserve job nodes todo) hst hl hold
      | started job nodes =>
        rw [starts, hi] at hl
        cases hl
      | sent job masterAddr y todo =>
        exact Grouped.mono (t := .schedSend job masterAddr todo) hst hl hold

end Conf

namespace World

variable {cfg : Setup} {w w' : World Conf} {mv : Move}

/-- The commands in the cluster say what they should. -/
structure Backed (cfg : Setup) (w : World Conf) : Prop where
  prepared : w.manager.Prepared
  commands : ∀ n, ∀ command ∈ w.commandsAt Conf.mgr n, w.manager.Backed cfg command

theorem backed_start (cfg : Setup) (reg : Registry) : (start (.start reg)).Backed cfg where
  prepared := Conf.prepared_start reg
  commands := fun _ _ h => absurd h List.not_mem_nil

theorem preserves_backed : (lts (.fine cfg)).Preserves (Backed cfg) := by
  intro w mv w' hst h
  have P := projection (.fine cfg)
  have hkeep : w'.manager.Prepared ∧ ∀ command, w.manager.Backed cfg command →
      w'.manager.Backed cfg command := by
    cases hl : label w mv with
    | none =>
      have hsame : w'.manager = w.manager := P.quiet hst hl
      rw [hsame]
      exact ⟨h.prepared, fun _ hb => hb⟩
    | some l =>
      have hx : Conf.exec cfg w.manager l = some w'.manager := P.step hst hl
      exact ⟨h.prepared.step hx, fun _ hb => hb.step hx⟩
  refine ⟨hkeep.1, forall_commandsAt_step hst hkeep.2 (fun l hl n q hq command hc => ?_) h.commands⟩
  have hx : Conf.exec cfg w.manager l = some w'.manager := P.step hst hl
  exact (Conf.mem_commandQueues hx hq hc).imp_right fun hb => hkeep.2 _ (h.prepared.backed hb)

/-- **What a process is told.**  In every run from an empty database, whatever is lost and however
often the manager is killed, let a job be submitted.  The command of each process that is ever there
for the job has the parameters of the request.  The process itself is started with those of them
that become arguments, with the place of its node among the nodes of its dispatch as its rank, and
with the address of the first of these nodes; they are as many as it is told, if the request asks
for any. -/
theorem process_group {w₀ w₁ : World Conf} {jobId : String} {req : JobSubmitRequest} {now : Time}
    (h₀ : (lts (.fine cfg)).Reachable (start (.start .empty)) w₀)
    (hsub : (lts (.fine cfg)).step w₀ (.manager (.submitJob jobId req now)) w₁)
    (h : (lts (.fine cfg)).Reachable w₁ w) {n : String} {k : ℕ} {p : Process}
    (hp : w.HasProcess n k p) (hj : p.command.jobPayload.jobId = jobId) :
    JobSpec.ofPayload p.command.jobPayload = .ofRequest req ∧
      ∃ (nodes : List String) (rank : ℕ) (masterAddr : String),
        dispatchNodes w.manager.mgr.history jobId p.command.commandId.dispatch = some nodes ∧
        nodes[rank]? = some n ∧ w.manager.Group nodes req.nnodes masterAddr ∧
        torchrunCommand p.command.jobPayload =
          ["torchrun", "--nnodes=" ++ req.nnodes.repr, "--node_rank=" ++ rank.repr,
            "--master_addr=" ++ masterAddr, "--master_port=" ++ cfg.masterPort.repr,
            "--nproc_per_node=" ++ req.nprocPerNode.repr, req.scriptPath] ++
          splitBlanks req.args := by
  have P := projection (.fine cfg)
  have hrun := (h₀.next _ hsub).append h
  have hx : Conf.exec cfg w₀.manager (.submitJob jobId req now) = some w₁.manager :=
    P.step hsub rfl
  have hspec : w.manager.HasSpec jobId (.ofRequest req) :=
    h.keeps (P.preserves (Conf.preserves_hasSpec jobId (.ofRequest req)))
      (Conf.hasSpec_submitJob hx)
  have hbacked := (hrun.keeps preserves_backed (backed_start cfg .empty)).commands n p.command
    hp.mem_commandsAt
  have hagree : JobSpec.ofPayload p.command.jobPayload = .ofRequest req := by
    obtain ⟨row, hrow, hreq⟩ := hspec
    obtain ⟨row', hrow', hpayload⟩ := hbacked.spec
    obtain rfl : row = row' := Option.some.inj ((hj ▸ hrow).symm.trans hrow')
    exact hpayload.symm.trans hreq
  have hnnodes : p.command.jobPayload.nnodes = req.nnodes := congrArg JobSpec.nnodes hagree
  have hnproc : p.command.jobPayload.nprocPerNode = req.nprocPerNode :=
    congrArg JobSpec.nprocPerNode hagree
  have hscript : p.command.jobPayload.scriptPath = req.scriptPath :=
    congrArg JobSpec.scriptPath hagree
  have hargs : p.command.jobPayload.args = req.args := congrArg JobSpec.args hagree
  obtain ⟨nodes, hnodes, hrank⟩ := plannedNode_eq_some.1 (hp.planned hrun)
  obtain ⟨nodes', hnodes', hgroup⟩ := hbacked.group
  obtain rfl : nodes = nodes' := Option.some.inj (hnodes.symm.trans hnodes')
  refine ⟨hagree, nodes, p.command.jobPayload.nodeRank, p.command.jobPayload.masterAddr, ?_, ?_,
    hnnodes ▸ hgroup, ?_⟩
  · rw [← hj, hbacked.launches.jobId, hnodes]
  · rw [hbacked.launches.nodeRank, hrank]
  · rw [torchrunCommand_eq, hnnodes, hbacked.masterPort, hnproc, hscript, hargs]

/-- A job for two nodes is submitted when both have joined, and launched on both of them. -/
theorem process_group_launched : ∃ (w : World Conf) (p : Process), w.HasProcess "node-2" 0 p ∧
    JobSpec.ofPayload p.command.jobPayload = .ofRequest (Sample.job 2 1) ∧
    ∃ (nodes : List String) (rank : ℕ) (masterAddr : String),
      dispatchNodes w.manager.mgr.history "job-1" p.command.commandId.dispatch = some nodes ∧
      nodes[rank]? = some "node-2" ∧ w.manager.Group nodes 2 masterAddr ∧
      torchrunCommand p.command.jobPayload =
        ["torchrun", "--nnodes=" ++ Int.repr 2, "--node_rank=" ++ rank.repr,
          "--master_addr=" ++ masterAddr, "--master_port=" ++ Sample.setup.masterPort.repr,
          "--nproc_per_node=" ++ (Sample.job 2 1).nprocPerNode.repr,
          (Sample.job 2 1).scriptPath] ++ splitBlanks (Sample.job 2 1).args := by
  let s : World Conf := start (.start .empty)
  let w₀ := LTS.last s (LTS.runOf (exec (.fine Sample.setup)) s ((Sample.launchTwo true).take 4))
  let w₁ := (exec (.fine Sample.setup) w₀
    (.manager (.submitJob "job-1" (Sample.job 2 1) 101))).get (by decide +kernel)
  let w := LTS.last w₁
    (LTS.runOf (exec (.fine Sample.setup)) w₁ ((Sample.launchTwo true).drop 5))
  have h₀ : (lts (.fine Sample.setup)).Reachable s w₀ := (LTS.run_runOf _ s _).reachable
  have hsub : (lts (.fine Sample.setup)).step w₀
    (.manager (.submitJob "job-1" (Sample.job 2 1) 101)) w₁ := (Option.some_get _).symm
  have h : (lts (.fine Sample.setup)).Reachable w₁ w := (LTS.run_runOf _ w₁ _).reachable
  have hany : ((w.agents "node-2").bind fun agent => agent.launcher.processes[0]?).any
      (fun p => p.command.jobPayload.jobId = "job-1") = true := by
    decide +kernel
  clear_value w w₁ w₀
  obtain ⟨p, hp, hj⟩ := (Option.any_eq_true _ _).1 hany
  have hprocess : w.HasProcess "node-2" 0 p := Option.bind_eq_some_iff.1 hp
  exact ⟨w, p, hprocess, process_group h₀ hsub h hprocess (of_decide_eq_true hj)⟩

end World

end Dmlf
