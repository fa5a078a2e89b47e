import Dmlf.Manager.Calls
import Dmlf.Manager.Lifecycle

/-!
# A job keeps its specification

What a client asks for in `SubmitJob` travels through two kinds of dict, a row with its own
defaults, and any number of retries, requeues and restarts, before it reaches the agents.  A
`JobSpec` is what all of these representations have in common.

* `Conf.SpecsAgree` : every job dict in memory has the specification of the row of its job.
* `Conf.launch_spec` : every command for a job has the specification of its submission.
-/

namespace Dmlf

/-- What a submission fixes about the processes of its job. -/
structure JobSpec where
  nnodes : ℤ
  nprocPerNode : ℤ
  scriptPath : String
  args : String
  maxRetries : ℤ
  checkpointIntervalMinutes : ℤ
  backend : String

namespace JobSpec

/-- The specification in a request. -/
def ofRequest (req : JobSubmitRequest) : JobSpec :=
  ⟨req.nnodes, req.nprocPerNode, req.scriptPath, req.args, req.maxRetries,
    req.checkpointIntervalMinutes, req.backend⟩

/-- The specification in a dict, with the defaults of `dispatch_allocated_job`. -/
def ofDict (job : JobDict) : JobSpec :=
  ⟨job.requiredNodes, job.nprocPerNode, job.scriptPath, job.args, job.maxRetries.getD 3,
    (job.checkpointIntervalMinutes.getD (some 5)).getD 0, (job.backend.getD (some "gloo")).getD ""⟩

/-- The specification in a row. -/
def ofRow (row : JobRow) : JobSpec := ofDict row.toDict

/-- The specification in a command. -/
def ofPayload (payload : JobPayload) : JobSpec :=
  ⟨payload.nnodes, payload.nprocPerNode, payload.scriptPath, payload.args, payload.maxRetries,
    payload.checkpointIntervalMinutes, payload.backend⟩

@[simp] theorem ofDict_toDict (req : JobSubmitRequest) (jobId : String) :
    ofDict (req.toDict jobId) = ofRequest req := rfl

/-- The defaults of `insert_job` and of `dispatch_allocated_job` are the same. -/
@[simp] theorem ofRow_toRow (job : JobDict) (now : Time) : ofRow (job.toRow now) = ofDict job := rfl

@[simp] theorem ofDict_retried (job : JobDict) : ofDict job.retried = ofDict job := rfl

@[simp] theorem ofPayload_launchCommand (cfg : Setup) (m : Manager) (job : JobDict)
    (masterAddr : String) (rank : ℕ) :
    ofPayload (m.launchCommand cfg job masterAddr rank).jobPayload = ofDict job := rfl

theorem fixed_ofRow : JobRow.Fixed ofRow where
  status := fun _ _ _ _ _ => rfl
  retries := fun _ _ _ => rfl

end JobSpec

namespace Conf

variable {cfg : Setup} {c c' : Conf} {l : Label}

/-- The row of job `j` has the specification `spec`. -/
def HasSpec (c : Conf) (j : String) (spec : JobSpec) : Prop :=
  ∃ row, c.mgr.registry.getJob j = some row ∧ .ofRow row = spec

/-- Dicts in memory and queued commands have the specification of the row of their job. -/
structure SpecsAgree (c : Conf) : Prop where
  dicts : ∀ d ∈ c.dicts, c.HasSpec d.jobId (.ofDict d)
  commands : ∀ n q command, c.mgr.commandQueues n = some q → command ∈ q →
    c.HasSpec command.jobPayload.jobId (.ofPayload command.jobPayload)

theorem HasSpec.step {j : String} {spec : JobSpec} (h : c.HasSpec j spec)
    (hst : exec cfg c l = some c') : c'.HasSpec j spec := by
  obtain ⟨row, hrow, rfl⟩ := h
  exact (jobsWrite hst).keeps JobSpec.fixed_ofRow hrow

theorem preserves_hasSpec (j : String) (spec : JobSpec) :
    (fine cfg).Preserves fun c => c.HasSpec j spec :=
  fun _ _ _ hst h => h.step hst

theorem SpecsAgree.builds (h : c.SpecsAgree) {command : Command} (hb : Builds cfg c command) :
    c.HasSpec command.jobPayload.jobId (.ofPayload command.jobPayload) := by
  obtain ⟨job, masterAddr, node, rank, todo, hmem, rfl⟩ := hb
  rw [JobSpec.ofPayload_launchCommand]
  exact h.dicts job (List.mem_append_right _
    (List.mem_flatMap.2 ⟨_, hmem, List.mem_singleton_self job⟩))

theorem hasSpec_submitJob {jobId : String} {req : JobSubmitRequest} {now : Time}
    (hst : exec cfg c (.submitJob jobId req now) = some c') :
    c'.HasSpec jobId (.ofRequest req) := by
  cases call hst with
  | first h =>
    cases h with
    | submitJob hreg =>
      refine ⟨_, (Registry.getJob_insertJob hreg jobId).trans (if_pos rfl), ?_⟩
      rw [JobSpec.ofRow_toRow, JobSpec.ofDict_toDict]

theorem preserves_specsAgree : (fine cfg).Preserves SpecsAgree := by
  intro c l c' hst h
  refine ⟨fun d hd => ?_, fun n q command hq hc => ?_⟩
  · cases source hst hd with
    | kept hold => exact (h.dicts d hold).step hst
    | retried hold =>
      rw [JobSpec.ofDict_retried]
      exact (h.dicts _ hold).step hst
    | read hrow => exact HasSpec.step ⟨_, hrow, rfl⟩ hst
    | submitted => exact hasSpec_submitJob hst
  · rcases mem_commandQueues hst hq hc with ⟨q', hq', hc'⟩ | hb
    · exact (h.commands n q' command hq' hc').step hst
    · exact (h.builds hb).step hst

theorem specsAgree_start (reg : Registry) : (start reg).SpecsAgree where
  dicts := by
    intro d hd
    rw [dicts, show (start reg).tasks = [] from rfl, List.flatMap_nil, List.append_nil] at hd
    obtain ⟨row, hrow, rfl⟩ := List.mem_map.1 ((perm_recoverPendingJobs reg).subset hd)
    exact ⟨row, (Registry.mem_getJobs.1 hrow).1, rfl⟩
  commands := by rintro n q command ⟨⟩

/-- A command that has been built: it is about to be sent, or queued. -/
def Launches (cfg : Setup) (c : Conf) (command : Command) : Prop :=
  Builds cfg c command ∨ ∃ n q, c.mgr.commandQueues n = some q ∧ command ∈ q

theorem exists_launches_of_exec {ls : List Label} {n : String} {p : Command → Bool}
    (h : (LTS.exec (exec cfg) c ls).any (fun c =>
      (c.mgr.commandQueues n).any fun q => q.any p) = true) :
    ∃ c' command, (fine cfg).Reachable c c' ∧ Launches cfg c' command ∧ p command = true := by
  obtain ⟨c', hc', hqueue⟩ := LTS.exists_of_exec (exec cfg) c ls _ h
  obtain ⟨q, hq, hany⟩ := (Option.any_eq_true _ _).1 hqueue
  obtain ⟨command, hmem, hp⟩ := List.any_eq_true.1 hany
  exact ⟨c', command, hc', .inr ⟨n, q, hq, hmem⟩, hp⟩

theorem SpecsAgree.launches (h : c.SpecsAgree) {jobId : String} {spec : JobSpec}
    (hspec : c.HasSpec jobId spec) {command : Command} (hc : Launches cfg c command)
    (hj : command.jobPayload.jobId = jobId) : .ofPayload command.jobPayload = spec := by
  obtain ⟨row, hrow, rfl⟩ := hspec
  have hcommand : c.HasSpec command.jobPayload.jobId (.ofPayload command.jobPayload) := by
    rcases hc with hb | ⟨n, q, hq, hmem⟩
    · exact h.builds hb
    · exact h.commands n q command hq hmem
  obtain ⟨row', hrow', heq⟩ := hj ▸ hcommand
  obtain rfl : row = row' := Option.some.inj (hrow.symm.trans hrow')
  exact heq.symm

theorem specsAgree_reachable {reg : Registry} (h : (fine cfg).Reachable (start reg) c) :
    c.SpecsAgree :=
  h.keeps preserves_specsAgree (specsAgree_start reg)

theorem launches_of_getJob {reg : Registry} {jobId : String} {row : JobRow}
    (hrow : reg.getJob jobId = some row) (h : (fine cfg).Reachable (start reg) c)
    {command : Command} (hc : Launches cfg c command) (hj : command.jobPayload.jobId = jobId) :
    JobSpec.ofPayload command.jobPayload = .ofRow row := by
  have hspec : c.HasSpec jobId (.ofRow row) :=
    h.keeps (preserves_hasSpec jobId _) ⟨row, hrow, rfl⟩
  exact (specsAgree_reachable h).launches hspec hc hj

/-- **Job specifications are preserved.**  After a submission, in any later state of any run of
the manager, every command for its job has the specification of the request. -/
theorem launch_spec {reg : Registry} {c₀ c₁ : Conf} {jobId : String} {req : JobSubmitRequest}
    {now : Time} (h₀ : (fine cfg).Reachable (start reg) c₀)
    (hsub : (fine cfg).step c₀ (.submitJob jobId req now) c₁) (h : (fine cfg).Reachable c₁ c)
    {command : Command} (hc : Launches cfg c command) (hj : command.jobPayload.jobId = jobId) :
    JobSpec.ofPayload command.jobPayload = .ofRequest req := by
  have hagree : c.SpecsAgree := specsAgree_reachable ((h₀.next _ hsub).append h)
  have hspec : c.HasSpec jobId (.ofRequest req) :=
    h.keeps (preserves_hasSpec jobId _) (hasSpec_submitJob hsub)
  exact hagree.launches hspec hc hj

/-- A job is dispatched and fails, its report queues it again, and a manager that is restarted
after that dispatches it. -/
theorem launch_spec_restarted : ∃ command : Command, command.jobPayload.jobId = "job-1" ∧
    command.commandId.dispatch = 2 ∧
    JobSpec.ofPayload command.jobPayload = .ofRequest (Sample.job 2 1) := by
  let c₁ := (exec Sample.setup (start .empty) (.submitJob "job-1" (Sample.job 2 1) 100)).get
    (by decide +kernel)
  have hrun : (LTS.exec (exec Sample.setup) c₁
    [.registerNode "node-1" "secret-1" Sample.node 100,
      .registerNode "node-2" "secret-2" Sample.node 100, .runTask 0 100, .schedulerPass 102,
      .runTask 2 102, .runTask 2 102, .runTask 2 102, .runTask 2 102,
      .reportJobStatus ⟨"node-1", "job-1", "failed"⟩ 103, .runTask 3 103, .runTask 3 103,
      .runTask 3 103, .restart, .listenForCommands "node-1",
      .sendHeartbeat ⟨"node-2", ⟨5, 20, 0, 0⟩, "IDLE", 104⟩ 104, .schedulerPass 105,
      .runTask 0 105, .runTask 0 105, .runTask 0 105, .runTask 0 105, .runTask 0 105]).any
    (fun c => (c.mgr.commandQueues "node-1").any fun q => q.any fun command =>
      command.jobPayload.jobId = "job-1" && command.commandId.dispatch = 2) = true := by
    decide +kernel
  obtain ⟨c, command, hc, hlaunch, hp⟩ := exists_launches_of_exec hrun
  obtain ⟨hj, hd⟩ := (Bool.and_eq_true _ _).mp hp
  exact ⟨command, of_decide_eq_true hj, of_decide_eq_true hd,
    launch_spec .start (Option.some_get _).symm hc hlaunch (of_decide_eq_true hj)⟩

end Conf

end Dmlf
