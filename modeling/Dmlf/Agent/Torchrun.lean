import Dmlf.Jobs.Specification
import Dmlf.Text.Python
import Mathlib

/-!
# From a submission to a process

An agent starts `torchrun` with an argument vector that it builds from the payload of the command,
and with its own environment.  The checkpoint interval and the backend of the job are in the
payload and in no argument.

* `torchrunCommand_eq_iff` : what an argument vector says about the payload.
* `Conf.launch_eq_iff` : what a process is told of the submission of its job, whatever the runs of
  the managers that it has come through.
* `Conf.parameters_reach_iff` : two submissions are told apart exactly if they differ in what it is
  told.
-/

namespace Dmlf

/-- What `subprocess.Popen` is called with. -/
structure Launch where
  cmd : List String
  env : List (String × String)

/-- The command of `launch_torchrun`. -/
def torchrunCommand (payload : JobPayload) : List String :=
  ["torchrun", "--nnodes=" ++ payload.nnodes.repr, "--node_rank=" ++ payload.nodeRank.repr,
    "--master_addr=" ++ payload.masterAddr, "--master_port=" ++ payload.masterPort.repr,
    "--nproc_per_node=" ++ payload.nprocPerNode.repr, payload.scriptPath] ++
  if payload.args = "" then [] else splitBlanks payload.args

/-- The launch of a command by an agent with the environment `environ`, of which it passes a copy
on. -/
def launchOf (environ : List (String × String)) (command : Command) : Launch :=
  ⟨torchrunCommand command.jobPayload, environ⟩

theorem splitBlanks_empty : splitBlanks "" = [] := by decide

theorem torchrunCommand_eq (payload : JobPayload) : torchrunCommand payload =
    ["torchrun", "--nnodes=" ++ payload.nnodes.repr, "--node_rank=" ++ payload.nodeRank.repr,
      "--master_addr=" ++ payload.masterAddr, "--master_port=" ++ payload.masterPort.repr,
      "--nproc_per_node=" ++ payload.nprocPerNode.repr, payload.scriptPath] ++
    splitBlanks payload.args := by
  unfold torchrunCommand
  split_ifs with hargs
  · rw [hargs, splitBlanks_empty]
  · rfl

/-- **What an argument vector says about the payload**: all but the ids, the retries, the checkpoint
interval, the backend and the blanks between the arguments. -/
theorem torchrunCommand_eq_iff {p q : JobPayload} : torchrunCommand p = torchrunCommand q ↔
    (p.nodeRank = q.nodeRank ∧ p.masterAddr = q.masterAddr ∧ p.masterPort = q.masterPort) ∧
      p.scriptPath = q.scriptPath ∧ p.nnodes = q.nnodes ∧ p.nprocPerNode = q.nprocPerNode ∧
      splitBlanks p.args = splitBlanks q.args := by
  simp only [torchrunCommand_eq, List.cons_append, List.nil_append, List.cons.injEq,
    String.append_right_inj, Int.repr_inj, Nat.repr_inj, true_and]
  tauto

namespace JobSubmitRequest

/-- The parameters that become arguments, the arguments of the script one by one. -/
def passed (req : JobSubmitRequest) : String × ℤ × ℤ × List String :=
  (req.scriptPath, req.nnodes, req.nprocPerNode, splitBlanks req.args)

/-- The parameters that do not. -/
def dropped (req : JobSubmitRequest) : ℤ × String :=
  (req.checkpointIntervalMinutes, req.backend)

/-- Two submissions differ in a parameter. -/
def Differs (req req' : JobSubmitRequest) : Prop :=
  req.passed ≠ req'.passed ∨ req.dropped ≠ req'.dropped

end JobSubmitRequest

namespace Conf

/-- The command is one that a manager has built for the submission `req`, in some run from any
database, at its first dispatch or a later one. -/
def DispatchOf (cfg : Setup) (req : JobSubmitRequest) (command : Command) : Prop :=
  ∃ (reg : Registry) (c₀ c₁ c : Conf) (now : Time), (fine cfg).Reachable (start reg) c₀ ∧
    (fine cfg).step c₀ (.submitJob command.jobPayload.jobId req now) c₁ ∧
    (fine cfg).Reachable c₁ c ∧ Launches cfg c command

variable {cfg cfg' : Setup} {req req' : JobSubmitRequest} {command command' : Command}
  {environ environ' : List (String × String)}

theorem DispatchOf.spec (h : DispatchOf cfg req command) :
    .ofPayload command.jobPayload = JobSpec.ofRequest req := by
  obtain ⟨reg, c₀, c₁, c, now, h₀, hsub, h, hc⟩ := h
  have hagree : c.SpecsAgree := specsAgree_reachable ((h₀.next _ hsub).append h)
  exact hagree.launches (h.keeps (preserves_hasSpec _ _) (hasSpec_submitJob hsub)) hc rfl

/-- The commands are for nodes of the same rank with the same master, and for agents with the same
environment. -/
def SamePlace (environ environ' : List (String × String)) (command command' : Command) : Prop :=
  environ = environ' ∧ command.jobPayload.nodeRank = command'.jobPayload.nodeRank ∧
    command.jobPayload.masterAddr = command'.jobPayload.masterAddr ∧
    command.jobPayload.masterPort = command'.jobPayload.masterPort

/-- **What a process is told of its submission.** -/
theorem launch_eq_iff (h : DispatchOf cfg req command) (h' : DispatchOf cfg' req' command') :
    launchOf environ command = launchOf environ' command' ↔
      SamePlace environ environ' command command' ∧ req.passed = req'.passed := by
  have hspec := h.spec
  have hspec' := h'.spec
  simp only [JobSpec.ofPayload, JobSpec.ofRequest, JobSpec.mk.injEq] at hspec hspec'
  obtain ⟨hnnodes, hnproc, hscript, hargs, -⟩ := hspec
  obtain ⟨hnnodes', hnproc', hscript', hargs', -⟩ := hspec'
  simp only [launchOf, Launch.mk.injEq, torchrunCommand_eq_iff, SamePlace,
    JobSubmitRequest.passed, Prod.mk.injEq, hnnodes, hnproc, hscript, hargs, hnnodes', hnproc',
    hscript', hargs']
  tauto

/-- **Submission parameters reach the training process**, in the sense that two submissions that
differ are never launched alike, exactly if they differ in a parameter that becomes an argument, or
in none of the others, or are launched at different places. -/
theorem parameters_reach_iff (h : DispatchOf cfg req command)
    (h' : DispatchOf cfg' req' command') :
    (req.Differs req' → launchOf environ command ≠ launchOf environ' command') ↔
      ¬ SamePlace environ environ' command command' ∨ req.passed ≠ req'.passed ∨
        req.dropped = req'.dropped := by
  rw [Ne, launch_eq_iff h h', JobSubmitRequest.Differs]
  tauto

/-! ### Two jobs for one node -/

/-- A node registers, and a job for one node is dispatched to it. -/
def dispatched (req : JobSubmitRequest) : List Label :=
  [.submitJob "job-1" req 100, .registerNode "node-1" "secret-1" Sample.node 100, .runTask 0 100,
    .runTask 0 100] ++ Sample.dispatchOne 102

/-- The command is the one for `job-1` as the only job of its only node. -/
def isFirst (command : Command) : Bool :=
  command.jobPayload.jobId = "job-1" && command.jobPayload.nodeRank = 0 &&
    command.jobPayload.masterAddr = "10.0.0.1" && command.jobPayload.masterPort = 29500

theorem exists_dispatchOf (req : JobSubmitRequest)
    (h : ((LTS.exec (exec Sample.setup) (start .empty) (dispatched req)).any fun c =>
      (c.mgr.commandQueues "node-1").any fun q => q.any isFirst) = true) :
    ∃ command, DispatchOf Sample.setup req command ∧ isFirst command = true := by
  obtain ⟨c, hexec, hqueue⟩ := (Option.any_eq_true _ _).1 h
  obtain ⟨c₁, hsub, hrest⟩ := Option.bind_eq_some_iff.1 hexec
  obtain ⟨q, hq, hany⟩ := (Option.any_eq_true _ _).1 hqueue
  obtain ⟨command, hmem, hfirst⟩ := List.any_eq_true.1 hany
  have hjob : command.jobPayload.jobId = "job-1" := by
    simp only [isFirst, Bool.and_eq_true, decide_eq_true_eq] at hfirst
    exact hfirst.1.1.1
  refine ⟨command, ⟨.empty, start .empty, c₁, c, 100, .start, ?_, LTS.reachable_of_exec hrest,
    .inr ⟨"node-1", q, hq, hmem⟩⟩, hfirst⟩
  rw [hjob]
  exact hsub

theorem samePlace_of_isFirst (h : isFirst command = true) (h' : isFirst command' = true) :
    SamePlace environ environ command command' := by
  simp only [isFirst, Bool.and_eq_true, decide_eq_true_eq] at h h'
  obtain ⟨⟨⟨-, hrank⟩, haddr⟩, hport⟩ := h
  obtain ⟨⟨⟨-, hrank'⟩, haddr'⟩, hport'⟩ := h'
  exact ⟨rfl, hrank.trans hrank'.symm, haddr.trans haddr'.symm, hport.trans hport'.symm⟩

/-- A job, and the same one with another backend. -/
theorem parameters_reach_iff_backend : ∃ command command' : Command,
    let req := Sample.job 1 1
    let req' := { req with backend := "nccl" }
    (req.Differs req' → launchOf [] command ≠ launchOf [] command') ↔
      ¬ SamePlace [] [] command command' ∨ req.passed ≠ req'.passed ∨
        req.dropped = req'.dropped := by
  obtain ⟨command, h, -⟩ := exists_dispatchOf (Sample.job 1 1) (by decide +kernel)
  obtain ⟨command', h', -⟩ := exists_dispatchOf { Sample.job 1 1 with backend := "nccl" }
    (by decide +kernel)
  exact ⟨command, command', parameters_reach_iff h h'⟩

/-- They are launched alike. -/
theorem parameters_reach_fails :
    ¬ ∀ (cfg : Setup) (req req' : JobSubmitRequest) (command command' : Command)
      (environ : List (String × String)),
      DispatchOf cfg req command → DispatchOf cfg req' command' →
      command.jobPayload.nodeRank = command'.jobPayload.nodeRank → req.Differs req' →
      launchOf environ command ≠ launchOf environ command' := by
  intro hall
  obtain ⟨command, h, hfirst⟩ := exists_dispatchOf (Sample.job 1 1) (by decide +kernel)
  obtain ⟨command', h', hfirst'⟩ :=
    exists_dispatchOf { Sample.job 1 1 with backend := "nccl" } (by decide +kernel)
  have hplace : SamePlace [] [] command command' := samePlace_of_isFirst hfirst hfirst'
  exact hall _ _ _ command command' [] h h' hplace.2.1 (.inr (by decide))
    ((launch_eq_iff h h').2 ⟨hplace, rfl⟩)

end Conf

end Dmlf
