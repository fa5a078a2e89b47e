import Dmlf.Manager.Serial
import Dmlf.Manager.Effects

/-!
# Database errors in a scheduler pass

A registry call may raise, for instance because SQLite reports the database locked; its transaction
is rolled back.  `_scheduler_loop` catches nothing, so the exception ends the scheduler thread,
and nothing of what the pass has done before is taken back.  (`Autoscaler._run_loop` catches what
an evaluation raises, and goes on.)

* `ManagerProcess` : the manager with the state of its scheduler thread.
* `ManagerProcess.reachable_of_fine` : its connection to the manager of `Dmlf.Manager.Tasks`, whose
  calls do not raise.
* `ManagerProcess.raise_keeps` : what a call that raises leaves behind.
* `ManagerProcess.reachable_raise` : any number of the picked nodes may stay reserved.
* `ManagerProcess.raise_not_atomic` : no error leaves a scheduler that goes on.
-/

namespace Dmlf

namespace Task

/-- The transactions of the next registry call of the scheduler, each with the manager as it
finds it.  One that raises leaves the manager so. -/
def transactions (now : Time) (m : Manager) : Task → List Manager
  -- `get_available_nodes`: mark the offline nodes, then read the idle ones
  | .schedSelect _ => [m, m.setRegistry (m.registry.markOfflineNodes now defaultTimeoutSeconds)]
  -- `update_node_state`, or `update_job_status` when all nodes are reserved
  | .schedReserve _ _ _ => [m]
  | _ => []

/-- The job that the scheduler has popped. -/
def popped : Task → Option JobDict
  | .schedSelect job | .schedRequeue job | .schedReserve job _ _ | .schedSend job _ _ => some job
  | _ => none

/-- The nodes that the scheduler has picked for it. -/
def picked : Task → List NodeRow
  | .schedReserve _ nodes _ => nodes
  | .schedSend _ _ todo => todo.map Prod.fst
  | _ => []

end Task

/-- A manager process: its scheduler thread may have ended. -/
structure ManagerProcess where
  conf : Conf
  schedulerAlive : Bool

/-- What happens to a process: a call, or an error in transaction `k` of the call that task `i`
makes next. -/
inductive ProcessLabel where
  | call (l : Label)
  | raise (i k : ℕ) (now : Time)

namespace ManagerProcess

variable (cfg : Setup)

/-- One call, or an error.  Without a thread there is no scheduler pass; a restart starts a new
one. -/
def exec (p : ManagerProcess) : ProcessLabel → Option ManagerProcess
  | .call (.schedulerPass now) =>
    if p.schedulerAlive then
      (p.conf.exec cfg (.schedulerPass now)).map fun c => ⟨c, p.schedulerAlive⟩
    else none
  | .call .restart => (p.conf.exec cfg .restart).map fun c => ⟨c, true⟩
  | .call l => (p.conf.exec cfg l).map fun c => ⟨c, p.schedulerAlive⟩
  -- the exception leaves the loop, and the task is gone with the thread
  | .raise i k now =>
    (p.conf.tasks[i]?).bind fun task =>
      ((task.transactions now p.conf.mgr)[k]?).map fun m =>
        ⟨⟨m, p.conf.tasks.eraseIdx i⟩, false⟩

/-- The process, with errors in the calls of the scheduler. -/
def lts : LTS ManagerProcess ProcessLabel := LTS.ofExec (exec cfg)

/-- The process is not started again. -/
def Uninterrupted (_ : ManagerProcess) (l : ProcessLabel) : Prop := l ≠ .call .restart

variable {cfg} {p p' : ManagerProcess} {task : Task} {i k : ℕ} {now : Time}

/-- A scheduler pass still begins, without a restart. -/
def LaterPassRuns (cfg : Setup) (p : ManagerProcess) : Prop :=
  ∃ q now, ((lts cfg).restrict Uninterrupted).Reachable p q ∧
    (q.exec cfg (.call (.schedulerPass now))).isSome

/-- The job runs, and all of its nodes have a command of it in their queues. -/
def Launched (m : Manager) (jobId : String) : Prop :=
  ∃ row, m.registry.getJob jobId = some row ∧ row.status = .running ∧
    ∀ n ∈ row.assignedNodes, ∃ queue, m.commandQueues n = some queue ∧
      ∃ command ∈ queue, command.type = .launchJob ∧ command.jobPayload.jobId = jobId

/-- The job does not run, and yet the node is reserved. -/
def Stranded (m : Manager) (jobId : String) (node : NodeRow) : Prop :=
  (∀ row, m.registry.getJob jobId = some row → row.status ≠ .running) ∧
    ∃ row, m.registry.getNode node.nodeId = some row ∧ row.status = .reserved

/-- The popped job is still queued, or launched. -/
def Kept (task : Task) (m : Manager) : Prop :=
  ∀ job, task.popped = some job → job.jobId ∈ m.queue.map JobDict.jobId ∨ Launched m job.jobId

/-- No node that was picked is reserved for a job that does not run. -/
def Released (task : Task) (m : Manager) : Prop :=
  ∀ job, task.popped = some job → ∀ node ∈ task.picked, ¬ Stranded m job.jobId node

/-- A pass that was at `task` leaves no half of its work behind, and the loop goes on. -/
structure Atomic (cfg : Setup) (task : Task) (p : ManagerProcess) : Prop where
  kept : Kept task p.conf.mgr
  released : Released task p.conf.mgr
  laterPass : LaterPassRuns cfg p

/-! ### Calls that do not raise -/

theorem exec_call (h : p.schedulerAlive = true) (l : Label) :
    p.exec cfg (.call l) = (p.conf.exec cfg l).map fun c => ⟨c, true⟩ := by
  cases l with
  | schedulerPass now =>
    simp only [exec, h, if_true]
  | restart => rfl
  | _ => simp only [exec, h]

/-- Every run of the manager is one of a process without errors. -/
theorem reachable_of_fine {c c' : Conf} (h : (Conf.fine cfg).Reachable c c') :
    (lts cfg).Reachable ⟨c, true⟩ ⟨c', true⟩ := by
  refine h.keeps (I := fun c' => (lts cfg).Reachable ⟨c, true⟩ ⟨c', true⟩) ?_ .start
  intro c₁ l c₂ hst ih
  refine ih.next (.call l) ?_
  show exec cfg ⟨c₁, true⟩ (.call l) = _
  rw [exec_call rfl, show Conf.exec cfg c₁ l = some c₂ from hst]
  rfl

/-! ### Calls that raise -/

theorem raise_cases (ht : p.conf.tasks[i]? = some task)
    (h : p.exec cfg (.raise i k now) = some p') :
    ∃ m, (task.transactions now p.conf.mgr)[k]? = some m ∧
      p' = ⟨⟨m, p.conf.tasks.eraseIdx i⟩, false⟩ := by
  simp only [exec, ht, Option.bind_some] at h
  obtain ⟨m, hm, heq⟩ := Option.map_eq_some_iff.1 h
  exact ⟨m, hm, heq.symm⟩

/-- **What an error leaves behind.**  The thread has ended, the popped job is not put back, no row
of a job and no command queue is touched, and no node is released. -/
theorem raise_keeps (ht : p.conf.tasks[i]? = some task)
    (h : p.exec cfg (.raise i k now) = some p') :
    p'.schedulerAlive = false ∧ p'.conf.mgr.queue = p.conf.mgr.queue ∧
      p'.conf.mgr.registry.jobs = p.conf.mgr.registry.jobs ∧
      p'.conf.mgr.commandQueues = p.conf.mgr.commandQueues ∧
      (task.picked ≠ [] → p'.conf.mgr.registry.nodes = p.conf.mgr.registry.nodes) := by
  obtain ⟨m, hm, rfl⟩ := raise_cases ht h
  have hmem := List.mem_of_getElem? hm
  cases task with
  | schedSelect job =>
    rcases List.mem_pair.1 hmem with rfl | rfl
    · exact ⟨rfl, rfl, rfl, rfl, fun hne => absurd rfl hne⟩
    · exact ⟨rfl, rfl, rfl, rfl, fun hne => absurd rfl hne⟩
  | schedReserve job nodes todo =>
    obtain rfl := List.mem_singleton.1 hmem
    exact ⟨rfl, rfl, rfl, rfl, fun _ => rfl⟩
  | _ => exact absurd hmem List.not_mem_nil

theorem reachable_reserved (job : JobDict) (nodes done todo : List NodeRow) (m : Manager)
    (now : Time) :
    (Conf.fine cfg).Reachable ⟨m, [.schedReserve job nodes (done ++ todo)]⟩
      ⟨m.reserveNodes done, [.schedReserve job nodes todo]⟩ := by
  induction done generalizing m with
  | nil => exact .start
  | cons node done ih => exact (Conf.reachable_runTask m _ now).append (ih _)

/-- **An error at any point of a pass.**  The scheduler pops a job and picks nodes for it; after
any number of them the next call raises, the last one when the job is to be set `RUNNING`. -/
theorem reachable_raise {m : Manager} {job : JobDict} {queue : List JobDict}
    (hq : m.queue = job :: queue) {done todo : List NodeRow}
    (hnodes : m.selectNodes cfg job now = done ++ todo) (hne : done ++ todo ≠ []) :
    (lts cfg).Reachable ⟨⟨m, []⟩, true⟩
      ⟨⟨(m.popTopJob queue now).reserveNodes done, []⟩, false⟩ := by
  have hpass : (Conf.fine cfg).Reachable ⟨m, []⟩
      ⟨(m.popTopJob queue now).reserveNodes done, [.schedReserve job (done ++ todo) todo]⟩ := by
    refine Conf.reachable_spawn (.schedulerPass now) m.beginSchedulerPass rfl ?_
    rw [Manager.beginSchedulerPass, hq]
    refine (Conf.reachable_runTask _ _ now).append ?_
    have hsel : allocate cfg.scoreNode (m.registry.getAvailableNodes now).2 job.requiredNodes =
        done ++ todo := hnodes
    have hstep : Task.step cfg now { m with queue } (.schedSelect job) =
        (m.popTopJob queue now, some (.schedReserve job (done ++ todo) (done ++ todo))) := by
      simp only [Task.step, hsel, List.isEmpty_iff, if_neg hne]
      rfl
    rw [hstep]
    exact reachable_reserved job _ done todo _ now
  refine (reachable_of_fine hpass).next (.raise 0 0 now) ?_
  show exec cfg _ (.raise 0 0 now) = some _
  rfl

theorem dead_step : ((lts cfg).restrict Uninterrupted).Preserves
    fun p => p.schedulerAlive = false := by
  rintro p l p' ⟨hl, hst⟩ hdead
  cases l with
  | call l =>
    have hst : p.exec cfg (.call l) = some p' := hst
    cases l with
    | schedulerPass now => simp only [exec, hdead, Bool.false_eq_true, if_false] at hst; cases hst
    | restart => exact absurd rfl hl
    | _ =>
      simp only [exec] at hst
      obtain ⟨c, -, rfl⟩ := Option.map_eq_some_iff.1 hst
      exact hdead
  | raise i k now =>
    obtain ⟨task, -, h⟩ := Option.bind_eq_some_iff.1 hst
    obtain ⟨m, -, rfl⟩ := Option.map_eq_some_iff.1 h
    rfl

theorem not_laterPassRuns (h : p.schedulerAlive = false) : ¬ LaterPassRuns cfg p := by
  rintro ⟨q, now, hreach, hpass⟩
  have hdead : q.schedulerAlive = false := hreach.keeps dead_step h
  simp [exec, hdead] at hpass

/-- **No error leaves the scheduler as it should.**  Whatever the other threads have done before,
a pass with a call that raises is not atomic. -/
theorem raise_not_atomic (cfg : Setup) (p p' : ManagerProcess) (task : Task) (i k : ℕ) (now : Time)
    (ht : p.conf.tasks[i]? = some task) (h : p.exec cfg (.raise i k now) = some p') :
    ¬ Atomic cfg task p' :=
  fun hat => not_laterPassRuns (raise_keeps ht h).1 hat.laterPass

end ManagerProcess

namespace Sample

/-- The calls up to the middle of the dispatch of `job-1`: of its two nodes the first one is
reserved. -/
def midDispatch : ManagerProcess :=
  (LTS.exec (ManagerProcess.exec setup) ⟨.start .empty, true⟩
    ((dispatchTwo.take 9).map ProcessLabel.call)).getD ⟨.start .empty, true⟩

end Sample

namespace ManagerProcess

theorem raise_not_atomic_locked :
    ∃ task p', Sample.midDispatch.conf.tasks[0]? = some task ∧
      Sample.midDispatch.exec Sample.setup (.raise 0 0 102) = some p' ∧
      ¬ Atomic Sample.setup task p' := by
  obtain ⟨task, ht⟩ := Option.isSome_iff_exists.1
    (show (Sample.midDispatch.conf.tasks[0]?).isSome = true by decide +kernel)
  obtain ⟨p', hp'⟩ := Option.isSome_iff_exists.1
    (show (Sample.midDispatch.exec Sample.setup (.raise 0 0 102)).isSome = true by decide +kernel)
  exact ⟨task, p', ht, hp', raise_not_atomic _ _ _ _ _ _ _ ht hp'⟩

/-- The database is locked when the second node is to be reserved: the job is pending and in no
queue, the first node stays reserved, and the scheduler has ended. -/
theorem atomic_fails :
    ∃ p p' task, (lts Sample.setup).Reachable ⟨.start .empty, true⟩ p ∧
      p.conf.tasks[0]? = some task ∧ p.exec Sample.setup (.raise 0 0 102) = some p' ∧
      ¬ Kept task p'.conf.mgr ∧ ¬ Released task p'.conf.mgr ∧ ¬ LaterPassRuns Sample.setup p' := by
  obtain ⟨p, hreach, hp⟩ := LTS.exists_of_exec (exec Sample.setup) ⟨.start .empty, true⟩
    ((Sample.dispatchTwo.take 9).map ProcessLabel.call)
    (fun p => p.conf.tasks[0]?.any (fun task =>
        task.popped.any (fun job => job.jobId = "job-1") &&
        task.picked.any (fun node => node.nodeId = "node-1")) &&
      (p.exec Sample.setup (.raise 0 0 102)).isSome && p.conf.mgr.queue.isEmpty &&
      (p.conf.mgr.registry.getJob "job-1").any (fun row => row.status = .pending) &&
      (p.conf.mgr.registry.getNode "node-1").any fun row => row.status = .reserved)
    (by decide +kernel)
  simp only [Bool.and_eq_true, Option.any_eq_true, List.any_eq_true, decide_eq_true_eq] at hp
  obtain ⟨⟨⟨⟨⟨task, ht, ⟨job, hjob, hid⟩, ⟨node, hnode, hnid⟩⟩, hsome⟩, hq⟩, ⟨row, hrow, hpending⟩⟩,
    ⟨nrow, hnrow, hreserved⟩⟩ := hp
  obtain ⟨p', hp'⟩ := Option.isSome_iff_exists.1 hsome
  obtain ⟨hdead, hqueue, hjobs, -, hnodes⟩ := raise_keeps ht hp'
  have hrow' : p'.conf.mgr.registry.getJob job.jobId = some row := by
    rw [Registry.getJob, hjobs, hid]
    exact hrow
  have hnrow' : p'.conf.mgr.registry.getNode node.nodeId = some nrow := by
    rw [Registry.getNode, hnodes (List.ne_nil_of_mem hnode), hnid]
    exact hnrow
  have hnot : ∀ r, p'.conf.mgr.registry.getJob job.jobId = some r → r.status ≠ .running := by
    intro r hr
    obtain rfl := Option.some.inj (hrow'.symm.trans hr)
    rw [hpending]
    exact JobState.noConfusion
  refine ⟨p, p', task, hreach, ht, hp', fun hkept => ?_, fun hrel => ?_, not_laterPassRuns hdead⟩
  · rcases hkept job hjob with hmem | ⟨r, hr, hrun, -⟩
    · rw [hqueue, List.isEmpty_iff.1 hq] at hmem
      exact List.not_mem_nil hmem
    · exact hnot r hr hrun
  · exact hrel job hjob node hnode ⟨hnot, nrow, hnrow', hreserved⟩

end ManagerProcess

end Dmlf
