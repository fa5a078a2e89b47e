import Dmlf.Manager.Calls

/-!
# Which nodes have a command queue

A node becomes visible to the scheduler by its row, which `RegisterNode` writes first and which
survives a restart.  Its command queue is created later, by the second half of `RegisterNode` or
by the first `ListenForCommands`, and only in the memory of this process.

* `Conf.openedAfter` : the nodes for which one of the two has happened, as a history variable.
* `Conf.sendFinds_iff` : every command finds a queue exactly if it is sent to such a node.
-/

namespace Dmlf

namespace Conf

variable {cfg : Setup} {c c' : Conf} {l : Label}

/-- The node to which a call sends a command, and the command. -/
def sends (cfg : Setup) (c : Conf) : Label → Option (String × Command)
  | .runTask i _ =>
    match c.tasks[i]? with
    | some (.schedSend job masterAddr ((node, rank) :: _)) =>
      some (node.nodeId, c.mgr.launchCommand cfg job masterAddr rank)
    | _ => none
  | _ => none

/-- A command that is sent finds the queue of its node, and is appended to it. -/
def SendFinds (cfg : Setup) (c : Conf) (l : Label) : Prop :=
  ∀ x ∈ c.sends cfg l, ∃ q, c.mgr.commandQueues x.1 = some q ∧
    (c.mgr.sendCommand x.1 x.2).commandQueues x.1 = some (q ++ [x.2])

theorem sendFinds_iff_isSome :
    SendFinds cfg c l ↔ ∀ x ∈ c.sends cfg l, (c.mgr.commandQueues x.1).isSome = true := by
  refine forall₂_congr fun x _ => ⟨?_, fun h => ?_⟩
  · rintro ⟨q, hq, -⟩
    rw [hq]
    rfl
  · obtain ⟨q, hq⟩ := Option.isSome_iff_exists.1 h
    exact ⟨q, hq, by rw [Manager.commandQueues_sendCommand, if_pos rfl, hq]; rfl⟩

instance : DecidablePred (SendFinds cfg c) := fun l =>
  decidable_of_iff (∀ x ∈ c.sends cfg l, (c.mgr.commandQueues x.1).isSome = true)
    sendFinds_iff_isSome.symm

/-- The nodes that have opened a stream in this process, or for which `RegisterNode` has come to
its end in it. -/
def openedAfter (c : Conf) (opened : List String) : Label → List String
  | .restart => []
  | .listenForCommands nodeId => nodeId :: opened
  | .runTask i _ =>
    match c.tasks[i]? with
    | some (.registerQueue nodeId) => nodeId :: opened
    | _ => opened
  | _ => opened

/-- A command is sent to a node that has opened a stream or completed its registration. -/
def SendsToOpened (cfg : Setup) (s : Conf × List String) (l : Label) : Prop :=
  ∀ x ∈ s.1.sends cfg l, x.1 ∈ s.2

/-- The nodes with a command queue are those on record. -/
def QueuesRecorded (s : Conf × List String) : Prop :=
  ∀ n, (s.1.mgr.commandQueues n).isSome = true ↔ n ∈ s.2

theorem isSome_newCommandQueue (m : Manager) (nodeId n : String) :
    ((m.newCommandQueue nodeId).commandQueues n).isSome = true ↔
      n = nodeId ∨ (m.commandQueues n).isSome = true := by
  simp only [Manager.newCommandQueue]
  split_ifs with hn <;> simp [hn]

theorem isSome_listenForCommands (m : Manager) (nodeId n : String) :
    ((m.listenForCommands nodeId).commandQueues n).isSome = true ↔
      n = nodeId ∨ (m.commandQueues n).isSome = true := by
  unfold Manager.listenForCommands
  split_ifs with h
  · exact ⟨.inr, fun hn => hn.elim (fun hn => hn ▸ h) id⟩
  · exact isSome_newCommandQueue m nodeId n

theorem isSome_sendCommand (m : Manager) (nodeId : String) (command : Command) (n : String) :
    ((m.sendCommand nodeId command).commandQueues n).isSome = (m.commandQueues n).isSome := by
  rw [Manager.commandQueues_sendCommand]
  split_ifs with hn
  · rw [hn, Option.isSome_map]
  · rfl

/-- **Queues are created by streams and registrations, and lost in a restart.** -/
theorem preserves_queuesRecorded : ((fine cfg).recorded openedAfter).Preserves QueuesRecorded := by
  rintro ⟨c, opened⟩ l ⟨c', _⟩ ⟨hst, rfl⟩ h n
  have hn := h n
  simp only at hst hn ⊢
  cases call hst with
  | first hbegun =>
    cases hbegun with
    | listenForCommands hlisten =>
      rw [openedAfter, List.mem_cons, ← hn, ← isSome_listenForCommands, hlisten]
      rfl
    | @takeCommand nodeId command rest hq =>
      refine Iff.trans (iff_of_eq (congrArg (· = true) ?_)) hn
      simp only [spawn]
      split_ifs with hnode
      · rw [hnode, hq]
        rfl
      · rfl
    | registerNode | sendHeartbeat | reportIgnored | reportRetry | reportFail | reportCompleted
      | submitJob | noJob | popJob | noneOffline | someOffline | probe => exact hn
  | restart => exact iff_of_false Bool.false_ne_true List.not_mem_nil
  | @next i now t hi =>
    rw [resume, Task.commandQueues_step, openedAfter, hi]
    cases t with
    | registerQueue nodeId =>
      rw [List.mem_cons, ← hn]
      exact isSome_newCommandQueue ..
    | schedSend job masterAddr todo =>
      cases todo with
      | nil => exact hn
      | cons x todo =>
        refine Iff.trans (iff_of_eq (congrArg (· = true) ?_)) hn
        exact isSome_sendCommand ..
    | submitAppend | retrySetIdle | retryWrite | retryAppend | failWrite | closedSetIdle
      | schedSelect | schedRequeue | schedReserve | monJobs | monLoop | monAppend | monCount =>
      exact hn

/-- **Commands find their queues, exactly if they are sent to nodes that have shown up.**  In a run
from a database, every command that the scheduler sends finds the queue of its node, if and only
if each is sent to a node that has opened a stream, or completed its registration, since the
manager was started last. -/
theorem sendFinds_iff {reg : Registry} {tr : List (Label × Conf)}
    (h : (fine cfg).Run (start reg) tr) :
    LTS.StepsMeet (SendFinds cfg) (start reg) tr ↔
      LTS.StepsMeet (SendsToOpened cfg) (start reg, [])
        (LTS.record openedAfter (start reg) [] tr) := by
  refine (LTS.stepsMeet_record openedAfter (start reg) [] tr).symm.trans ?_
  refine (h.record openedAfter []).stepsMeet_congr preserves_queuesRecorded (fun s l hK => ?_)
    fun n => iff_of_false Bool.false_ne_true List.not_mem_nil
  rw [sendFinds_iff_isSome]
  exact forall₂_congr fun x _ => hK x.1

/-- The run in which a job is dispatched to two nodes. -/
theorem sendFinds_iff_dispatch :
    let tr := LTS.runOf (exec Sample.setup) (start .empty) Sample.dispatchTwo
    LTS.StepsMeet (SendFinds Sample.setup) (start .empty) tr ↔
      LTS.StepsMeet (SendsToOpened Sample.setup) (start .empty, [])
        (LTS.record openedAfter (start .empty) [] tr) :=
  sendFinds_iff (LTS.run_runOf _ _ _)

/-- A manager starts on the database of an earlier one, and dispatches the job that it recovers
before the node has opened a new stream. -/
theorem sendFinds_fails :
    ¬ ∀ (cfg : Setup) (reg : Registry) (tr : List (Label × Conf)),
      (fine cfg).Run (start reg) tr → LTS.StepsMeet (SendFinds cfg) (start reg) tr := by
  intro hall
  let reg := ((LTS.exec (exec Sample.setup) (start .empty)
    [.registerNode "node-1" "secret-1" Sample.node 100, .runTask 0 100,
      .submitJob "job-1" (Sample.job 1 1) 101]).map fun c => c.mgr.registry).getD .empty
  have hrun := hall Sample.setup reg _ (LTS.run_runOf (exec Sample.setup) (start reg)
    (.schedulerPass 102 :: List.replicate 5 (.runTask 0 102)))
  exact absurd hrun (by decide +kernel)

end Conf

end Dmlf
