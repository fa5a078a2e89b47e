import Dmlf.Manager.Calls
import Dmlf.Manager.Lifecycle
import Mathlib.Algebra.Order.Group.Multiset
import Mathlib.Data.List.Sigma

/-!
# Commands on their way out

Setting a job `RUNNING` commits the manager to one `LAUNCH_JOB` for each node of the row.  Until a
command stream yields it, such a command is only in memory: with the scheduler, or in a queue.

* `Conf.running_step` : the rows that run after a call.
* `Conf.outgoing_step` : where the commands on their way out come from, and where they go.
-/

namespace Dmlf

/-! ### Dispatches -/

namespace Task

/-- The next call sets a job `RUNNING` on these nodes. -/
def starts : Task → Option (JobDict × List NodeRow)
  | .schedReserve job nodes [] => some (job, nodes)
  | _ => none

theorem eq_of_starts {t : Task} {x : JobDict × List NodeRow} (h : t.starts = some x) :
    t = .schedReserve x.1 x.2 [] := by
  cases t with
  | schedReserve job nodes todo =>
    cases todo with
    | nil => obtain rfl := Option.some.inj h; rfl
    | cons node todo => cases h
  | registerQueue | submitAppend | retrySetIdle | retryWrite | retryAppend | failWrite
    | closedSetIdle | schedSelect | schedRequeue | schedSend | monJobs | monLoop | monAppend
    | monCount => cases h

theorem isScheduler_step {cfg : Setup} {now : Time} {m : Manager} {t t' : Task}
    (h : t' ∈ (t.step cfg now m).2) : t'.isScheduler = t.isScheduler := by
  cases next_of_step h <;> rfl

theorem running_step {cfg : Setup} {now : Time} {m : Manager} {t : Task} (h : t.starts = none) :
    (t.step cfg now m).1.registry.getJobs .running ⊆ m.registry.getJobs .running ∧
      ∀ j, dispatchesIn (t.step cfg now m).1.history j = dispatchesIn m.history j := by
  cases writes_step cfg now m t with
  | none hj hh =>
    rw [hh, Registry.getJobs, hj]
    exact ⟨List.Subset.refl _, fun _ => rfl⟩
  | retry job hj hh =>
    rw [hh, Registry.getJobs, hj]
    refine ⟨fun row hrow => ?_, fun j => ?_⟩
    · exact ((Registry.mem_getJobs_updateJob _ (fun _ => by simp) row).1 hrow).1
    · simp [dispatchesIn_append, Event.isDispatchOf]
  | fail jobId now' hj hh =>
    rw [hh, Registry.getJobs, hj]
    refine ⟨fun row hrow => ?_, fun _ => rfl⟩
    exact ((Registry.mem_getJobs_updateJob _ (fun _ => by simp [JobRow.withStatus]) row).1 hrow).1
  | start job nodes now' ht =>
    rw [ht] at h
    cases h

end Task

namespace Conf

variable {cfg : Setup} {c c' : Conf} {l : Label}

/-- The call sets a job `RUNNING` on these nodes. -/
def starts (c : Conf) : Label → Option (JobDict × List NodeRow)
  | .runTask i _ => c.tasks[i]?.bind Task.starts
  | _ => none

/-- There is one scheduler thread. -/
def OneScheduler (c : Conf) : Prop := c.tasks.countP Task.isScheduler ≤ 1

theorem oneScheduler_step (h : c.OneScheduler) (hst : exec cfg c l = some c') :
    c'.OneScheduler := by
  cases call hst with
  | first hbegun =>
    refine countP_spawn_le h ?_
    cases hbegun with
    | popJob hno => exact .inr (by simpa using hno)
    | registerNode | reportRetry | reportFail | reportCompleted | submitJob | noneOffline
      | someOffline => exact .inl (by rintro _ ⟨⟩; rfl)
    | sendHeartbeat | listenForCommands | takeCommand | reportIgnored | noJob | probe =>
      exact .inl (by rintro _ ⟨⟩)
  | restart => exact Nat.zero_le 1
  | next hi => exact countP_resume_le h hi fun _ ht => Task.isScheduler_step ht

/-- Without a dispatch, no more jobs run after a call, and the number of dispatches of each job is
the same. -/
theorem running_step_of_quiet (hst : exec cfg c l = some c') (hl : c.starts l = none) :
    c'.mgr.registry.getJobs .running ⊆ c.mgr.registry.getJobs .running ∧
      ∀ j, dispatchesIn c'.mgr.history j = dispatchesIn c.mgr.history j := by
  cases call hst with
  | first hbegun =>
    cases hbegun with
    | @registerNode nodeId nodeSecret req now =>
      have hjobs : (c.mgr.insertNode nodeId nodeSecret req now).registry.jobs =
          c.mgr.registry.jobs := Registry.jobs_registerNode ..
      simp only [spawn, Registry.getJobs, hjobs]
      exact ⟨List.Subset.refl _, fun _ => rfl⟩
    | sendHeartbeat | listenForCommands | takeCommand | reportIgnored | reportRetry | reportFail
      | noJob | popJob | noneOffline | someOffline | probe =>
      exact ⟨List.Subset.refl _, fun _ => rfl⟩
    | reportCompleted =>
      refine ⟨fun row hrow => ?_, fun _ => rfl⟩
      exact ((Registry.mem_getJobs_updateJob _ (by simp [JobRow.withStatus]) row).1 hrow).1
    | submitJob hreg =>
      refine ⟨Registry.mem_running_of_insertJob hreg (by rintro ⟨⟩), fun j => ?_⟩
      simp [spawn, dispatchesIn_append, Event.isDispatchOf]
  | restart => exact ⟨List.Subset.refl _, fun _ => rfl⟩
  | next hi =>
    rw [starts, hi] at hl
    exact Task.running_step hl

theorem eq_of_starts (hst : exec cfg c l = some c') {x : JobDict × List NodeRow}
    (hl : c.starts l = some x) : ∃ i now, l = .runTask i now ∧
      c.tasks[i]? = some (.schedReserve x.1 x.2 []) ∧ c' = c.resume i (c.mgr.startJob x.1 x.2 now,
        some (.schedSend x.1 ((x.2.head?.map NodeRow.ipAddress).getD "") x.2.zipIdx)) := by
  cases call hst with
  | first hbegun => cases hbegun <;> cases hl
  | restart => cases hl
  | @next i now t hi =>
    rw [starts, hi] at hl
    obtain rfl := Task.eq_of_starts hl
    exact ⟨i, now, rfl, hi, rfl⟩

/-- **The rows that run after a call** ran before and are not dispatched by it, or the call has just
set them `RUNNING` on the nodes that were reserved. -/
theorem running_step (hst : exec cfg c l = some c') {row : JobRow}
    (hrow : row ∈ c'.mgr.registry.getJobs .running) :
    (row ∈ c.mgr.registry.getJobs .running ∧ ∀ x ∈ c.starts l, x.1.jobId ≠ row.jobId) ∨
      ∃ x ∈ c.starts l, x.1.jobId = row.jobId ∧
        row.assignedNodes = x.2.map NodeRow.nodeId := by
  cases hl : c.starts l with
  | none => exact .inl ⟨(running_step_of_quiet hst hl).1 hrow, by rintro _ ⟨⟩⟩
  | some x =>
    obtain ⟨i, now, -, -, rfl⟩ := eq_of_starts hst hl
    obtain ⟨hget, hs⟩ := Registry.mem_getJobs.1 hrow
    replace hget : (c.mgr.registry.updateJobStatus x.1.jobId .running
      (some (x.2.map NodeRow.nodeId)) none now).getJob row.jobId = some row := hget
    rw [Registry.updateJobStatus, Registry.getJob_updateJob] at hget
    split_ifs at hget with hj
    · obtain ⟨r, -, rfl⟩ := Option.map_eq_some_iff.1 hget
      exact .inr ⟨x, rfl, hj.symm, rfl⟩
    · refine .inl ⟨Registry.mem_getJobs.2 ⟨hget, hs⟩, ?_⟩
      rintro _ ⟨⟩ h
      exact hj h.symm

theorem dispatchesIn_step (hst : exec cfg c l = some c') (j : String) :
    dispatchesIn c'.mgr.history j = dispatchesIn c.mgr.history j +
      if (c.starts l).any fun x => x.1.jobId = j then 1 else 0 := by
  cases hl : c.starts l with
  | none => exact (running_step_of_quiet hst hl).2 j
  | some x =>
    obtain ⟨i, now, -, -, rfl⟩ := eq_of_starts hst hl
    simp [resume, Manager.startJob, Manager.incJobsRunning, Manager.decJobsQueued,
      dispatchesIn_append, Event.isDispatchOf]

end Conf

/-! ### Commands -/

/-- The ids of some commands. -/
def commandIds (commands : List Command) : Multiset CommandId :=
  ↑(commands.map Command.commandId)

@[simp] theorem commandIds_nil : commandIds [] = 0 := rfl

@[simp] theorem commandIds_cons (command : Command) (commands : List Command) :
    commandIds (command :: commands) = {command.commandId} + commandIds commands := by
  rw [Multiset.singleton_add]
  rfl

@[simp] theorem commandIds_append (commands commands' : List Command) :
    commandIds (commands ++ commands') = commandIds commands + commandIds commands' := by
  rw [commandIds, List.map_append, ← Multiset.coe_add]
  rfl

namespace Manager

variable (m : Manager)

/-- The id of the command for the node with this rank in the latest dispatch of a job. -/
def launchId (jobId : String) (rank : ℕ) : CommandId := ⟨jobId, dispatchesIn m.history jobId, rank⟩

/-- The commands of the latest dispatch of a row, each with its node. -/
def launches (row : JobRow) : List (String × CommandId) :=
  row.assignedNodes.zipIdx.map fun x => (x.1, m.launchId row.jobId x.2)

/-- The commands for these nodes that are for node `n`. -/
def launchesFor (jobId n : String) (nodes : List (NodeRow × ℕ)) : Multiset CommandId :=
  ↑((nodes.filter fun x => x.1.nodeId = n).map fun x => m.launchId jobId x.2)

/-- The commands in the queue of a node. -/
def queued (n : String) : Multiset CommandId := commandIds ((m.commandQueues n).getD [])

theorem launchesFor_cons (jobId n : String) (x : NodeRow × ℕ) (nodes : List (NodeRow × ℕ)) :
    m.launchesFor jobId n (x :: nodes) =
      (if x.1.nodeId = n then {m.launchId jobId x.2} else 0) + m.launchesFor jobId n nodes := by
  unfold launchesFor
  split_ifs with hn
  · rw [List.filter_cons_of_pos (by simpa using hn), List.map_cons, ← Multiset.cons_coe,
      Multiset.singleton_add]
  · rw [List.filter_cons_of_neg (by simpa using hn), zero_add]

theorem queued_sendCommand (nodeId : String) (command : Command) (n : String) :
    (m.sendCommand nodeId command).queued n + (if nodeId = n ∧ m.commandQueues n = none then
      {command.commandId} else 0) =
      (if nodeId = n then {command.commandId} else 0) + m.queued n := by
  rw [queued, commandQueues_sendCommand]
  by_cases hn : nodeId = n
  · subst hn
    cases hq : m.commandQueues nodeId with
    | none => simp [queued, hq]
    | some q => simp [queued, hq, add_comm]
  · simp [hn, Ne.symm hn, queued]

variable {m} in
theorem queued_takeCommand {nodeId : String} {command : Command} {rest : List Command}
    (hq : m.commandQueues nodeId = some (command :: rest)) (n : String) :
    ({ m with commandQueues := fun n' => if n' = nodeId then some rest
                                         else m.commandQueues n' } : Manager).queued n +
      (if nodeId = n then commandIds ((m.commandQueues n).getD []).head?.toList else 0) =
        m.queued n := by
  by_cases hn : nodeId = n
  · subst hn
    simp [queued, hq, add_comm]
  · simp [queued, hn, Ne.symm hn]

end Manager

namespace Task

/-- The commands for node `n` that the scheduler has still to send. -/
def unsent (m : Manager) (n : String) : Task → Multiset CommandId
  | .schedSend job _ todo => m.launchesFor job.jobId n todo
  | _ => 0

/-- The commands for node `n` that the next call loses: those in a queue that it replaces, or one
that it sends to a node without a queue. -/
def drops (m : Manager) (n : String) : Task → Multiset CommandId
  | .registerQueue nodeId => if nodeId = n then m.queued n else 0
  | .schedSend job _ ((node, rank) :: _) =>
    if node.nodeId = n ∧ m.commandQueues n = none then {m.launchId job.jobId rank} else 0
  | _ => 0

variable {m m' : Manager}

theorem unsent_congr (h : ∀ j, dispatchesIn m'.history j = dispatchesIn m.history j) (n : String)
    (t : Task) : t.unsent m' n = t.unsent m n := by
  cases t <;> simp only [unsent, Manager.launchesFor, Manager.launchId, h]

theorem unsent_of_not_scheduler {n : String} {t : Task} (h : t.isScheduler = false) :
    t.unsent m n = 0 := by
  cases t <;> first | rfl | cases h

/-- **The next call of a task**, a dispatch apart: a command for node `n` that was unsent or queued
is so afterwards, or it is lost. -/
theorem outgoing_step (cfg : Setup) (now : Time) (m : Manager) {t : Task} (h : t.starts = none)
    (n : String) :
    ((t.step cfg now m).2.toList.map (Task.unsent m n)).sum + (t.step cfg now m).1.queued n +
      t.drops m n = t.unsent m n + m.queued n := by
  rw [Manager.queued, commandQueues_step]
  cases t with
  | registerQueue nodeId =>
    simp only [step, unsent, drops, commandQueuesAfter, Manager.newCommandQueue]
    by_cases hn : nodeId = n
    · subst hn; simp
    · simp [hn, Ne.symm hn, Manager.queued]
  | submitAppend | retrySetIdle | retryWrite | retryAppend | failWrite | closedSetIdle
    | schedRequeue | monJobs | monAppend | monCount =>
    simp [step, unsent, drops, commandQueuesAfter, Manager.queued]
  | schedSelect job =>
    simp only [step, drops, commandQueuesAfter]
    split_ifs <;> simp [unsent, Manager.queued]
  | schedReserve job nodes todo =>
    cases todo with
    | nil => cases h
    | cons node todo => simp [step, unsent, drops, commandQueuesAfter, Manager.queued]
  | schedSend job masterAddr todo =>
    cases todo with
    | nil => simp [step, unsent, Manager.launchesFor, drops, commandQueuesAfter, Manager.queued]
    | cons x todo =>
      have hsend := m.queued_sendCommand x.1.nodeId (m.launchCommand cfg job masterAddr x.2) n
      simp only [step, unsent, drops, Option.toList_some, List.map_singleton, List.sum_singleton,
        Manager.launchesFor_cons]
      rw [add_assoc, add_comm (ite _ _ _), add_assoc]
      exact congrArg _ hsend
  | monLoop offline jobs =>
    cases jobs with
    | nil => simp [step, unsent, drops, commandQueuesAfter, Manager.queued]
    | cons job jobs =>
      simp only [step, drops, commandQueuesAfter]
      split_ifs <;> simp [unsent, Manager.queued]

end Task

namespace Conf

variable {cfg : Setup} {c c' : Conf} {l : Label} {n : String}

/-- The commands for node `n` that the scheduler has still to send. -/
def unsent (c : Conf) (n : String) : Multiset CommandId :=
  (c.tasks.map (Task.unsent c.mgr n)).sum

/-- The commands for node `n` that are with the scheduler or in the queue of the node. -/
def outgoing (c : Conf) (n : String) : Multiset CommandId := c.unsent n + c.mgr.queued n

/-- The commands for node `n` that a call commits the manager to. -/
def assigns (c : Conf) (n : String) (l : Label) : Multiset CommandId :=
  match c.starts l with
  | some (job, nodes) =>
    ↑((nodes.zipIdx.filter fun x => x.1.nodeId = n).map fun x =>
      (⟨job.jobId, dispatchesIn c.mgr.history job.jobId + 1, x.2⟩ : CommandId))
  | none => 0

/-- The command that a stream of node `n` takes. -/
def yields (c : Conf) (n : String) : Label → Multiset CommandId
  | .takeCommand nodeId =>
    if nodeId = n then commandIds ((c.mgr.commandQueues n).getD []).head?.toList else 0
  | _ => 0

/-- The commands for node `n` that a call loses. -/
def drops (c : Conf) (n : String) : Label → Multiset CommandId
  -- what is in memory is gone with the process
  | .restart => c.outgoing n
  | .runTask i _ => (c.tasks[i]?.map (Task.drops c.mgr n)).getD 0
  | _ => 0

theorem unsent_spawn (c : Conf) {m : Manager} {t : Option Task}
    (hh : ∀ j, dispatchesIn m.history j = dispatchesIn c.mgr.history j)
    (ht : ∀ t' ∈ t, t'.unsent m n = 0) : (c.spawn (m, t)).unsent n = c.unsent n := by
  have hsum : (t.toList.map (Task.unsent m n)).sum = 0 := by
    cases t with
    | none => rfl
    | some t => simpa using ht t rfl
  simp only [unsent, spawn, List.map_append, List.sum_append, hsum, add_zero]
  rw [funext (Task.unsent_congr hh n)]

theorem outgoing_spawn (c : Conf) {m : Manager} {t : Option Task} {taken : Multiset CommandId}
    (hq : m.queued n + taken = c.mgr.queued n)
    (hh : ∀ j, dispatchesIn m.history j = dispatchesIn c.mgr.history j)
    (ht : ∀ t' ∈ t, t'.unsent m n = 0) : (c.spawn (m, t)).outgoing n + taken = c.outgoing n := by
  rw [outgoing, outgoing, unsent_spawn c hh ht, ← hq, add_assoc]
  rfl

theorem outgoing_dispatch (hone : c.OneScheduler) {i : ℕ} {now : Time} {job : JobDict}
    {nodes : List NodeRow} (hi : c.tasks[i]? = some (.schedReserve job nodes [])) :
    (c.resume i (c.mgr.startJob job nodes now,
      some (.schedSend job ((nodes.head?.map NodeRow.ipAddress).getD "") nodes.zipIdx))).outgoing
        n = c.outgoing n + c.assigns n (.runTask i now) := by
  -- the scheduler has nothing else to send
  have hothers := others_of_countP_le hone hi rfl
  have hrest : ∀ m : Manager, ((c.tasks.eraseIdx i).map (Task.unsent m n)).sum = 0 := by
    intro m
    refine List.sum_eq_zero fun x hx => ?_
    obtain ⟨t, ht, rfl⟩ := List.mem_map.1 hx
    exact Task.unsent_of_not_scheduler (hothers t ht)
  have hbefore : c.unsent n = 0 := by
    obtain ⟨hlt, heq⟩ := List.getElem?_eq_some_iff.1 hi
    rw [unsent, ← ((List.getElem_cons_eraseIdx_perm hlt).map _).sum_eq, List.map_cons,
      List.sum_cons, heq, hrest]
    rfl
  have hassigns : c.assigns n (.runTask i now) =
      (c.mgr.startJob job nodes now).launchesFor job.jobId n nodes.zipIdx := by
    simp [assigns, starts, hi, Task.starts, Manager.launchesFor, Manager.launchId,
      Manager.startJob, Manager.incJobsRunning, Manager.decJobsQueued, dispatchesIn_append,
      Event.isDispatchOf]
  rw [outgoing, outgoing, hbefore, hassigns, zero_add, add_comm]
  simp only [unsent, resume, Option.toList_some, List.map_append, List.sum_append, hrest, zero_add,
    List.map_singleton, List.sum_singleton, Task.unsent]
  rfl

/-- **Commands on their way out.**  A command for node `n` that is unsent or queued after a call was
so before, or the call commits the manager to it; and what was so before is so after the call, or
a stream has taken it, or it is lost. -/
theorem outgoing_step (hone : c.OneScheduler) (hst : exec cfg c l = some c') (n : String) :
    c'.outgoing n + c.yields n l + c.drops n l = c.outgoing n + c.assigns n l := by
  cases hl : c.starts l with
  | some x =>
    obtain ⟨i, now, rfl, hi, rfl⟩ := eq_of_starts hst hl
    rw [outgoing_dispatch hone hi, drops, hi]
    exact (add_zero _).trans (add_zero _)
  | none =>
    have hassigns : c.assigns n l = 0 := by rw [assigns, hl]
    rw [hassigns, add_zero]
    obtain ⟨-, hh⟩ := running_step_of_quiet hst hl
    cases call hst with
    | @first l m t h =>
      have hdrops : c.drops n l = 0 := by cases h <;> rfl
      rw [hdrops, add_zero]
      cases h with
      | registerNode | submitJob | reportRetry | reportFail | reportCompleted | popJob | noneOffline
        | someOffline => exact outgoing_spawn c (add_zero _) hh (by rintro _ ⟨⟩; rfl)
      | sendHeartbeat | reportIgnored | noJob | probe =>
        exact outgoing_spawn c (add_zero _) hh (by rintro _ ⟨⟩)
      | @listenForCommands nodeId queues h =>
        have hqueued : (c.mgr.listenForCommands nodeId).queued n + 0 = c.mgr.queued n := by
          rw [add_zero, Manager.queued, Manager.getD_listenForCommands]
          rfl
        exact outgoing_spawn c (h ▸ hqueued) hh (by rintro _ ⟨⟩)
      | takeCommand hq =>
        exact outgoing_spawn c (Manager.queued_takeCommand hq n) hh (by rintro _ ⟨⟩)
    | restart =>
      simp [outgoing, unsent, Manager.restart, Manager.serve, Manager.queued, yields, drops]
    | @next i now t hi =>
      have ht : t.starts = none := by rwa [starts, hi] at hl
      obtain ⟨rest, hsum, hsum'⟩ := sum_resume (Task.unsent c.mgr n) c hi (t.step cfg now c.mgr)
      have htask := Task.outgoing_step cfg now c.mgr ht n
      have hafter : (c.resume i (t.step cfg now c.mgr)).outgoing n =
          ((c.resume i (t.step cfg now c.mgr)).tasks.map (Task.unsent c.mgr n)).sum +
            (t.step cfg now c.mgr).1.queued n := by
        rw [outgoing, unsent, funext (Task.unsent_congr hh n)]
        rfl
      have hdrops : c.drops n (.runTask i now) = t.drops c.mgr n := by simp only [drops, hi]; rfl
      refine (congrArg (· + _) (add_zero _)).trans ?_
      rw [hafter, hsum', outgoing, unsent, hsum, hdrops, add_right_comm _ rest,
        add_right_comm _ rest, htask, add_right_comm]

/-! ### The commands of a dispatch -/

theorem nodup_assigns (c : Conf) (n : String) (l : Label) : (c.assigns n l).Nodup := by
  unfold assigns
  cases c.starts l with
  | none => exact Multiset.nodup_zero
  | some x =>
    -- their ranks are different
    have hranks : ((x.2.zipIdx.filter fun y => y.1.nodeId = n).map Prod.snd).Nodup :=
      (List.nodup_zipIdx_map_snd x.2).sublist (List.filter_sublist.map _)
    have hinj : Function.Injective fun rank =>
        (⟨x.1.jobId, dispatchesIn c.mgr.history x.1.jobId + 1, rank⟩ : CommandId) := by
      intro a b h
      exact (CommandId.mk.inj h).2.2
    have hnd := hranks.map hinj
    rw [List.map_map] at hnd
    exact Multiset.coe_nodup.2 hnd

theorem dispatch_of_mem_assigns (hst : exec cfg c l = some c') {id : CommandId}
    (h : id ∈ c.assigns n l) : id.dispatch = dispatchesIn c.mgr.history id.jobId + 1 ∧
      id.dispatch = dispatchesIn c'.mgr.history id.jobId := by
  have hcount := dispatchesIn_step hst id.jobId
  unfold assigns at h
  cases hl : c.starts l with
  | none => rw [hl] at h; cases Multiset.notMem_zero _ h
  | some x =>
    rw [hl] at h
    obtain ⟨y, -, rfl⟩ := List.mem_map.1 (Multiset.mem_coe.1 h)
    refine ⟨rfl, ?_⟩
    simp only [hl, Option.any_some, decide_true, if_true] at hcount
    exact hcount.symm

theorem mem_assigns (hst : exec cfg c l = some c') {x : JobDict × List NodeRow}
    (hl : c.starts l = some x) {row : JobRow} (hid : x.1.jobId = row.jobId)
    (hnodes : row.assignedNodes = x.2.map NodeRow.nodeId) {y : String × CommandId}
    (hy : y ∈ c'.mgr.launches row) : y.2 ∈ c.assigns y.1 l := by
  have hcount := dispatchesIn_step hst row.jobId
  simp only [hl, Option.any_some, hid, decide_true, if_true] at hcount
  rw [Manager.launches, hnodes, List.zipIdx_map, List.map_map] at hy
  obtain ⟨z, hz, rfl⟩ := List.mem_map.1 hy
  simp only [assigns, hl, Multiset.mem_coe, List.mem_map, List.mem_filter, decide_eq_true_eq]
  refine ⟨z, ⟨hz, rfl⟩, ?_⟩
  simp [Manager.launchId, hcount, hid]

end Conf

end Dmlf
