import Dmlf.Manager.Outgoing
import Dmlf.Cluster.Commands

/-!
# Crashes in the middle of a dispatch

`dispatch_allocated_job` sets the row `RUNNING` before it sends the first command, and
`_recover_pending_jobs` reads the pending rows only.  So a manager that is killed between the two
never sends the rest, and neither does the one that is started then.

* `World.inFlight_step` : where the commands in flight come from, and where they go.
* `World.tracked_step` : a command of a dispatch is in flight, received or lost, in every run.
* `World.survives_iff` : all jobs survive the restarts of a run exactly if no command of a running
  job is in flight or lost then.
-/

namespace Dmlf

/-- What has become of the commands so far, by node. -/
structure CommandHistory where
  /-- The commands of all dispatches. -/
  assigned : String → Multiset CommandId
  /-- The commands that the agents have received. -/
  received : String → Multiset CommandId
  lost : String → Multiset CommandId

/-- No command yet. -/
def CommandHistory.empty : CommandHistory := ⟨fun _ => 0, fun _ => 0, fun _ => 0⟩

/-- What is in one of three places, and in that only. -/
theorem mem_middle_iff {α : Type*} {a b c s : Multiset α} (h : a + b + c = s) (hs : s.Nodup)
    {x : α} (hx : x ∈ s) : x ∈ b ↔ x ∉ a ∧ x ∉ c := by
  subst h
  obtain ⟨hab, -, habc⟩ := Multiset.nodup_add.1 hs
  obtain ⟨-, -, hab⟩ := Multiset.nodup_add.1 hab
  rw [Multiset.mem_add, Multiset.mem_add] at hx
  constructor
  · intro hb
    exact ⟨fun ha => Multiset.disjoint_left.1 hab ha hb,
      fun hc => Multiset.disjoint_left.1 habc (Multiset.mem_add.2 (.inr hb)) hc⟩
  · rintro ⟨ha, hc⟩
    exact (hx.resolve_right hc).resolve_left ha

namespace Agent

variable {agent agent' : Agent}

theorem stream_receive (h : agent.receive = some agent') :
    ∃ command, agent.stream = command :: agent'.stream := by
  unfold receive at h
  cases hs : agent.stream with
  | nil => rw [hs] at h; cases h
  | cons command stream =>
    rw [hs] at h
    obtain rfl := Option.some.inj h
    refine ⟨command, ?_⟩
    cases command.type <;> rfl

end Agent

namespace World

variable {cfg : Setup} {w w' : World Conf} {mv : Move}

/-! ### Commands in flight -/

/-- The commands that the stream of a node carries. -/
def onStream (w : World Conf) (n : String) : Multiset CommandId :=
  commandIds (((w.agents n).map Agent.stream).getD [])

/-- The commands for node `n` that are with the scheduler, in the queue of the node, or on its
stream. -/
def inFlight (w : World Conf) (n : String) : Multiset CommandId :=
  w.manager.outgoing n + w.onStream n

/-- The commands for node `n` that a move commits the manager to. -/
def assigns (w : World Conf) (n : String) (mv : Move) : Multiset CommandId :=
  ((label w mv).map (w.manager.assigns n)).getD 0

/-- The command that the agent of node `n` receives in a move. -/
def receives (w : World Conf) (n : String) : Move → Multiset CommandId
  | .receive nodeId =>
    if nodeId = n then commandIds (((w.agents n).map Agent.stream).getD []).head?.toList else 0
  | _ => 0

/-- The commands for node `n` that a move loses. -/
def loses (w : World Conf) (n : String) : Move → Multiset CommandId
  | .manager l => w.manager.drops n l
  -- an agent starts without a stream
  | .join nodeId _ _ _ | .disconnect nodeId => if nodeId = n then w.onStream n else 0
  | _ => 0

theorem onStream_setAgent (w : World Conf) (nodeId : String) (agent : Agent) (n : String) :
    (w.setAgent nodeId agent).onStream n =
      if nodeId = n then commandIds agent.stream else w.onStream n := by
  simp only [onStream, setAgent]
  by_cases hn : nodeId = n
  · simp [hn]
  · simp [hn, Ne.symm hn]

theorem onStream_of_same {nodeId : String} {agent agent' : Agent}
    (ha : w.agents nodeId = some agent) (h : agent'.stream = agent.stream) (n : String) :
    (w.setAgent nodeId agent').onStream n = w.onStream n := by
  rw [onStream_setAgent]
  split_ifs with hn
  · subst hn
    rw [onStream, ha, h]
    rfl
  · rfl

/-- What is on the stream of node `n` after a move was so before, or its queue has yielded it; and
what was so before is so after the move, or the agent has received it, or it is lost. -/
theorem onStream_step (hst : (lts (.fine cfg)).step w mv w') (n : String) :
    w'.onStream n + w.receives n mv + w.loses n mv = w.onStream n +
      ((label w mv).map fun l => w.manager.yields n l + w.manager.drops n l).getD 0 := by
  cases effect _ hst with
  | @manager l x hl =>
    have hy : w.manager.yields n l = 0 := by cases l <;> first | rfl | cases hl
    simp only [receives, loses, label, Option.map_some, Option.getD_some, hy, add_zero, zero_add]
    rfl
  | @join nodeId =>
    simp only [receives, loses, label, Option.map_some, Option.getD_some, Conf.yields, Conf.drops,
      add_zero, onStream_setAgent]
    split_ifs
    · simp [Agent.new]
    · exact add_zero _
  | buildHeartbeat => exact add_zero _
  | deliverHeartbeat h | deliverReport h =>
    simp only [receives, loses, label, h, Option.map_some, Option.getD_some, Conf.yields,
      Conf.drops, add_zero]
    rfl
  | listen =>
    simp only [receives, loses, label, Option.map_some, Option.getD_some, Conf.yields, Conf.drops,
      add_zero]
    rfl
  | @takeCommand nodeId agent command m x ha hc =>
    obtain ⟨rest, hrest, -⟩ := Manager.takeCommand_eq_some hc
    have hq : w.manager.mgr.commandQueues nodeId = some (command :: rest) := hrest
    simp only [receives, loses, label, Option.map_some, Option.getD_some, Conf.yields, Conf.drops,
      add_zero, onStream_setAgent]
    split_ifs with hn
    · subst hn
      simp [onStream, ha, hq]
    · rw [add_zero]
      rfl
  | @receive nodeId agent agent' ha hrec =>
    obtain ⟨command, hs⟩ := Agent.stream_receive hrec
    simp only [receives, loses, label, Option.map_none, Option.getD_none, add_zero,
      onStream_setAgent]
    split_ifs with hn
    · subst hn
      simp [onStream, ha, hs, add_comm]
    · exact add_zero _
  | @disconnect nodeId agent ha =>
    simp only [receives, loses, label, Option.map_none, Option.getD_none, add_zero,
      onStream_setAgent]
    split_ifs with hn
    · simp [Agent.disconnect]
    · exact add_zero _
  | exit ha hexit =>
    simp only [receives, loses, label, Option.map_none, Option.getD_none, add_zero,
      onStream_of_same ha (Agent.stream_exit hexit)]
  | logStep ha hlog =>
    have hs := onStream_of_same ha (Agent.stream_logStep hlog) n
    simp only [receives, loses, label, Option.map_none, Option.getD_none, add_zero, ← hs]
    rfl

/-- **Commands in flight.**  A command for node `n` that is in flight after a move was so before, or
the move commits the manager to it; and what was in flight before is so after the move, or the
agent of the node has received it, or it is lost. -/
theorem inFlight_step (hone : w.manager.OneScheduler) (hst : (lts (.fine cfg)).step w mv w')
    (n : String) :
    w'.inFlight n + w.receives n mv + w.loses n mv = w.inFlight n + w.assigns n mv := by
  have P := projection (.fine cfg)
  have hstream := onStream_step hst n
  unfold inFlight assigns
  cases hl : label w mv with
  | none =>
    rw [hl] at hstream
    rw [P.quiet hst hl, add_assoc, add_assoc, ← add_assoc (w'.onStream n), hstream, ← add_assoc]
    rfl
  | some l =>
    have hmgr : w'.manager.outgoing n + w.manager.yields n l + w.manager.drops n l =
        w.manager.outgoing n + w.manager.assigns n l := Conf.outgoing_step hone (P.step hst hl) n
    rw [hl] at hstream
    simp only [Option.map_some, Option.getD_some] at hstream ⊢
    calc w'.manager.outgoing n + w'.onStream n + w.receives n mv + w.loses n mv
        = w'.manager.outgoing n + (w'.onStream n + w.receives n mv + w.loses n mv) := by ac_rfl
      _ = w'.manager.outgoing n + w.manager.yields n l + w.manager.drops n l + w.onStream n := by
        rw [hstream]
        ac_rfl
      _ = w.manager.outgoing n + w.onStream n + w.manager.assigns n l := by
        rw [hmgr]
        ac_rfl

/-! ### Their history -/

/-- The history after a move. -/
def extend (w : World Conf) (h : CommandHistory) (mv : Move) : CommandHistory where
  assigned := fun n => h.assigned n + w.assigns n mv
  received := fun n => h.received n + w.receives n mv
  lost := fun n => h.lost n + w.loses n mv

/-- What the history says about a world. -/
structure Tracked (s : World Conf × CommandHistory) : Prop where
  single : s.1.manager.OneScheduler
  /-- A command of a dispatch is in flight, received or lost. -/
  conserved : ∀ n, s.1.inFlight n + s.2.received n + s.2.lost n = s.2.assigned n
  nodup : ∀ n, (s.2.assigned n).Nodup
  past : ∀ n, ∀ id ∈ s.2.assigned n,
    id.dispatch ≤ dispatchesIn s.1.manager.mgr.history id.jobId
  /-- A row is `RUNNING` since a dispatch. -/
  covered : ∀ row ∈ s.1.manager.mgr.registry.getJobs .running,
    ∀ x ∈ s.1.manager.mgr.launches row, x.2 ∈ s.2.assigned x.1

theorem tracked_start : Tracked (start (.start .empty), .empty) where
  single := Nat.zero_le 1
  conserved := fun _ => rfl
  nodup := fun _ => Multiset.nodup_zero
  past := fun _ _ h => absurd h (Multiset.notMem_zero _)
  covered := fun _ h => absurd h List.not_mem_nil

theorem Tracked.nodup_step {s : World Conf × CommandHistory} (h : Tracked s) {l : Label}
    {c' : Conf} (hx : Conf.exec cfg s.1.manager l = some c') (n : String) :
    (s.2.assigned n + s.1.manager.assigns n l).Nodup := by
  refine Multiset.nodup_add.2 ⟨h.nodup n, Conf.nodup_assigns _ n l, ?_⟩
  refine Multiset.disjoint_left.2 fun {id} hid hnew => ?_
  have hle := h.past n id hid
  have heq := (Conf.dispatch_of_mem_assigns hx hnew).1
  omega

theorem Tracked.past_step {s : World Conf × CommandHistory} (h : Tracked s) {l : Label}
    {c' : Conf} (hx : Conf.exec cfg s.1.manager l = some c') (n : String) {id : CommandId}
    (hid : id ∈ s.2.assigned n + s.1.manager.assigns n l) :
    id.dispatch ≤ dispatchesIn c'.mgr.history id.jobId := by
  rcases Multiset.mem_add.1 hid with hid | hid
  · have hle := h.past n id hid
    rw [Conf.dispatchesIn_step hx]
    omega
  · exact (Conf.dispatch_of_mem_assigns hx hid).2.le

theorem Tracked.covered_step {s : World Conf × CommandHistory} (h : Tracked s) {l : Label}
    {c' : Conf} (hx : Conf.exec cfg s.1.manager l = some c') {row : JobRow}
    (hrow : row ∈ c'.mgr.registry.getJobs .running) {x : String × CommandId}
    (hlaunch : x ∈ c'.mgr.launches row) :
    x.2 ∈ s.2.assigned x.1 + s.1.manager.assigns x.1 l := by
  rcases Conf.running_step hx hrow with ⟨hold, hne⟩ | ⟨y, hy, hid, hnodes⟩
  · -- the row is not dispatched, so its latest dispatch is still the same
    have hcount := Conf.dispatchesIn_step hx row.jobId
    have hno : ((s.1.manager.starts l).any fun y => y.1.jobId = row.jobId) = false := by
      cases hy : s.1.manager.starts l with
      | none => rfl
      | some y => simpa using hne y hy
    rw [hno, if_neg Bool.false_ne_true, add_zero] at hcount
    have hsame : c'.mgr.launches row = s.1.manager.mgr.launches row := by
      simp only [Manager.launches, Manager.launchId, hcount]
    exact Multiset.mem_add.2 (.inl (h.covered row hold x (hsame ▸ hlaunch)))
  · exact Multiset.mem_add.2 (.inr (Conf.mem_assigns hx hy hid hnodes hlaunch))

/-- **In every run** the commands of a dispatch are in flight, received or lost. -/
theorem tracked_step : ((lts (.fine cfg)).recorded extend).Preserves Tracked := by
  rintro ⟨w, h⟩ mv ⟨w', _⟩ ⟨hst, rfl⟩ hs
  have P := projection (.fine cfg)
  have hsingle : w'.manager.OneScheduler :=
    P.preserves (K := Conf.OneScheduler) (fun _ _ _ hst h => Conf.oneScheduler_step h hst) hst
      hs.single
  have hconserved (n : String) : w'.inFlight n + (h.received n + w.receives n mv) +
      (h.lost n + w.loses n mv) = h.assigned n + w.assigns n mv := by
    have hstep := inFlight_step hs.single hst n
    have hold : w.inFlight n + h.received n + h.lost n = h.assigned n := hs.conserved n
    rw [← hold, add_right_comm _ (h.lost n), add_right_comm _ (h.received n), ← hstep]
    ac_rfl
  cases hl : label w mv with
  | none =>
    have hassigns (n : String) : w.assigns n mv = 0 := by rw [assigns, hl]; rfl
    have hsame : w'.manager = w.manager := P.quiet hst hl
    refine ⟨hsingle, hconserved, ?_, ?_, ?_⟩ <;> simp only [extend, hassigns, add_zero, hsame]
    · exact hs.nodup
    · exact hs.past
    · exact hs.covered
  | some l =>
    have hx := P.step hst hl
    have hassigns (n : String) : w.assigns n mv = w.manager.assigns n l := by rw [assigns, hl]; rfl
    refine ⟨hsingle, hconserved, ?_, ?_, ?_⟩ <;> simp only [extend, hassigns]
    · exact fun n => hs.nodup_step hx n
    · exact fun n id hid => hs.past_step hx n hid
    · exact fun row hrow x hlaunch => hs.covered_step hx hrow hlaunch

/-! ### Restarts -/

/-- Every job that is not closed is queued, or it is running and all its nodes have received its
command. -/
def Restored (m : Manager) (received : String → Multiset CommandId) : Prop :=
  ∀ row ∈ m.registry.jobs.rows, row.status = .completed ∨ row.status = .failed ∨
    row.jobId ∈ m.queue.map JobDict.jobId ∨
    row.status = .running ∧ ∀ x ∈ m.launches row, x.2 ∈ received x.1

/-- No job is lost in a restart. -/
def Survives (s : World Conf × CommandHistory) : Move → Prop
  | .manager .restart => Restored s.1.manager.mgr.restart s.2.received
  | _ => True

instance (m : Manager) (received : String → Multiset CommandId) : Decidable (Restored m received) :=
  inferInstanceAs (Decidable (∀ row ∈ m.registry.jobs.rows, _))

instance (s : World Conf × CommandHistory) : (mv : Move) → Decidable (Survives s mv)
  | .manager .restart => inferInstanceAs (Decidable (Restored _ _))
  | .manager (.registerNode ..) | .manager (.sendHeartbeat ..) | .manager (.listenForCommands ..)
  | .manager (.takeCommand ..) | .manager (.reportJobStatus ..) | .manager (.submitJob ..)
  | .manager (.schedulerPass ..) | .manager (.monitorPass ..) | .manager (.probe ..)
  | .manager (.runTask ..) | .join .. | .buildHeartbeat .. | .deliverHeartbeat .. | .listen ..
  | .takeCommand .. | .receive .. | .disconnect .. | .exit .. | .logStep .. | .deliverReport .. =>
    .isTrue trivial

/-- The manager is killed when no command of a running job is in flight, and none is lost. -/
def KilledSettled (s : World Conf × CommandHistory) : Move → Prop
  | .manager .restart =>
    ∀ row ∈ s.1.manager.mgr.registry.getJobs .running, ∀ x ∈ s.1.manager.mgr.launches row,
      x.2 ∉ s.1.inFlight x.1 ∧ x.2 ∉ s.2.lost x.1
  | _ => True

/-- **A restart and the commands of the running jobs.** -/
theorem Tracked.survives_iff_settled {s : World Conf × CommandHistory} (h : Tracked s) (mv : Move) :
    Survives s mv ↔ KilledSettled s mv := by
  unfold Survives KilledSettled
  split
  · have hplace : ∀ row ∈ s.1.manager.mgr.registry.getJobs .running,
        ∀ x ∈ s.1.manager.mgr.launches row,
          (x.2 ∈ s.2.received x.1 ↔ x.2 ∉ s.1.inFlight x.1 ∧ x.2 ∉ s.2.lost x.1) :=
      fun row hrow x hx => mem_middle_iff (h.conserved x.1) (h.nodup x.1) (h.covered row hrow x hx)
    constructor
    · intro hall row hrow x hx
      obtain ⟨hget, hs⟩ := Registry.mem_getJobs.1 hrow
      have hmem : row ∈ s.1.manager.mgr.registry.jobs.rows := Table.mem_of_find? hget
      rcases hall row hmem with hc | hc | hc | ⟨-, hc⟩
      · rw [hs] at hc; cases hc
      · rw [hs] at hc; cases hc
      · -- only pending jobs are recovered
        have hpending := (mem_recoverPendingJobs hmem).1 hc
        rw [hs] at hpending; cases hpending
      · exact (hplace row hrow x hx).1 (hc x hx)
    · intro hall row hmem
      cases hs : row.status with
      | pending => exact .inr (.inr (.inl ((mem_recoverPendingJobs hmem).2 hs)))
      | completed => exact .inl rfl
      | failed => exact .inr (.inl rfl)
      | running =>
        have hrow : row ∈ s.1.manager.mgr.registry.getJobs .running :=
          Registry.mem_getJobs.2 ⟨Table.find?_of_mem hmem, hs⟩
        exact .inr (.inr (.inr ⟨rfl, fun x hx => (hplace row hrow x hx).2 (hall row hrow x hx)⟩))
  · exact Iff.rfl

/-- **Jobs survive a crash, exactly if their commands have arrived.**  In a run from an empty
database, every restart leaves each job that is not closed queued, or running with its command
received by all its nodes, if and only if at every restart no command of the latest dispatch of a
running job is in flight or lost. -/
theorem survives_iff {tr : List (Move × World Conf)}
    (h : (lts (.fine cfg)).Run (start (.start .empty)) tr) :
    LTS.StepsMeet Survives (start (.start .empty), .empty)
        (LTS.record extend (start (.start .empty)) .empty tr) ↔
      LTS.StepsMeet KilledSettled (start (.start .empty), .empty)
        (LTS.record extend (start (.start .empty)) .empty tr) :=
  (h.record extend .empty).stepsMeet_congr tracked_step (fun _ mv hs => hs.survives_iff_settled mv)
    tracked_start

/-- The run in which a job is launched on both of its nodes, and the manager is killed then. -/
theorem survives_iff_launched :
    let tr := LTS.runOf (exec (.fine Sample.setup)) (start (.start .empty))
      (Sample.launchTwo true ++ [.manager .restart])
    LTS.StepsMeet Survives (start (.start .empty), .empty)
        (LTS.record extend (start (.start .empty)) .empty tr) ↔
      LTS.StepsMeet KilledSettled (start (.start .empty), .empty)
        (LTS.record extend (start (.start .empty)) .empty tr) :=
  survives_iff (LTS.run_runOf _ _ _)

/-- The manager is killed when the row has just been set `RUNNING`. -/
theorem survives_fails :
    ¬ ∀ (cfg : Setup) (tr : List (Move × World Conf)),
      (lts (.fine cfg)).Run (start (.start .empty)) tr →
        LTS.StepsMeet Survives (start (.start .empty), .empty)
          (LTS.record extend (start (.start .empty)) .empty tr) := by
  intro hall
  have hrun := hall Sample.setup _ (LTS.run_runOf (exec (.fine Sample.setup))
    (start (.start .empty))
    ([.join "node-1" "secret-1" Sample.node 100] ++ Sample.calls true 1 100 ++
      [.manager (.submitJob "job-1" (Sample.job 1 1) 101)] ++ Sample.calls true 1 101 ++
      [.manager (.schedulerPass 102)] ++ Sample.calls true 3 102 ++ [.manager .restart]))
  exact absurd hrun (by decide +kernel)

end World

end Dmlf
