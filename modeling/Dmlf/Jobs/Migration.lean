import Dmlf.Jobs.Pass
import Dmlf.Jobs.Specification
import Dmlf.Manager.Serial
import Dmlf.Registry.Schema
import Mathlib.Data.Fintype.EquivFin

/-!
# The jobs of a migrated database

`insert_job` and `dispatch_allocated_job` give an absent key of a job its default.  In a row of a
database that `_init_db` has migrated the keys are there, and their values are `NULL`, which is not
the same: the fields of the payload stay unset.

* `Conf.exists_launch_iff` : some run launches a pending job, exactly if it asks for nodes.
* `keepsMeaning_iff` : a migrated database keeps the meaning of its jobs exactly if none of those
  that are pending is ever launched.
-/

namespace Dmlf

/-! ### Jobs that ask for no node -/

/-- The job that the scheduler has nodes for asks for some. -/
def Task.AsksForNodes : Task → Prop
  | .schedReserve job _ _ | .schedSend job _ _ => job.requiredNodes ≠ 0
  | _ => True

theorem allocate_zero (score : NodeRow → ℚ) (available : List NodeRow) :
    allocate score available 0 = [] := by
  simp [allocate, sliceTo]

theorem allocate_ne_nil (score : NodeRow → ℚ) {available : List NodeRow} {k : ℤ} (hk : k ≠ 0)
    (henough : k.natAbs < available.length) : allocate score available k ≠ [] := by
  have hlen : 0 < (allocate score available k).length := by
    unfold allocate sliceTo
    rw [if_neg (by omega)]
    split_ifs <;> rw [List.length_take, List.length_insertionSort] <;> omega
  exact List.ne_nil_of_length_pos hlen

theorem Task.asksForNodes_step {cfg : Setup} {now : Time} {m : Manager} {t t' : Task}
    (h : t.AsksForNodes) (ht : (t.step cfg now m).2 = some t') : t'.AsksForNodes := by
  cases next_of_step ht with
  | retryWrite | retryAppend | failed | tooFew | monLoop | lost | passed | marked | appended =>
    trivial
  | selected job nodes hnodes hne =>
    intro hzero
    rw [hzero, allocate_zero] at hnodes
    exact hne hnodes
  | reserved | started | sent => exact h

namespace Conf

variable {cfg : Setup} {c c' : Conf} {l : Label}

/-- The jobs that are launched ask for nodes. -/
structure AsksForNodes (c : Conf) : Prop where
  tasks : ∀ t ∈ c.tasks, t.AsksForNodes
  commands : ∀ n q command, c.mgr.commandQueues n = some q → command ∈ q →
    command.jobPayload.nnodes ≠ 0

theorem AsksForNodes.builds (h : c.AsksForNodes) {command : Command} (hb : Builds cfg c command) :
    command.jobPayload.nnodes ≠ 0 := by
  obtain ⟨job, masterAddr, node, rank, todo, hmem, rfl⟩ := hb
  exact h.tasks _ hmem

theorem AsksForNodes.launches (h : c.AsksForNodes) {command : Command}
    (hc : Launches cfg c command) : command.jobPayload.nnodes ≠ 0 := by
  rcases hc with hb | ⟨n, q, hq, hmem⟩
  · exact h.builds hb
  · exact h.commands n q command hq hmem

theorem asksForNodes_start (reg : Registry) : (start reg).AsksForNodes where
  tasks := fun _ ht => absurd ht List.not_mem_nil
  commands := by rintro n q command ⟨⟩

theorem preserves_asksForNodes : (fine cfg).Preserves AsksForNodes := by
  intro c l c' hst h
  refine ⟨fun t ht => ?_, fun n q command hq hc => ?_⟩
  · have hafter := taskAfter hst ht
    generalize c'.mgr = m at hafter
    cases hafter with
    | kept ht => exact h.tasks t ht
    | begun hbegun => cases hbegun <;> trivial
    | next hi _ hnext =>
      exact Task.asksForNodes_step (h.tasks _ (List.mem_of_getElem? hi)) hnext
  · rcases mem_commandQueues hst hq hc with ⟨q', hq', hc'⟩ | hb
    · exact h.commands n q' command hq' hc'
    · exact h.builds hb

end Conf

/-! ### A run that launches a job -/

theorem Registry.freshNodes_registerNode {reg : Registry} {n : String}
    (hnew : n ∉ reg.nodes.rows.map NodeRow.nodeId) (h ip c g ram sec) (now : Time) :
    ((reg.registerNode n h ip c g ram sec now).freshNodes now).length =
      (reg.freshNodes now).length + 1 := by
  unfold registerNode
  dsimp only
  rw [Table.insert?, dif_pos hnew]
  simp [freshNodes, List.filter_append]

namespace Manager

variable {cfg : Setup} {m : Manager} {now : Time}

/-- A report that the job is completed. -/
def completion (j : String) : JobStatusRequest := ⟨"", j, "completed"⟩

theorem reportJobStatus_completion (m : Manager) (j : String) (now : Time) :
    m.reportJobStatus (completion j) now =
      ((m.closeJob j .completed 0 now).updateNodeState "" .idle).decJobsRunning := by
  have hlower : lower "completed" = "completed" := by decide +kernel
  have hf : (completion j).isFailure = false := by
    simp [completion, JobStatusRequest.isFailure, hlower]
  have hc : (completion j).isCompletion = true := by
    simp [completion, JobStatusRequest.isCompletion, hlower]
  rw [reportJobStatus, hf, hc, if_neg Bool.false_ne_true, if_pos rfl]
  rfl

theorem exists_completed (cfg : Setup) (m : Manager) (ids : List String) :
    ∃ m', (serial cfg).Reachable m m' ∧ ∀ row, row ∈ m'.registry.getJobs .pending ↔
      row ∈ m.registry.getJobs .pending ∧ row.jobId ∉ ids := by
  induction ids generalizing m with
  | nil => exact ⟨m, .start, by simp⟩
  | cons j ids ih =>
    obtain ⟨m', hm', hpending⟩ := ih (m.reportJobStatus (completion j) 0)
    have hstep : (serial cfg).Reachable m (m.reportJobStatus (completion j) 0) :=
      .of_exec (.reportJobStatus (completion j) 0) rfl
    refine ⟨m', hstep.append hm', fun row => ?_⟩
    have hclosed : row ∈ (m.reportJobStatus (completion j) 0).registry.getJobs .pending ↔
        row ∈ m.registry.getJobs .pending ∧ row.jobId ≠ j := by
      rw [reportJobStatus_completion]
      exact Registry.mem_getJobs_updateJob (JobRow.jobId_withStatus .completed none (some 0) 0)
        (by simp [JobRow.withStatus]) row
    rw [hpending, hclosed, List.mem_cons, not_or, and_assoc]

theorem exists_onlyQueued (cfg : Setup) {row : JobRow}
    (hrow : row ∈ m.registry.getJobs .pending) :
    ∃ m', (serial cfg).Reachable m m' ∧ m'.queue = [row.toDict] := by
  let others := ((m.registry.getJobs .pending).map JobRow.jobId).filter (· ≠ row.jobId)
  obtain ⟨m₁, hm₁, hpending⟩ := exists_completed cfg m others
  have honly : ∀ r, r ∈ m₁.registry.getJobs .pending ↔ r ∈ [row] := by
    intro r
    rw [hpending, List.mem_singleton]
    constructor
    · rintro ⟨hr, hid⟩
      by_contra hne
      refine hid (List.mem_filter.2 ⟨List.mem_map_of_mem hr, ?_⟩)
      rw [decide_eq_true_eq]
      exact fun heq => hne (List.inj_on_of_nodup_map (m.registry.nodup_getJobs _) hr hrow heq)
    · rintro rfl
      exact ⟨hrow, fun hid => by simp [others] at hid⟩
  have hperm : (m₁.registry.getJobs .pending).Perm [row] :=
    (List.perm_ext_iff_of_nodup (m₁.registry.nodup_getJobs _).of_map (List.nodup_singleton _)).2
      honly
  refine ⟨m₁.restart, hm₁.append (.of_exec .restart rfl), ?_⟩
  exact List.perm_singleton.1
    ((perm_recoverPendingJobs m₁.registry).trans (hperm.map JobRow.toDict))

theorem exists_freshNodes (cfg : Setup) (m : Manager) (now : Time) (k : ℕ) :
    ∃ m', (serial cfg).Reachable m m' ∧ m'.queue = m.queue ∧
      k ≤ (m'.registry.freshNodes now).length := by
  induction k with
  | zero => exact ⟨m, .start, rfl, Nat.zero_le _⟩
  | succ k ih =>
    obtain ⟨m', hm', hqueue, hk⟩ := ih
    obtain ⟨n, hn⟩ := Infinite.exists_notMem_finset
      (m'.registry.nodes.rows.map NodeRow.nodeId).toFinset
    rw [List.mem_toFinset] at hn
    have hnew : (m'.registry.getNode n).isNone := by
      rw [Option.isNone_iff_eq_none]
      exact Table.find?_eq_none_iff.2 hn
    refine ⟨m'.registerNode n "" Sample.node now, hm'.append
      (.of_exec (.registerNode n "" Sample.node now) (if_pos hnew)), hqueue, ?_⟩
    exact (Nat.succ_le_succ hk).trans_eq (Registry.freshNodes_registerNode hn ..).symm

end Manager

namespace Conf

variable {cfg : Setup} {c : Conf}

/-- A pass that picks nodes for the top job comes to send its commands. -/
theorem reachable_schedSend_of_picks {m : Manager} {now : Time} {job : JobDict}
    {queue : List JobDict} (hq : m.queue = job :: queue) (hpicks : m.picks cfg now job ≠ []) :
    ∃ m' masterAddr, (fine cfg).Reachable ⟨m, []⟩
      ⟨m', [.schedSend job masterAddr (m.picks cfg now job).zipIdx]⟩ := by
  have hpop : (fine cfg).Reachable ⟨m, []⟩ ⟨{ m with queue }, [.schedSelect job]⟩ := by
    refine .of_exec (.schedulerPass now) ?_
    simp only [exec, List.any_nil, Bool.false_eq_true, if_false, Manager.beginSchedulerPass, hq]
    rfl
  have hselect : (Task.schedSelect job).step cfg now { m with queue } =
      (m.popTopJob queue now,
        some (.schedReserve job (m.picks cfg now job) (m.picks cfg now job))) := by
    have hnodes : allocate cfg.scoreNode (m.registry.getAvailableNodes now).2 job.requiredNodes =
        m.picks cfg now job := m.selectNodes_eq job
    simp only [Task.step, hnodes, List.isEmpty_iff, if_neg hpicks]
    rfl
  have hreserve : (fine cfg).Reachable ⟨m, []⟩ ⟨m.popTopJob queue now,
      [.schedReserve job (m.picks cfg now job) (m.picks cfg now job)]⟩ := by
    have hstep := hpop.append (reachable_runTask _ _ now)
    rw [hselect] at hstep
    exact hstep
  exact ⟨_, _, hreserve.append (@reachable_schedReserve cfg now job _ _ _)⟩

theorem exists_launch (cfg : Setup) {reg : Registry} {row : JobRow}
    (hrow : row ∈ reg.getJobs .pending) (hne : row.requiredNodes ≠ 0) :
    ∃ c command, (fine cfg).Reachable (start reg) c ∧ Launches cfg c command ∧
      command.jobPayload.jobId = row.jobId := by
  obtain ⟨m₁, hm₁, hqueue₁⟩ := Manager.exists_onlyQueued cfg (m := .serve reg []) hrow
  obtain ⟨m₂, hm₂, hqueue₂, henough⟩ :=
    Manager.exists_freshNodes cfg m₁ 0 (row.requiredNodes.natAbs + 1)
  have hpicks : m₂.picks cfg 0 row.toDict ≠ [] := allocate_ne_nil cfg.scoreNode hne henough
  obtain ⟨m', masterAddr, hsend⟩ := reachable_schedSend_of_picks (hqueue₂.trans hqueue₁) hpicks
  obtain ⟨node, nodes, hnodes⟩ := List.exists_cons_of_ne_nil hpicks
  rw [hnodes] at hsend
  exact ⟨_, m'.launchCommand cfg row.toDict masterAddr 0,
    (reachable_of_serial (hm₁.append hm₂)).append hsend,
    .inl ⟨row.toDict, masterAddr, node, 0, nodes.zipIdx 1, List.mem_singleton_self _, rfl⟩, rfl⟩

/-- **A pending job may be launched** exactly if it asks for nodes. -/
theorem exists_launch_iff (cfg : Setup) {reg : Registry} {row : JobRow}
    (hrow : row ∈ reg.getJobs .pending) :
    (∃ c command, (fine cfg).Reachable (start reg) c ∧ Launches cfg c command ∧
      command.jobPayload.jobId = row.jobId) ↔ row.requiredNodes ≠ 0 := by
  refine ⟨?_, exists_launch cfg hrow⟩
  rintro ⟨c, command, hc, hlaunch, hj⟩ hzero
  have hnnodes : command.jobPayload.nnodes = row.requiredNodes :=
    congrArg JobSpec.nnodes (launches_of_getJob (Registry.mem_getJobs.1 hrow).1 hc hlaunch hj)
  exact (hc.keeps preserves_asksForNodes (asksForNodes_start reg)).launches hlaunch
    (hnnodes.trans hzero)

end Conf

/-! ### Migrated databases -/

/-- The payload has the defaults of `insert_job`. -/
def CarriesDefaults (payload : JobPayload) : Prop :=
  payload.checkpointIntervalMinutes = 5 ∧ payload.backend = "gloo"

/-- `_init_db` keeps the meaning of the jobs in the file `db`: those that are pending are launched
with the defaults, in every run of a manager that is started on the file, all columns that are there
stay as they are, and the second time nothing happens. -/
structure KeepsMeaning (cfg : Setup) (db : Database) : Prop where
  defaults : ∀ reg : Registry, reg.database = initDb db → ∀ row ∈ reg.getJobs .pending, ∀ c,
    (Conf.fine cfg).Reachable (Conf.start reg) c → ∀ command, Conf.Launches cfg c command →
      command.jobPayload.jobId = row.jobId → CarriesDefaults command.jobPayload
  columns : ∀ name t, db name = some t → ∃ t', ∃ added : List String, initDb db name = some t' ∧
    t'.dicts = t.dicts.map (· ++ added.map fun column => (column, SqlValue.null))
  again : initDb (initDb db) = initDb db

theorem not_carriesDefaults {row : JobRow} {payload : JobPayload}
    (h : JobSpec.ofPayload payload = .ofRow row.withoutSettings) : ¬ CarriesDefaults payload := by
  rintro ⟨hinterval, -⟩
  have hzero : payload.checkpointIntervalMinutes = 0 :=
    congrArg JobSpec.checkpointIntervalMinutes h
  omega

/-- **What a migration does to pending jobs.**  A database of an earlier version keeps the meaning
of its jobs exactly if no pending job asks for nodes. -/
theorem keepsMeaning_iff (cfg : Setup) (reg : Registry) (hasSecrets : Bool) :
    KeepsMeaning cfg (reg.earlierDatabase hasSecrets) ↔
      ∀ row ∈ reg.getJobs .pending, row.requiredNodes = 0 := by
  constructor
  · intro h row hrow
    by_contra hne
    have hmigrated : row.withoutSettings ∈ (reg.migrated hasSecrets).getJobs .pending := by
      rw [reg.getJobs_migrated]
      exact List.mem_map_of_mem hrow
    obtain ⟨c, command, hc, hlaunch, hj⟩ := Conf.exists_launch cfg hmigrated hne
    have hspec := Conf.launches_of_getJob (Registry.mem_getJobs.1 hmigrated).1 hc hlaunch hj
    have hdatabase := (initDb_earlierDatabase reg hasSecrets).symm
    exact not_carriesDefaults hspec
      (h.defaults _ hdatabase _ hmigrated c hc command hlaunch hj)
  · intro h
    refine ⟨fun reg' hreg' row hrow c hc command hlaunch hj => ?_, fun name t ht => ?_,
      initDb_initDb _⟩
    · -- a pending job asks for no node, and so it is never launched
      have hasks := (Conf.exists_launch_iff cfg hrow).1 ⟨c, command, hc, hlaunch, hj⟩
      rw [Registry.getJobs_of_database hreg'] at hrow
      obtain ⟨row₀, hrow₀, rfl⟩ := List.mem_map.1 hrow
      exact absurd (h row₀ hrow₀) hasks
    · obtain ⟨added, hadded⟩ := initDb_extends ht
      exact ⟨_, added, hadded, t.dicts_addColumns added⟩

/-- A registry with one job, which waits for one node. -/
def Sample.registry : Registry :=
  (Registry.empty.insertJob ((job 1 3).toDict "job-1") 100).getD .empty

/-- A pending job for one node is launched without a checkpoint interval. -/
theorem keepsMeaning_fails :
    ¬ KeepsMeaning Sample.setup (Sample.registry.earlierDatabase true) := by
  intro h
  let reg := Sample.registry.migrated true
  have hrun : (LTS.exec (Conf.exec Sample.setup) (Conf.start reg) (.registerNode "node-1" "secret-1"
      Sample.node 101 :: .runTask 0 101 :: Sample.dispatchOne 102)).any (fun c =>
    (c.mgr.commandQueues "node-1").any fun q => q.any fun command =>
      command.jobPayload.jobId = "job-1" &&
        command.jobPayload.checkpointIntervalMinutes = 0) = true := by
    decide +kernel
  obtain ⟨c, command, hc, hlaunch, hp⟩ := Conf.exists_launches_of_exec hrun
  obtain ⟨hj, hzero⟩ := (Bool.and_eq_true _ _).mp hp
  obtain ⟨row, hrow, hid⟩ : ∃ row ∈ reg.getJobs .pending, row.jobId = "job-1" := by
    decide +kernel
  have hdefaults := h.defaults reg (initDb_earlierDatabase _ true).symm row hrow c hc command
    hlaunch ((of_decide_eq_true hj).trans hid.symm)
  rw [CarriesDefaults, of_decide_eq_true hzero] at hdefaults
  exact absurd hdefaults.1 (by decide)

end Dmlf
