import Dmlf.Jobs.NoLoss
import Dmlf.Manager.Serial
import Dmlf.Manager.Actions
import Dmlf.Cluster.Basic

/-!
# Duplicate and zombie queue entries

Even if handlers and passes are taken one at a time, the queue may hold a job twice, or a job that
is running or over: `ReportJobStatus` acts on a report whatever the state of the job, and so a
second failing node retries a job that is pending already.

* `World.queueClean_iff` : the queue of a run stays clean exactly as long as no failure and no
  completion of a pending job is handled.
* `World.queueClean_fails` : both nodes of a job fail.
-/

namespace Dmlf

namespace Manager

variable {cfg : Setup} {m m' : Manager} {now : Time}

/-- The queue holds each job at most once, and pending jobs only. -/
def QueueClean (m : Manager) : Prop :=
  (m.queue.map JobDict.jobId).Nodup ∧
    ∀ e ∈ m.queue, ∃ row, m.registry.getJob e.jobId = some row ∧ row.status = .pending

/-- A failure or a completion that is handled is not about a pending job. -/
def ReportsActive (m : Manager) : Label → Prop
  | .reportJobStatus req _ => (req.isFailure || req.isCompletion) = true →
      ∀ row ∈ m.registry.getJob req.jobId, row.status ≠ .pending
  | _ => True

theorem queueClean_iff_clean (hk : (m.ledger 0).Kept) : m.QueueClean ↔ (m.ledger 0).Clean := by
  have htickets : ∀ j, (m.ledger 0).tickets.count j = (m.queue.map JobDict.jobId).count j := by
    intro j
    rw [show (m.ledger 0).tickets = ↑(m.queue.map JobDict.jobId) from add_zero _,
      Multiset.coe_count]
  constructor
  · -- a pending job has an entry at all because none is lost
    rintro ⟨hnd, hpend⟩ j
    rw [htickets]
    constructor
    · intro hw
      have hmem : j ∈ (m.ledger 0).tickets := hk j hw
      rw [← Multiset.count_pos, htickets] at hmem
      exact le_antisymm (List.nodup_iff_count_le_one.1 hnd j) hmem
    · intro hw
      refine List.count_eq_zero.2 fun hj => hw ?_
      obtain ⟨e, he, rfl⟩ := List.mem_map.1 hj
      exact waiting_iff.2 (hpend e he)
  · intro hc
    refine ⟨List.nodup_iff_count_le_one.2 fun j => ?_, fun e he => ?_⟩
    · rw [← htickets]
      by_cases hw : (m.ledger 0).Waiting j
      · exact ((hc j).1 hw).le
      · exact ((hc j).2 hw).le.trans (Nat.zero_le 1)
    · by_contra hw
      have hz := (hc e.jobId).2 fun h => hw (waiting_iff.1 h)
      rw [htickets] at hz
      exact List.count_eq_zero.1 hz (List.mem_map_of_mem he)

/-! ### One step -/

theorem notWaiting_reportAct (m : Manager) (req : JobStatusRequest) (now : Time) :
    (m.ledger 0).NotWaiting (m.reportAct req) ↔ m.ReportsActive (.reportJobStatus req now) := by
  unfold reportAct ReportsActive
  cases hj : m.registry.getJob req.jobId with
  | none => simp [hj, Ledger.NotWaiting]
  | some job =>
    have hid := Registry.jobId_of_getJob hj
    have hw : (m.ledger 0).Waiting req.jobId ↔ job.status = .pending := by simp [waiting_iff, hj]
    cases hf : req.isFailure with
    | true =>
      by_cases hlt : job.retries < job.maxRetries <;>
        simp [hj, hf, hlt, Ledger.NotWaiting, hid, hw]
    | false => cases hc : req.isCompletion <;> simp [hj, hf, hc, Ledger.NotWaiting, hw]

theorem notWaiting_serialAct {l : Label} :
    (m.ledger 0).NotWaiting (m.serialAct cfg l) ↔ m.ReportsActive l := by
  cases l with
  | reportJobStatus req now => exact notWaiting_reportAct m req now
  | schedulerPass now =>
    rw [serialAct]
    cases m.dispatches cfg (.schedulerPass now) <;> exact Iff.rfl
  | registerNode | sendHeartbeat | listenForCommands | takeCommand | submitJob | monitorPass
    | probe | restart | runTask => exact Iff.rfl

theorem clean_monitorPass (hc : (m.ledger 0).Clean) :
    ((m.monitorPass cfg now).ledger 0).Clean := by
  refine ledger_monitorPass hc fun L job hjob hL hit _ hen => (Ledger.clean_iff hL hen).2 ?_
  -- the row has not changed since the monitor read it as `RUNNING`
  have hnw : ¬ L.Waiting job.jobId := by
    rintro ⟨it, hit', hw⟩
    obtain rfl := Option.some.inj (hit.symm.trans hit')
    rw [JobRow.item, (Registry.mem_getJobs.1 hjob).2] at hw
    cases hw
  unfold Task.act
  dsimp only
  split_ifs <;> first | exact hnw | trivial

/-- One handler or pass keeps the ledger clean exactly if it handles no report of a pending job. -/
theorem clean_step {l : Label} (hw : (⟨m, []⟩ : Conf).WellFormed) (hc : (m.ledger 0).Clean)
    (hst : m.perform cfg l = some m') : (m'.ledger 0).Clean ↔ m.ReportsActive l := by
  by_cases hl : ∃ now, l = .monitorPass now
  · obtain ⟨now, rfl⟩ := hl
    obtain rfl := Option.some.inj hst
    exact iff_of_true (clean_monitorPass hc) trivial
  · obtain ⟨hen, happ⟩ := ledger_perform hw hst fun now h => hl ⟨now, h⟩
    rw [happ, Ledger.clean_iff hc hen, notWaiting_serialAct]

/-- Entries refer to known jobs, and every pending job has one. -/
def Sound (m : Manager) : Prop := (⟨m, []⟩ : Conf).WellFormed ∧ (m.ledger 0).Kept

theorem sound_serve (reg : Registry) : (serve reg []).Sound :=
  ⟨Conf.wellFormed_start reg, Conf.kept_start reg⟩

theorem preserves_sound : (serial cfg).Preserves Sound := fun _ _ _ hst h =>
  (Conf.reachable_of_perform hst).keeps Conf.preserves_kept h

theorem queueClean_step {l : Label} (h : m.Sound) (hc : m.QueueClean)
    (hst : m.perform cfg l = some m') : m'.QueueClean ↔ m.ReportsActive l := by
  rw [queueClean_iff_clean (preserves_sound hst h).2]
  exact clean_step h.1 ((queueClean_iff_clean h.2).1 hc) hst

theorem queueClean_serve (reg : Registry) : (serve reg []).QueueClean := by
  refine (queueClean_iff_clean (sound_serve reg).2).2 ?_
  intro j
  obtain ⟨happ, hen⟩ := ledger_restart (m := serve reg []) (H := 0)
  rw [show (serve reg []).ledger 0 =
    ((serve reg []).ledger 0).apply (.restart (serve reg []).pendingIds) from happ]
  exact ⟨fun hw => Multiset.count_eq_one_of_mem hen.1 ((hen.2 j).2 hw),
    fun hw => Multiset.count_eq_zero_of_notMem fun h => hw ((hen.2 j).1 h)⟩

end Manager

namespace World

variable {cfg : Setup} {reg : Registry}

/-- **No duplicate or zombie queue entries, exactly if no pending job is reported.**  All states
of a run of the cluster have a clean queue if and only if no failure and no completion is handled
whose job is pending. -/
theorem queueClean_iff {tr : List (Move × World Manager)}
    (h : (lts (.serial cfg)).Run (start (.serve reg [])) tr) :
    LTS.StatesMeet (fun w => w.manager.QueueClean) (start (.serve reg [])) tr ↔
      LTS.StepsMeet (LTS.Lift World.manager label Manager.ReportsActive)
        (start (.serve reg [])) tr := by
  have P := projection (.serial cfg)
  have hstep : ∀ (m : Manager) l m', m.Sound → m.QueueClean → (Manager.serial cfg).step m l m' →
      (m'.QueueClean ↔ m.ReportsActive l) := fun _ _ _ hs hc hst =>
    Manager.queueClean_step hs hc hst
  exact h.statesMeet_iff_stepsMeet (P.preserves Manager.preserves_sound) (P.exact_step hstep)
    (Manager.sound_serve reg) (Manager.queueClean_serve reg)

/-- The run in which one node of a job fails. -/
theorem queueClean_iff_one_failure :
    let s := start (.serve .empty [])
    let tr := LTS.runOf (exec (.serial Sample.setup)) s
      (Sample.launchTwo false ++ Sample.finish "node-1" 0 1 ++ [.deliverReport 0 110])
    LTS.StatesMeet (fun w => w.manager.QueueClean) s tr ↔
      LTS.StepsMeet (LTS.Lift World.manager label Manager.ReportsActive) s tr :=
  queueClean_iff (LTS.run_runOf (exec (.serial Sample.setup)) _ _)

/-- Both nodes of a job with one retry fail: the second report fails the job for good, and leaves
the entry of the first one in the queue. -/
theorem queueClean_fails :
    ¬ ∀ (cfg : Setup) (reg : Registry) (w : World Manager),
      (lts (.serial cfg)).Reachable (start (.serve reg [])) w → w.manager.QueueClean := by
  intro hall
  obtain ⟨w, hw, hp⟩ := LTS.exists_of_exec (exec (.serial Sample.setup))
    (start (.serve .empty []))
    (Sample.launchTwo false ++ Sample.finish "node-1" 0 1 ++ [.deliverReport 0 110] ++
      Sample.finish "node-2" 0 1 ++ [.deliverReport 0 111])
    (fun w => w.manager.queue.any fun e =>
      (w.manager.registry.getJob e.jobId).any fun row => row.status = .failed)
    (by decide +kernel)
  obtain ⟨e, he, hfail⟩ := List.any_eq_true.1 hp
  obtain ⟨row, hrow, hs⟩ := (Option.any_eq_true _ _).1 hfail
  obtain ⟨row', hrow', hpend⟩ := (hall _ _ w hw).2 e he
  obtain rfl : row = row' := Option.some.inj (hrow.symm.trans hrow')
  rw [hpend] at hs
  cases of_decide_eq_true hs

end World

end Dmlf
