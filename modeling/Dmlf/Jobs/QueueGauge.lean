import Dmlf.Manager.Calls
import Dmlf.Manager.Lifecycle

/-!
# The gauge of queued jobs

`SubmitJob` increments `JOBS_QUEUED` and `dispatch_allocated_job` decrements it, but entries also
come from `retry_job` and from the recovery of a starting manager.

* `Conf.uncounted` : the entries that the gauge misses.
* `Conf.uncounted_step` : an append by `retry_job` adds one, and a restart leaves the recovered
  entries.
* `Conf.gaugeExact_iff` : the gauge is exact in all states of a run exactly if neither happens.
-/

namespace Dmlf

namespace Task

/-- The entry that the scheduler holds. -/
def held : Task → ℤ
  | .schedSelect _ | .schedRequeue _ | .schedReserve .. => 1
  | _ => 0

/-- The next call is the append of `retry_job`. -/
def isRetryAppend : Task → Bool
  | .retryAppend _ | .monAppend .. => true
  | _ => false

/-- What the next call adds to the gauge. -/
def gaugeDelta : Task → ℤ
  | .submitAppend _ => 1
  | .schedReserve _ _ [] => -1
  | _ => 0

theorem jobsQueued_step (cfg : Setup) (now : Time) (m : Manager) (t : Task) :
    (t.step cfg now m).1.gauges.jobsQueued = m.gauges.jobsQueued + t.gaugeDelta := by
  cases t with
  | submitAppend => rfl
  | registerQueue | retrySetIdle | retryWrite | retryAppend | failWrite | schedSelect
    | schedRequeue | monJobs | monAppend | monCount => exact (add_zero _).symm
  | closedSetIdle req =>
    simp only [step, gaugeDelta, add_zero]
    split_ifs <;> rfl
  | schedReserve job nodes todo =>
    cases todo with
    | nil => rfl
    | cons node todo => exact (add_zero _).symm
  | schedSend job masterAddr todo =>
    cases todo with
    | nil => exact (add_zero _).symm
    | cons x todo =>
      simp only [step, Manager.sendCommand, gaugeDelta, add_zero]
      split <;> rfl
  | monLoop offline jobs =>
    cases jobs with
    | nil => exact (add_zero _).symm
    | cons job jobs =>
      simp only [step, gaugeDelta, add_zero]
      split_ifs <;> rfl

/-- The next call of a task: the entries that appear in the queue and in the hands of the
scheduler are those that the gauge counts, but for an append by `retry_job`. -/
theorem uncounted_step (cfg : Setup) (now : Time) (m : Manager) (t : Task) :
    (t.queueAfter m.queue).length + ((t.step cfg now m).2.toList.map held).sum - t.gaugeDelta =
      m.queue.length + t.held + if t.isRetryAppend then 1 else 0 := by
  have happ : ∀ job, (appendSorted m.queue job).length = m.queue.length + 1 := fun job =>
    (perm_appendSorted m.queue job).length_eq
  cases t with
  | submitAppend | retryAppend | monAppend =>
    simp [queueAfter, step, held, gaugeDelta, isRetryAppend, happ]
  | registerQueue | retrySetIdle | retryWrite | failWrite | closedSetIdle | schedRequeue | monJobs
    | monCount => simp [queueAfter, step, held, gaugeDelta, isRetryAppend]
  | schedSelect job =>
    -- the entry is still held, whichever task comes next
    simp only [queueAfter, step, gaugeDelta, isRetryAppend, Bool.false_eq_true, if_false]
    split_ifs <;> simp [held]
  | schedReserve job nodes todo =>
    cases todo <;> simp [queueAfter, step, held, gaugeDelta, isRetryAppend]
  | schedSend job masterAddr todo =>
    cases todo <;> simp [queueAfter, step, held, gaugeDelta, isRetryAppend]
  | monLoop offline jobs =>
    cases jobs with
    | nil => simp [queueAfter, step, held, gaugeDelta, isRetryAppend]
    | cons job jobs =>
      simp only [queueAfter, step, gaugeDelta, isRetryAppend, Bool.false_eq_true, if_false]
      split_ifs <;> simp [held]

end Task

namespace Conf

variable {cfg : Setup} {c c' : Conf} {l : Label}

/-- The queue entries and the one that the scheduler holds, less what the gauge says. -/
def uncounted (c : Conf) : ℤ :=
  c.mgr.queue.length + (c.tasks.map Task.held).sum - c.mgr.gauges.jobsQueued

/-- The gauge is the number of queue entries with the one that the scheduler holds. -/
def GaugeExact (c : Conf) : Prop :=
  c.mgr.gauges.jobsQueued = c.mgr.queue.length + (c.tasks.map Task.held).sum

theorem gaugeExact_iff_uncounted : c.GaugeExact ↔ c.uncounted = 0 := by
  unfold GaugeExact uncounted
  omega

/-- The entries that a call other than a restart hides from the gauge: the one that `retry_job`
appends. -/
def hides (c : Conf) : Label → ℤ
  | .runTask i _ => if c.tasks[i]?.any Task.isRetryAppend then 1 else 0
  | _ => 0

theorem uncounted_spawn (c : Conf) {m : Manager} {t : Option Task} (hq : m.queue = c.mgr.queue)
    (hg : m.gauges = c.mgr.gauges) (ht : ∀ t' ∈ t, t'.held = 0) :
    (c.spawn (m, t)).uncounted = c.uncounted := by
  have hsum : (t.toList.map Task.held).sum = 0 := by
    cases t with
    | none => rfl
    | some t => simpa using ht t rfl
  simp only [uncounted, spawn, hq, hg, List.map_append, List.sum_append, hsum, add_zero]

theorem uncounted_serve (reg : Registry) (history : List Event) :
    (⟨.serve reg history, []⟩ : Conf).uncounted = (reg.getJobs .pending).length := by
  have hlen : (recoverPendingJobs reg).length = (reg.getJobs .pending).length := by
    rw [(perm_recoverPendingJobs reg).length_eq, List.length_map]
  simp [uncounted, Manager.serve, Gauges.zero, hlen]

/-- **What a call does to the entries that the gauge misses.** -/
theorem uncounted_step (hst : exec cfg c l = some c') (hl : l ≠ .restart) :
    c'.uncounted = c.uncounted + c.hides l := by
  cases call hst with
  | @first l m t h =>
    have hhides : c.hides l = 0 := by cases h <;> rfl
    rw [hhides, add_zero]
    cases h with
    | registerNode | reportRetry | reportFail | reportCompleted | submitJob | noneOffline
      | someOffline => exact uncounted_spawn c rfl rfl (by rintro _ ⟨⟩; rfl)
    | sendHeartbeat | listenForCommands | takeCommand | reportIgnored | noJob | probe =>
      exact uncounted_spawn c rfl rfl (by rintro _ ⟨⟩)
    | popJob _ hq =>
      -- the top entry moves to the hands of the scheduler
      simp only [uncounted, spawn, hq, List.length_cons, List.map_append, List.sum_append,
        Option.toList_some, List.map_singleton, List.sum_singleton, Task.held]
      omega
  | restart => exact absurd rfl hl
  | @next i now t hi =>
    obtain ⟨rest, hsum, hsum'⟩ := sum_resume Task.held c hi (t.step cfg now c.mgr)
    have htask := Task.uncounted_step cfg now c.mgr t
    simp only [uncounted, hsum, hsum', hides, hi, Option.any_some]
    simp only [resume, Task.queue_step, Task.jobsQueued_step]
    omega

/-- A call that leaves no entry out of the gauge: it is no append of `retry_job`, and no restart
that recovers jobs. -/
def CountsEntries (c : Conf) : Label → Prop
  | .restart => c.mgr.registry.getJobs .pending = []
  | .runTask i _ => ∀ t, c.tasks[i]? = some t → t.isRetryAppend = false
  | _ => True

theorem hides_eq_zero_iff (hl : l ≠ .restart) : c.hides l = 0 ↔ c.CountsEntries l := by
  cases l with
  | runTask i now =>
    simp only [hides, CountsEntries]
    cases hi : c.tasks[i]? with
    | none => simp
    | some t => simp
  | restart => exact absurd rfl hl
  | registerNode | sendHeartbeat | listenForCommands | takeCommand | reportJobStatus | submitJob
    | schedulerPass | monitorPass | probe => exact iff_of_true rfl trivial

/-- From an exact gauge a call leads to an exact gauge exactly if it counts the entries. -/
theorem gaugeExact_step (h : c.GaugeExact) (hst : exec cfg c l = some c') :
    c'.GaugeExact ↔ c.CountsEntries l := by
  rw [gaugeExact_iff_uncounted] at h ⊢
  by_cases hl : l = .restart
  · subst hl
    obtain rfl := Option.some.inj hst
    rw [Manager.restart, uncounted_serve, Nat.cast_eq_zero, List.length_eq_zero_iff]
    rfl
  · rw [uncounted_step hst hl, h, zero_add, hides_eq_zero_iff hl]

/-- **The queue gauge is exact, exactly if entries only come from submissions.**  In all states of
a run from a database, the gauge is the number of queue entries with the one that the scheduler
holds, if and only if no job is pending when a manager starts, and no call is an append of
`retry_job`. -/
theorem gaugeExact_iff {reg : Registry} {tr : List (Label × Conf)}
    (h : (fine cfg).Run (start reg) tr) :
    LTS.StatesMeet GaugeExact (start reg) tr ↔
      reg.getJobs .pending = [] ∧ LTS.StepsMeet CountsEntries (start reg) tr := by
  have hstart : (start reg).GaugeExact ↔ reg.getJobs .pending = [] := by
    rw [gaugeExact_iff_uncounted, start, uncounted_serve, Nat.cast_eq_zero,
      List.length_eq_zero_iff]
  have hrun := fun h₀ => h.statesMeet_iff_stepsMeet (K := fun _ => True) (I := GaugeExact)
    (G := CountsEntries) (fun _ _ _ _ _ => trivial)
    (fun _ _ _ _ hI hst => gaugeExact_step hI hst) trivial (hstart.2 h₀)
  constructor
  · intro hs
    have h₀ := hstart.1 hs.head
    exact ⟨h₀, (hrun h₀).1 hs⟩
  · rintro ⟨h₀, hs⟩
    exact (hrun h₀).2 hs

/-- The run in which a job is dispatched to two nodes. -/
theorem gaugeExact_iff_dispatch :
    LTS.StatesMeet GaugeExact (start .empty)
      (LTS.runOf (exec Sample.setup) (start .empty) Sample.dispatchTwo) ↔
    Registry.empty.getJobs .pending = [] ∧ LTS.StepsMeet CountsEntries (start .empty)
      (LTS.runOf (exec Sample.setup) (start .empty) Sample.dispatchTwo) :=
  gaugeExact_iff (LTS.run_runOf _ _ _)

/-- A dispatched job fails and is retried, and its second dispatch takes the gauge below zero. -/
theorem gaugeExact_fails :
    ¬ ∀ (cfg : Setup) (c : Conf), (fine cfg).Reachable (start .empty) c → c.GaugeExact := by
  intro hall
  obtain ⟨c, hc, hp⟩ := LTS.exists_of_exec (exec Sample.setup) (start .empty)
    (Sample.dispatchTwo ++ [.reportJobStatus ⟨"node-1", "job-1", "failed"⟩ 103] ++
      List.replicate 3 (.runTask 0 103) ++
      [.sendHeartbeat ⟨"node-2", ⟨5, 20, 0, 0⟩, "IDLE", 104⟩ 104, .schedulerPass 105] ++
      List.replicate 7 (.runTask 0 105))
    (fun c => c.mgr.gauges.jobsQueued = -1 && c.mgr.queue.isEmpty && c.tasks.isEmpty)
    (by decide +kernel)
  obtain ⟨⟨hgauge, hq⟩, ht⟩ := by simpa using hp
  have hexact := hall _ c hc
  simp [GaugeExact, hgauge, hq, ht] at hexact

end Conf

end Dmlf
