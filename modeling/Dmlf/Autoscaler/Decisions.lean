import Dmlf.Autoscaler.Policy
import Dmlf.Jobs.QueueGauge

/-!
# What the autoscaler goes by

An evaluation reads the queue gauge, and the per-node gauges, which nothing sets.  So it knows no
more of the cluster than the entries of its queue, and of these only the ones that the gauge counts:
neither those that a starting manager has recovered nor those that `retry_job` has appended.

The gauge is updated with the call before it (`Task.step`): an evaluation between the append of a
submission and its `inc_jobs_queued`, which would see one entry less, is not a step here.

* `Autoscaled.missed_reachable` : the gauge in any reachable state.
* `Autoscaled.decision_reachable` : the decision of any evaluation, from the entries that wait.
-/

namespace Dmlf

/-- The decision of an evaluation whose averages are zero, when `pending` is what the gauge says. -/
def AutoscalerSettings.decideIdle (settings : AutoscalerSettings) (pending : ℤ)
    (lastScaleIn now : Time) : Option ScaleDirection :=
  if settings.queueDepthHigh < pending ∨ settings.avgCpuHigh < 0 ∨ settings.avgGpuHigh < 0 then
    some .out
  else if pending ≤ settings.queueDepthLow ∧ 0 < settings.avgCpuLow ∧ 0 < settings.avgGpuLow ∧
      settings.scaleInCooldownSec < now - lastScaleIn then
    some .in
  else none

namespace Autoscaled

variable (cfg : Setup) (settings : AutoscalerSettings)

/-- The entries that wait: those in the queue, and the one that the scheduler holds. -/
def waiting (s : Autoscaled) : ℤ := s.conf.mgr.queue.length + (s.conf.tasks.map Task.held).sum

/-- The entries that the gauge has missed since the process has started, after a move. -/
def missedAfter (s : Autoscaled) (missed : ℕ) : AutoscaledMove → ℕ
  | .manager .restart => (s.conf.mgr.registry.getJobs .pending).length
  | .manager (.runTask i _) =>
    if s.conf.tasks[i]?.any Task.isRetryAppend then missed + 1 else missed
  | _ => missed

/-- The manager with its autoscaler and the number of the entries that the gauge has missed. -/
def counted : LTS (Autoscaled × ℕ) AutoscaledMove := (lts cfg settings).recorded missedAfter

variable {cfg settings} {s s' : Autoscaled} {reg : Registry} {missed : ℕ}

theorem uncounted_manager {l : Label} (hst : s.exec cfg settings (.manager l) = some s')
    (h : s.conf.uncounted = missed) : s'.conf.uncounted = s.missedAfter missed (.manager l) := by
  obtain ⟨c, hc, rfl⟩ := Option.map_eq_some_iff.1 hst
  by_cases hl : l = .restart
  · subst hl
    obtain rfl := Option.some.inj hc
    exact Conf.uncounted_serve _ _
  · have hconf : (s.afterCall c l).conf = c := by
      unfold afterCall
      split <;> rfl
    rw [hconf, Conf.uncounted_step hc hl, h]
    cases l with
    | restart => exact absurd rfl hl
    | runTask i now =>
      simp only [Conf.hides, missedAfter]
      split_ifs <;> simp
    | _ => exact add_zero _

/-- **The gauge shows the entries that wait, less those that it has missed**: the ones that have
been recovered when the process started, and one for each retry since then. -/
theorem missed_reachable
    (h : (counted cfg settings).Reachable (start reg, (reg.getJobs .pending).length) (s, missed)) :
    s.nodeGauges = .zero ∧ s.conf.mgr.gauges.jobsQueued = s.waiting - missed := by
  have hkeep := h.keeps (I := fun x => x.1.nodeGauges = .zero ∧ x.1.conf.uncounted = x.2)
    (fun x mv x' ⟨hst, hupd⟩ ⟨hgauges, hmissed⟩ => by
      refine ⟨preserves_nodeGauges hst hgauges, ?_⟩
      rw [hupd]
      cases mv with
      | manager l => exact uncounted_manager hst hmissed
      | evaluate =>
        -- two marks of offline nodes: neither the queue nor the gauge changes
        obtain heq := Option.some.inj hst
        rw [← heq]
        exact hmissed)
    ⟨rfl, Conf.uncounted_serve reg []⟩
  refine ⟨hkeep.1, ?_⟩
  have hmissed : s.waiting - s.conf.mgr.gauges.jobsQueued = missed := hkeep.2
  omega

/-- **What the autoscaler goes by.**  In every run of a manager with its autoscaler, whatever the
nodes report, an evaluation decides by the number of the entries that wait, less those that it has
missed, and by nothing else of the cluster. -/
theorem decision_reachable
    (h : (counted cfg settings).Reachable (start reg, (reg.getJobs .pending).length) (s, missed))
    (idleNow allNow now : Time) : s.decision settings idleNow allNow now =
      settings.decideIdle (s.waiting - missed) s.lastScaleIn now := by
  obtain ⟨hgauges, hqueued⟩ := missed_reachable h
  rw [decision, averages, hgauges, averages_zero, hqueued]
  rfl

end Autoscaled

namespace Sample

/-- Seven jobs are submitted, and the manager is started again before the autoscaler evaluates. -/
def sevenRecovered : List AutoscaledMove :=
  ((List.range 7).flatMap fun i =>
    [.manager (.submitJob ("job-" ++ i.repr) (job 1 1) (100 + i)), .manager (.runTask 0 200)]) ++
  [.manager .restart]

end Sample

namespace Autoscaled

/-- The autoscaler sees none of the seven jobs. -/
theorem decision_reachable_sevenRecovered :
    let tr := LTS.record missedAfter (start .empty) 0
      (LTS.runOf (exec Sample.setup Sample.autoscaler) (start .empty) Sample.sevenRecovered)
    let x := LTS.last (start .empty, 0) tr
    (x.1.waiting = 7 ∧ x.2 = 7) ∧ x.1.decision Sample.autoscaler 200 200 200 =
      Sample.autoscaler.decideIdle (x.1.waiting - x.2) x.1.lastScaleIn 200 :=
  ⟨by decide +kernel,
    decision_reachable (show (counted Sample.setup Sample.autoscaler).Reachable (start .empty, 0) _
      from ((LTS.run_runOf _ _ _).record _ 0).reachable) 200 200 200⟩

end Autoscaled

end Dmlf
