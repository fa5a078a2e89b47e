import Dmlf.Manager.Lifecycle
import Dmlf.Manager.Rows

/-!
# Whole handlers as actions of the ledger

A handler or a pass that runs to its end is one action of the ledger of the job queue, or none;
only a monitor pass is several of them, one for each running row.

* `Manager.ledger_perform` : the action that a handler or a scheduler pass is.
* `Manager.ledger_monitorPass` : what the actions of a monitor pass keep.
-/

namespace Dmlf

namespace Manager

variable {cfg : Setup} {m m' : Manager} {now : Time} {l : Label}

/-- The action of the ledger that a report is. -/
def reportAct (m : Manager) (req : JobStatusRequest) : Ledger.Act String Bool :=
  match m.registry.getJob req.jobId with
  | none => .idle
  | some job =>
    if req.isFailure then
      if job.retries < job.maxRetries then .retry job.jobId (job.retries + 1)
      else .close req.jobId false
    else if req.isCompletion then .close req.jobId true
    else .idle

theorem ledger_retryJob (job : JobRow) : (m.retryJob job.toDict).ledger 0 =
    (m.ledger 0).apply (.retry job.jobId (job.retries + 1)) := by
  rw [retryJob, ledger_enqueue]
  exact ledger_writeRetry job.toDict

theorem ledger_reportJobStatus (m : Manager) (req : JobStatusRequest) (now : Time) :
    (m.ledger 0).Enabled (m.reportAct req) ∧
      (m.reportJobStatus req now).ledger 0 = (m.ledger 0).apply (m.reportAct req) := by
  have hknown : ∀ {job o}, m.registry.getJob req.jobId = some job →
      (m.ledger 0).Enabled (.close req.jobId o) := fun h => Task.enabled_close ⟨_, h⟩
  have heff := reportEffect m req now
  generalize m.reportJobStatus req now = m' at heff
  cases heff with
  | ignored hf hc =>
    have hact : m.reportAct req = .idle := by
      unfold reportAct
      cases m.registry.getJob req.jobId <;> simp [hf, hc]
    rw [hact]
    exact ⟨trivial, rfl⟩
  | unknown hf hj =>
    rw [show m.reportAct req = .idle by simp [reportAct, hj]]
    exact ⟨trivial, rfl⟩
  | retried job hf hj hlt =>
    rw [show m.reportAct req = .retry job.jobId (job.retries + 1) by simp [reportAct, hj, hf, hlt]]
    refine ⟨Task.enabled_retry ⟨job, Registry.jobId_of_getJob hj ▸ hj, rfl⟩ hlt, ?_⟩
    exact ledger_retryJob (m := m.updateNodeState req.nodeId .idle) job
  | failed job hf hj hlt =>
    rw [show m.reportAct req = .close req.jobId false by simp [reportAct, hj, hf, hlt]]
    exact ⟨hknown hj, ledger_closeJob req.jobId .failed 1 now rfl⟩
  | completed hf hc =>
    have hclose : (m.closeJob req.jobId .completed 0 now).ledger 0 =
        (m.ledger 0).apply (.close req.jobId true) := ledger_closeJob req.jobId .completed 0 now rfl
    cases hj : m.registry.getJob req.jobId with
    | none =>
      rw [show m.reportAct req = .idle by simp [reportAct, hj]]
      exact ⟨trivial, hclose.trans (Ledger.apply_close_of_none (by simp [ledger, hj]))⟩
    | some job =>
      rw [show m.reportAct req = .close req.jobId true by simp [reportAct, hj, hf, hc]]
      exact ⟨hknown hj, hclose⟩

/-- The action of the ledger that a handler or a pass is, other than a monitor pass. -/
def serialAct (cfg : Setup) (m : Manager) : Label → Ledger.Act String Bool
  | .reportJobStatus req _ => m.reportAct req
  | .submitJob jobId req _ => .submit jobId req.maxRetries
  | .schedulerPass now =>
    ((m.dispatches cfg (.schedulerPass now)).map fun d => .use d.1).getD .idle
  | .restart => .restart m.pendingIds
  | _ => .idle

theorem ledger_schedulerPass (hw : (⟨m, []⟩ : Conf).WellFormed) :
    (m.ledger 0).Enabled (m.serialAct cfg (.schedulerPass now)) ∧
      (m.schedulerPass cfg now).ledger 0 =
        (m.ledger 0).apply (m.serialAct cfg (.schedulerPass now)) := by
  have heff := passEffect cfg m now
  generalize m.schedulerPass cfg now = m' at heff
  cases heff with
  | noJob hq =>
    rw [show m.serialAct cfg (.schedulerPass now) = .idle by simp [serialAct, dispatches, hq]]
    exact ⟨trivial, rfl⟩
  | requeued job queue hq hnone =>
    rw [show m.serialAct cfg (.schedulerPass now) = .idle by
      simp [serialAct, dispatches, hq, hnone]]
    refine ⟨trivial, ?_⟩
    rw [ledger_requeueJob]
    exact ledger_pop hq
  | dispatched job queue hq hsome =>
    rw [show m.serialAct cfg (.schedulerPass now) = .use job.jobId by
      simp [serialAct, dispatches, hq, hsome]]
    obtain ⟨row, hrow⟩ := hw.queue job (by rw [hq]; exact List.mem_cons_self)
    refine ⟨⟨⟨row.item, by simp [ledger, hrow]⟩, by simp [ledger, hq]⟩, ?_⟩
    -- popping, reserving and sending do not show; setting the job `RUNNING` does
    set nodes := m.selectNodes cfg job now
    obtain ⟨hr, hqueue, hh⟩ := sendCommands_keeps cfg
      (((m.popTopJob queue now).reserveNodes nodes).startJob job nodes now) job
      ((nodes.head?.map NodeRow.ipAddress).getD "") nodes.zipIdx
    rw [dispatchAllocatedJob_eq, tickets_perm (K := 0) (H := 0) hr hh (by rw [hqueue]),
      ledger_startJob, reserveNodes_eq, ledger_setRegistry (jobs_reserveNodes _ _)]
    exact congrArg (Ledger.apply · _) (ledger_pop hq)

/-- **A handler or a scheduler pass is an action of the ledger.** -/
theorem ledger_perform (hw : (⟨m, []⟩ : Conf).WellFormed) (hst : m.perform cfg l = some m')
    (hl : ∀ now, l ≠ .monitorPass now) : (m.ledger 0).Enabled (m.serialAct cfg l) ∧
      m'.ledger 0 = (m.ledger 0).apply (m.serialAct cfg l) := by
  cases hq : l.touchesJobs with
  | false =>
    by_cases hr : l = .restart
    · subst hr
      obtain rfl := Option.some.inj hst
      exact (ledger_restart (m := m) (H := 0)).symm
    · obtain ⟨hjobs, hhistory, hqueue⟩ := perform_of_quiet hst hq
      have hact : m.serialAct cfg l = .idle := by
        cases l <;> first | exact absurd rfl hr | rfl | cases hq
      rw [hact]
      exact ⟨trivial, ledger_eq_of_same hjobs (hqueue hr) hhistory⟩
  | true =>
    cases l with
    | reportJobStatus req now =>
      obtain rfl := Option.some.inj hst
      exact ledger_reportJobStatus m req now
    | submitJob jobId req now =>
      obtain ⟨m₁, hm₁, rfl⟩ := Option.map_eq_some_iff.1 hst
      obtain ⟨happ, hen⟩ := ledger_insertJob (H := 0) hm₁
      refine ⟨hen, ?_⟩
      rw [ledger_incJobsQueued, ledger_enqueue]
      exact happ
    | schedulerPass now => obtain rfl := Option.some.inj hst; exact ledger_schedulerPass hw
    | monitorPass now => exact absurd rfl (hl now)
    | registerNode | sendHeartbeat | listenForCommands | takeCommand | probe | restart | runTask =>
      cases hq

/-! ### The monitor -/

theorem ledger_failOver (offline : List String) (job : JobRow) :
    (m.failOver offline now job).ledger 0 =
      (m.ledger 0).apply (Task.act (.monLoop offline [job])) := by
  unfold failOver Task.act
  dsimp only
  split_ifs
  · exact ledger_retryJob job
  · exact ledger_closeJob job.jobId .failed 1 now rfl
  · rfl

/-- The loop of the monitor performs the actions of its rows, each of which finds its job still
running, and with the entries it had before. -/
theorem ledger_failOverAll {P : Ledger String Bool → Prop} {offline : List String}
    {jobs : List JobRow} (hnd : (jobs.map JobRow.jobId).Nodup)
    (h : ∀ job ∈ jobs, m.registry.getJob job.jobId = some job ∧ job.status = .running)
    (hP : P (m.ledger 0))
    (hstep : ∀ L, ∀ job ∈ jobs, P L → L.item job.jobId = some job.item →
      L.tickets.count job.jobId = (m.ledger 0).tickets.count job.jobId →
      L.Enabled (Task.act (.monLoop offline [job])) →
      P (L.apply (Task.act (.monLoop offline [job])))) :
    P ((m.failOverAll offline now jobs).ledger 0) := by
  induction jobs generalizing m with
  | nil => exact hP
  | cons job jobs ih =>
    obtain ⟨hne, hnd⟩ := List.nodup_cons.1 hnd
    obtain ⟨hjob, hrun⟩ := h job List.mem_cons_self
    have hother : ∀ job' ∈ jobs, job'.jobId ≠ job.jobId := fun job' hjob' heq =>
      hne (heq ▸ List.mem_map_of_mem hjob')
    have hen : (m.ledger 0).Enabled (Task.act (.monLoop offline [job])) := by
      unfold Task.act
      dsimp only
      split_ifs with hlost hlt
      · exact Task.enabled_retry ⟨job, hjob, rfl⟩ hlt
      · exact Task.enabled_close ⟨job, hjob⟩
      · trivial
    refine ih (m := m.failOver offline now job) hnd (fun job' hjob' => ?_) ?_ ?_
    · obtain ⟨h', hrun'⟩ := h job' (List.mem_cons_of_mem _ hjob')
      refine ⟨?_, hrun'⟩
      rw [getJob_failOver hjob, h']
      simp [hother job' hjob']
    · rw [ledger_failOver]
      exact hstep _ job List.mem_cons_self hP (by simp [ledger, hjob]) rfl hen
    · -- the first row's action leaves the entries of the other jobs alone
      intro L job' hjob' hPL hit hcount
      refine hstep L job' (List.mem_cons_of_mem _ hjob') hPL hit (hcount.trans ?_)
      rw [ledger_failOver]
      unfold Task.act
      dsimp only
      split_ifs
      · simp [Ledger.apply, Multiset.count_cons_of_ne (hother job' hjob')]
      · rfl
      · rfl

/-- **A monitor pass** keeps what its failovers keep. -/
theorem ledger_monitorPass {P : Ledger String Bool → Prop} (hP : P (m.ledger 0))
    (hstep : ∀ L, ∀ job ∈ m.registry.getJobs .running, P L → L.item job.jobId = some job.item →
      L.tickets.count job.jobId = (m.ledger 0).tickets.count job.jobId →
      L.Enabled (Task.act (.monLoop (m.offlineNodes cfg now) [job])) →
      P (L.apply (Task.act (.monLoop (m.offlineNodes cfg now) [job])))) :
    P ((m.monitorPass cfg now).ledger 0) := by
  rw [monitorPass_eq]
  exact ledger_failOverAll (m.registry.nodup_getJobs _)
    (fun job hjob => Registry.mem_getJobs.1 hjob) hP hstep

end Manager

end Dmlf
