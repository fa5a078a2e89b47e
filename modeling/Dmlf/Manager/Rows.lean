import Dmlf.Manager.Effects

/-!
# What a step does to one job

Six handlers and passes write to the job table, and each of them, seen from a single row, does
one of five things.  This is the inversion lemma that results about the life of a job rest on:

* `Manager.rowEffect` : the row of a known job after a step.
* `Manager.getJob_of_new` : the row of a job that a step adds.
* `Manager.dispatchesIn_perform` : the number of dispatches after a step.
* `Manager.mem_commandQueues_perform` : the commands that are queued after a step.
-/

namespace Dmlf

/-- What reads or writes jobs. -/
def Label.touchesJobs : Label → Bool
  | .reportJobStatus _ _ | .submitJob _ _ _ | .schedulerPass _ | .monitorPass _ => true
  | _ => false

namespace Manager

variable {cfg : Setup} {m m' : Manager} {now : Time} {l : Label} {j : String}

/-- The job that a step dispatches, and the nodes it is assigned to. -/
def dispatches (cfg : Setup) (m : Manager) : Label → Option (String × List String)
  | .schedulerPass now =>
    m.queue.head?.bind fun job =>
      let nodes := m.selectNodes cfg job now
      if nodes.isEmpty then none else some (job.jobId, nodes.map NodeRow.nodeId)
  | _ => none

theorem mem_queue_of_dispatches {d : String × List String} (h : m.dispatches cfg l = some d) :
    (∃ job ∈ m.queue, job.jobId = d.1) ∧ ∃ now, l = .schedulerPass now := by
  cases l with
  | schedulerPass now =>
    obtain ⟨job, hjob, h⟩ := Option.bind_eq_some_iff.1 h
    obtain ⟨-, h⟩ := Option.ite_none_left_eq_some.1 h
    obtain rfl := Option.some.inj h
    exact ⟨⟨job, List.mem_of_mem_head? hjob, rfl⟩, now, rfl⟩
  | registerNode | sendHeartbeat | listenForCommands | takeCommand | reportJobStatus | submitJob
    | monitorPass | probe | restart | runTask => cases h

/-- The jobs that a step queues again. -/
def requeues (cfg : Setup) (m : Manager) : Label → List String
  | .reportJobStatus req _ =>
    if req.isFailure then
      ((m.registry.getJob req.jobId).toList.filter fun job => job.retries < job.maxRetries).map
        JobRow.jobId
    else []
  | .monitorPass now =>
    (failOverEntries (m.offlineNodes cfg now) (m.registry.getJobs .running)).map JobDict.jobId
  | _ => []

/-- A step that deals with nodes and commands only.  A restart queues the pending jobs anew. -/
theorem perform_of_quiet (hst : m.perform cfg l = some m') (hl : l.touchesJobs = false) :
    m'.registry.jobs = m.registry.jobs ∧ m'.history = m.history ∧
      (l ≠ .restart → m'.queue = m.queue) := by
  cases l with
  | registerNode nodeId nodeSecret req now =>
    obtain ⟨-, hm⟩ := Option.ite_none_right_eq_some.1 hst
    obtain rfl := Option.some.inj hm
    exact ⟨Registry.jobs_registerNode .., rfl, fun _ => rfl⟩
  | sendHeartbeat | probe => obtain rfl := Option.some.inj hst; exact ⟨rfl, rfl, fun _ => rfl⟩
  | listenForCommands nodeId =>
    obtain ⟨queues, rfl⟩ := perform_listenForCommands hst
    exact ⟨rfl, rfl, fun _ => rfl⟩
  | takeCommand nodeId =>
    obtain ⟨queues, rfl⟩ := perform_takeCommand hst
    exact ⟨rfl, rfl, fun _ => rfl⟩
  | restart => obtain rfl := Option.some.inj hst; exact ⟨rfl, rfl, fun h => absurd rfl h⟩
  | runTask => cases hst
  | reportJobStatus | submitJob | schedulerPass | monitorPass => cases hl

theorem dispatches_of_quiet (hl : l.touchesJobs = false) : m.dispatches cfg l = none := by
  cases l <;> first | rfl | cases hl

/-- What a step can do to the row of a job. -/
inductive RowEffect (cfg : Setup) (m : Manager) (l : Label) (row : JobRow) : JobRow → Prop
  | same : (∀ nodes, m.dispatches cfg l ≠ some (row.jobId, nodes)) →
      (∀ req now, l = .reportJobStatus req now → m.Acts req → req.jobId ≠ row.jobId) →
      RowEffect cfg m l row row
  | requeued : row.jobId ∈ m.requeues cfg l →
      RowEffect cfg m l row { row with status := .pending, retries := row.retries + 1 }
  | failed (now : Time) : m.dispatches cfg l = none →
      (∀ req now', l = .reportJobStatus req now' → req.isFailure = true) →
      RowEffect cfg m l row (row.withStatus .failed none (some 1) now)
  | completed (req : JobStatusRequest) (now : Time) : l = .reportJobStatus req now →
      req.isFailure = false → req.isCompletion = true → req.jobId = row.jobId →
      RowEffect cfg m l row (row.withStatus .completed none (some 0) now)
  | dispatched (nodes : List String) (now : Time) : m.dispatches cfg l = some (row.jobId, nodes) →
      RowEffect cfg m l row (row.withStatus .running (some nodes) none now)

theorem rowEffect_of_jobs (hjobs : m'.registry.jobs = m.registry.jobs) {row : JobRow}
    (hrow : m.registry.getJob j = some row) (hsame : RowEffect cfg m l row row) :
    ∃ row', m'.registry.getJob j = some row' ∧ RowEffect cfg m l row row' :=
  ⟨row, by rw [Registry.getJob, hjobs]; exact hrow, hsame⟩

theorem rowEffect_of_updateJob {k : String} {f : JobRow → JobRow} (hf)
    (hjobs : m'.registry.jobs = (m.registry.updateJob k f hf).jobs) {row : JobRow}
    (hrow : m.registry.getJob j = some row) (hk : row.jobId = k → RowEffect cfg m l row (f row))
    (hne : row.jobId ≠ k → RowEffect cfg m l row row) :
    ∃ row', m'.registry.getJob j = some row' ∧ RowEffect cfg m l row row' := by
  have hid := Registry.jobId_of_getJob hrow
  have hget : m'.registry.getJob j = (m.registry.updateJob k f hf).getJob j := by
    rw [Registry.getJob, hjobs]; rfl
  rw [hget, Registry.getJob_updateJob]
  by_cases hj : j = k
  · exact ⟨f row, by rw [if_pos hj, ← hj, hrow]; rfl, hk (hid.trans hj)⟩
  · exact ⟨row, by rw [if_neg hj, hrow], hne (hid ▸ hj)⟩

theorem rowEffect_reportJobStatus (m : Manager) (req : JobStatusRequest) (now : Time)
    {row : JobRow} (hrow : m.registry.getJob j = some row) :
    ∃ row', (m.reportJobStatus req now).registry.getJob j = some row' ∧
      RowEffect cfg m (.reportJobStatus req now) row row' := by
  have hid := Registry.jobId_of_getJob hrow
  have hsame : (m.Acts req → req.jobId ≠ row.jobId) →
      RowEffect cfg m (.reportJobStatus req now) row row := fun h =>
    .same (fun _ hd => by cases hd) fun req' now' hl => by
      obtain ⟨rfl, -⟩ := Label.reportJobStatus.inj hl
      exact h
  have heff := reportEffect m req now
  generalize m.reportJobStatus req now = m' at heff
  cases heff with
  | ignored hf hc =>
    exact rowEffect_of_jobs rfl hrow (hsame fun ha => by simp [Acts, hf, hc] at ha)
  | unknown hf hnone =>
    refine rowEffect_of_jobs rfl hrow (hsame fun ha => ?_)
    simp [Acts, hnone, JobStatusRequest.isCompletion_of_isFailure hf] at ha
  | retried job hf hjob hlt =>
    have hjid := Registry.jobId_of_getJob hjob
    refine rowEffect_of_updateJob (k := job.jobId)
      (f := fun r => { r with status := .pending, retries := job.retries + 1 }) (fun _ => rfl) rfl
      hrow (fun hk => ?_) fun hne => hsame fun _ heq => ?_
    · -- the handler writes the counter it has read, one higher
      obtain rfl : job = row := by
        rw [hid, hjid] at hk
        exact Option.some.inj (hjob.symm.trans (hk ▸ hrow))
      exact .requeued (by simp [requeues, hf, hjob, hlt])
    · exact hne (heq.symm.trans hjid.symm)
  | failed job hf hjob hlt =>
    refine rowEffect_of_updateJob (JobRow.jobId_withStatus _ _ _ _) rfl hrow
      (fun _ => .failed now rfl fun req' now' hl => ?_) fun hne => hsame fun _ heq => hne heq.symm
    obtain ⟨rfl, -⟩ := Label.reportJobStatus.inj hl
    exact hf
  | completed hf hc =>
    exact rowEffect_of_updateJob (JobRow.jobId_withStatus _ _ _ _) rfl hrow
      (fun hk => .completed req now rfl hf hc hk.symm) fun hne => hsame fun _ heq => hne heq.symm

theorem rowEffect_schedulerPass (m : Manager) (now : Time) {row : JobRow}
    (hrow : m.registry.getJob j = some row) :
    ∃ row', (m.schedulerPass cfg now).registry.getJob j = some row' ∧
      RowEffect cfg m (.schedulerPass now) row row' := by
  have hsame : (∀ nodes, m.dispatches cfg (.schedulerPass now) ≠ some (row.jobId, nodes)) →
      RowEffect cfg m (.schedulerPass now) row row := fun h =>
    .same h fun _ _ hl => by cases hl
  have heff := passEffect cfg m now
  generalize m.schedulerPass cfg now = m' at heff
  cases heff with
  | noJob hq => exact rowEffect_of_jobs rfl hrow (hsame fun nodes => by simp [dispatches, hq])
  | requeued job queue hq hnone =>
    exact rowEffect_of_jobs rfl hrow (hsame fun nodes => by simp [dispatches, hq, hnone])
  | dispatched job queue hq hsome =>
    have hd : m.dispatches cfg (.schedulerPass now) =
        some (job.jobId, (m.selectNodes cfg job now).map NodeRow.nodeId) := by
      simp [dispatches, hq, hsome]
    refine rowEffect_of_updateJob (k := job.jobId) (JobRow.jobId_withStatus .running _ none now)
      (jobs_dispatch m queue job _) hrow (fun hk => .dispatched _ now (hk ▸ hd))
      fun hne => hsame fun nodes => ?_
    rw [hd]
    intro heq
    exact hne (Prod.mk.inj (Option.some.inj heq)).1.symm

theorem rowEffect_monitorPass (m : Manager) (now : Time) {row : JobRow}
    (hrow : m.registry.getJob j = some row) :
    ∃ row', (m.monitorPass cfg now).registry.getJob j = some row' ∧
      RowEffect cfg m (.monitorPass now) row row' := by
  have hsame : RowEffect cfg m (.monitorPass now) row row :=
    .same (fun _ hd => by cases hd) fun _ _ hl => by cases hl
  rw [getJob_monitorPass, hrow]
  refine ⟨_, rfl, ?_⟩
  dsimp only
  by_cases hrun : row.status = .running
  · rw [if_pos hrun, JobRow.failedOver]
    split_ifs with hlost hlt
    · have hmem : row ∈ m.registry.getJobs .running :=
        Registry.mem_getJobs.2 ⟨Registry.jobId_of_getJob hrow ▸ hrow, hrun⟩
      refine .requeued (List.mem_map.2 ⟨row.toDict.retried, ?_, rfl⟩)
      exact List.mem_map_of_mem (List.mem_filter.2 ⟨hmem, by simp [hlost, hlt]⟩)
    · exact .failed now rfl fun _ _ hl => by cases hl
    · exact hsame
  · rw [if_neg hrun]
    exact hsame

theorem rowEffect (hst : m.perform cfg l = some m') {row : JobRow}
    (hrow : m.registry.getJob j = some row) :
    ∃ row', m'.registry.getJob j = some row' ∧ RowEffect cfg m l row row' := by
  cases hl : l.touchesJobs with
  | false =>
    refine rowEffect_of_jobs (perform_of_quiet hst hl).1 hrow (.same (fun nodes hd => ?_) ?_)
    · rw [dispatches_of_quiet hl] at hd
      cases hd
    · rintro req now rfl
      cases hl
  | true =>
    cases l with
    | reportJobStatus req now =>
      obtain rfl := Option.some.inj hst
      exact rowEffect_reportJobStatus m req now hrow
    | submitJob jobId req now =>
      obtain ⟨m₁, hm₁, rfl⟩ := Option.map_eq_some_iff.1 hst
      obtain ⟨reg, hreg, rfl⟩ := Option.map_eq_some_iff.1 hm₁
      exact ⟨row, Registry.getJob_insertJob_of_some hreg hrow,
        .same (fun _ hd => by cases hd) fun _ _ hl => by cases hl⟩
    | schedulerPass now =>
      obtain rfl := Option.some.inj hst
      exact rowEffect_schedulerPass m now hrow
    | monitorPass now =>
      obtain rfl := Option.some.inj hst
      exact rowEffect_monitorPass m now hrow
    | registerNode | sendHeartbeat | listenForCommands | takeCommand | probe | restart | runTask =>
      cases hl

/-- **A new row is pending**, and has just been submitted. -/
theorem getJob_of_new (hst : m.perform cfg l = some m') (hnone : m.registry.getJob j = none)
    {row : JobRow} (hrow : m'.registry.getJob j = some row) :
    row.status = .pending ∧ ∃ req now, l = .submitJob j req now := by
  -- where the job table is kept, or one of its rows overwritten, there is still no row
  have hkept : m'.registry.jobs = m.registry.jobs → False := fun hjobs => by
    rw [Registry.getJob, hjobs] at hrow
    cases hrow.symm.trans hnone
  have hupdate : ∀ k f hf, m'.registry.jobs = (m.registry.updateJob k f hf).jobs → False := by
    intro k f hf hjobs
    have hget : (m.registry.updateJob k f hf).getJob j = some row := by
      rw [← hrow, Registry.getJob, Registry.getJob, hjobs]
    rw [Registry.getJob_updateJob] at hget
    split_ifs at hget with hj
    · rw [← hj, hnone] at hget
      cases hget
    · cases hget.symm.trans hnone
  cases hl : l.touchesJobs with
  | false => exact (hkept (perform_of_quiet hst hl).1).elim
  | true =>
    cases l with
    | reportJobStatus req now =>
      obtain rfl := Option.some.inj hst
      have heff := reportEffect m req now
      generalize m.reportJobStatus req now = m' at heff hkept hupdate
      cases heff with
      | ignored | unknown => exact (hkept rfl).elim
      | retried job =>
        exact (hupdate job.jobId
          (fun r => { r with status := .pending, retries := job.retries + 1 }) (fun _ => rfl)
          rfl).elim
      | failed | completed => exact (hupdate _ _ (JobRow.jobId_withStatus _ _ _ _) rfl).elim
    | submitJob jobId req now =>
      obtain ⟨m₁, hm₁, rfl⟩ := Option.map_eq_some_iff.1 hst
      obtain ⟨reg, hreg, rfl⟩ := Option.map_eq_some_iff.1 hm₁
      have hget := (Registry.getJob_insertJob hreg j).symm.trans hrow
      split_ifs at hget with hj
      · obtain rfl := Option.some.inj hget
        exact ⟨rfl, req, now, hj ▸ rfl⟩
      · cases hget.symm.trans hnone
    | schedulerPass now =>
      obtain rfl := Option.some.inj hst
      have heff := passEffect cfg m now
      generalize m.schedulerPass cfg now = m' at heff hkept hupdate
      cases heff with
      | noJob | requeued => exact (hkept rfl).elim
      | dispatched job queue hq hsome =>
        exact (hupdate job.jobId _ (JobRow.jobId_withStatus .running _ none now)
          (jobs_dispatch m queue job _)).elim
    | monitorPass now =>
      obtain rfl := Option.some.inj hst
      rw [getJob_monitorPass, hnone] at hrow
      cases hrow
    | registerNode | sendHeartbeat | listenForCommands | takeCommand | probe | restart | runTask =>
      cases hl

/-- **The number of dispatches after a step.** -/
theorem dispatchesIn_perform (hst : m.perform cfg l = some m') (j : String) :
    dispatchesIn m'.history j =
      dispatchesIn m.history j + if (m.dispatches cfg l).any (fun d => d.1 = j) then 1 else 0 := by
  cases hl : l.touchesJobs with
  | false => rw [(perform_of_quiet hst hl).2.1, dispatches_of_quiet hl]; rfl
  | true =>
    cases l with
    | reportJobStatus req now =>
      obtain rfl := Option.some.inj hst
      have heff := reportEffect m req now
      generalize m.reportJobStatus req now = m' at heff
      cases heff with
      | ignored | unknown | failed | completed => rfl
      | retried job => exact dispatchesIn_append m.history (.retried job.jobId) j
    | submitJob jobId req now =>
      obtain ⟨m₁, hm₁, rfl⟩ := Option.map_eq_some_iff.1 hst
      obtain ⟨reg, hreg, rfl⟩ := Option.map_eq_some_iff.1 hm₁
      exact dispatchesIn_append m.history (.submitted jobId) j
    | schedulerPass now =>
      obtain rfl := Option.some.inj hst
      have heff := passEffect cfg m now
      generalize m.schedulerPass cfg now = m' at heff
      cases heff with
      | noJob hq => simp [dispatches, hq]
      | requeued job queue hq hnone => simp [dispatches, hq, hnone, requeueJob, popTopJob]
      | dispatched job queue hq hsome =>
        rw [dispatchAllocatedJob_eq, (sendCommands_keeps _ _ _ _ _).2.2, startJob, reserveNodes_eq]
        refine (dispatchesIn_append m.history _ j).trans ?_
        simp [dispatches, hq, hsome, Event.isDispatchOf]
    | monitorPass now => obtain rfl := Option.some.inj hst; exact dispatchesIn_monitorPass m j
    | registerNode | sendHeartbeat | listenForCommands | takeCommand | probe | restart | runTask =>
      cases hl

/-- **The commands that are queued after a step**: they were queued before, or launch the job that
the step dispatches on one of its nodes. -/
theorem mem_commandQueues_perform (hst : m.perform cfg l = some m') {n : String}
    {q' : List Command} (hq' : m'.commandQueues n = some q') {c : Command} (hc : c ∈ q') :
    (∃ q, m.commandQueues n = some q ∧ c ∈ q) ∨
      ∃ nodes, m.dispatches cfg l = some (c.commandId.jobId, nodes) ∧ n ∈ nodes ∧
        c.commandId.dispatch = dispatchesIn m'.history c.commandId.jobId ∧
        c.jobPayload.jobId = c.commandId.jobId := by
  cases l with
  | registerNode nodeId nodeSecret req now =>
    obtain ⟨-, hm⟩ := Option.ite_none_right_eq_some.1 hst
    obtain rfl := Option.some.inj hm
    exact .inl (mem_newCommandQueue hq' hc)
  | sendHeartbeat | probe => obtain rfl := Option.some.inj hst; exact .inl ⟨q', hq', hc⟩
  | restart => obtain rfl := Option.some.inj hst; cases hq'
  | listenForCommands nodeId =>
    obtain rfl := Option.some.inj hst
    exact .inl (mem_listenForCommands hq' hc)
  | takeCommand nodeId =>
    obtain ⟨⟨command, m₁⟩, hcommand, rfl⟩ := Option.map_eq_some_iff.1 hst
    obtain ⟨rest, hq, rfl⟩ := takeCommand_eq_some hcommand
    dsimp only at hq'
    split_ifs at hq' with hn
    · obtain rfl := Option.some.inj hq'
      exact .inl ⟨_, hn ▸ hq, List.mem_cons_of_mem _ hc⟩
    · exact .inl ⟨q', hq', hc⟩
  | reportJobStatus req now =>
    obtain rfl := Option.some.inj hst
    have heff := reportEffect m req now
    generalize m.reportJobStatus req now = m' at heff hq'
    cases heff <;> exact .inl ⟨q', hq', hc⟩
  | submitJob jobId req now =>
    obtain ⟨m₁, hm₁, rfl⟩ := Option.map_eq_some_iff.1 hst
    obtain ⟨reg, hreg, rfl⟩ := Option.map_eq_some_iff.1 hm₁
    exact .inl ⟨q', hq', hc⟩
  | schedulerPass now =>
    obtain rfl := Option.some.inj hst
    have heff := passEffect cfg m now
    generalize m.schedulerPass cfg now = m' at heff hq'
    cases heff with
    | noJob | requeued => exact .inl ⟨q', hq', hc⟩
    | dispatched job queue hq hsome =>
      rw [dispatchAllocatedJob_eq] at hq' ⊢
      rw [(sendCommands_keeps _ _ _ _ _).2.2]
      rcases mem_sendCommands hq' hc with ⟨q, hold, hmem⟩ | ⟨hn, rank, rfl⟩
      · rw [startJob, reserveNodes_eq] at hold
        exact .inl ⟨q, hold, hmem⟩
      · refine .inr ⟨(m.selectNodes cfg job now).map NodeRow.nodeId, ?_, ?_, rfl, rfl⟩
        · simp [dispatches, hq, hsome, launchCommand]
        · have hfst : (m.selectNodes cfg job now).zipIdx.map (fun x => x.1.nodeId) =
              ((m.selectNodes cfg job now).zipIdx.map Prod.fst).map NodeRow.nodeId := by
            rw [List.map_map]; rfl
          rwa [hfst, List.zipIdx_map_fst] at hn
  | monitorPass now =>
    obtain rfl := Option.some.inj hst
    rw [commandQueues_monitorPass] at hq'
    exact .inl ⟨q', hq', hc⟩
  | runTask => cases hst

end Manager

end Dmlf
