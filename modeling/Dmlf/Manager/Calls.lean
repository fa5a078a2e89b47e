import Dmlf.Manager.Effects

/-!
# What a single call does

The inversion lemmas that results about the interleaved manager rest on.

* `Conf.call`, `Conf.taskAfter` : the configuration after a call, outcome by outcome, and the tasks
  in it.
* `Task.writes_step`, `Task.next_of_step` : what the next call of a task writes, and the task that
  is left.
* `Conf.jobsWrite` : the write to the jobs table that a call is, if it is one.
* `Registry.JobsWrite.keeps`, `Registry.JobsUpdate.map_rows` : the columns that no write changes
  once a row is there.
* `Conf.mem_commandQueues` : the commands that are queued after a call.
* `Conf.origin` : where the job dicts in memory come from.
-/

namespace Dmlf

/-! ### Writes to the jobs table -/

/-- What a call other than `insert_job` can do to the jobs table. -/
inductive Registry.JobsUpdate (reg reg' : Registry) : Prop
  | none (h : reg'.jobs = reg.jobs)
  | status (jobId : String) (s : JobState) (nodes : Option (List String)) (code : Option ℤ)
      (now : Time) (h : reg'.jobs = (reg.updateJobStatus jobId s nodes code now).jobs)
  | retries (jobId : String) (s : JobState) (n : ℤ)
      (h : reg'.jobs = (reg.updateJobRetries jobId s n).jobs)

/-- What a call can do to the jobs table. -/
inductive Registry.JobsWrite (reg reg' : Registry) : Prop
  | update (h : reg.JobsUpdate reg')
  | insert (job : JobDict) (now : Time) (h : reg.insertJob job now = some reg')

/-- A reading of a row that neither `update_job_status` nor `update_job_retries` changes. -/
structure JobRow.Fixed {α : Type*} (f : JobRow → α) : Prop where
  status : ∀ r s nodes code now, f (JobRow.withStatus s nodes code now r) = f r
  retries : ∀ (r : JobRow) (s : JobState) (n : ℤ), f { r with status := s, retries := n } = f r

theorem JobRow.fixed_required : JobRow.Fixed fun row => (row.jobId, row.requiredNodes) where
  status := fun _ _ _ _ _ => rfl
  retries := fun _ _ _ => rfl

theorem Registry.keeps_updateJob {α : Type*} {g : JobRow → α} {reg : Registry} (j' : String)
    {f : JobRow → JobRow} (hf) (hg : ∀ r, g (f r) = g r) {j : String} {row : JobRow}
    (hrow : reg.getJob j = some row) :
    ∃ row', (reg.updateJob j' f hf).getJob j = some row' ∧ g row' = g row := by
  rw [getJob_updateJob]
  split_ifs with hj
  · subst hj
    exact ⟨f row, by rw [hrow]; rfl, hg row⟩
  · exact ⟨row, hrow, rfl⟩

theorem Registry.JobsUpdate.map_rows {α : Type*} {g : JobRow → α} (hg : JobRow.Fixed g)
    {reg reg' : Registry} (h : reg.JobsUpdate reg') :
    reg'.jobs.rows.map g = reg.jobs.rows.map g := by
  have hupd : ∀ j f hf, (∀ r, g (f r) = g r) →
      (reg.updateJob j f hf).jobs.rows.map g = reg.jobs.rows.map g :=
    fun j f _ hg => Table.map_key_modify _ _ f hg
  cases h with
  | none h => rw [h]
  | status k s nodes code now h => rw [h]; exact hupd k _ _ fun _ => hg.status ..
  | retries k s n h => rw [h]; exact hupd k _ _ fun _ => hg.retries ..

/-- **Rows stay, with their fixed columns.** -/
theorem Registry.JobsWrite.keeps {α : Type*} {g : JobRow → α} (hg : JobRow.Fixed g)
    {reg reg' : Registry} (h : reg.JobsWrite reg') {j : String} {row : JobRow}
    (hrow : reg.getJob j = some row) : ∃ row', reg'.getJob j = some row' ∧ g row' = g row := by
  cases h with
  | update h =>
    cases h with
    | none h => exact ⟨row, by rw [getJob, h]; exact hrow, rfl⟩
    | status k s nodes code now h =>
      rw [getJob, h]
      exact keeps_updateJob k _ (fun _ => hg.status ..) hrow
    | retries k s n h =>
      rw [getJob, h]
      exact keeps_updateJob k _ (fun _ => hg.retries ..) hrow
  | insert job now h => exact ⟨row, getJob_insertJob_of_some h hrow, rfl⟩

namespace Task

variable {m : Manager}

/-- What the next call of a task writes to the jobs table, and adds to the history. -/
inductive Writes (m : Manager) (t : Task) (m' : Manager) : Prop
  | none (hj : m'.registry.jobs = m.registry.jobs) (hh : m'.history = m.history)
  | retry (job : JobRow)
      (hj : m'.registry.jobs =
        (m.registry.updateJobRetries job.jobId .pending (job.retries + 1)).jobs)
      (hh : m'.history = m.history ++ [.retried job.jobId])
  | fail (jobId : String) (now : Time)
      (hj : m'.registry.jobs = (m.registry.updateJobStatus jobId .failed none (some 1) now).jobs)
      (hh : m'.history = m.history)
  | start (job : JobDict) (nodes : List NodeRow) (now : Time)
      (ht : t = .schedReserve job nodes [])
      (hj : m'.registry.jobs = (m.registry.updateJobStatus job.jobId .running
        (some (nodes.map NodeRow.nodeId)) none now).jobs)
      (hh : m'.history = m.history ++ [.dispatched job.jobId (nodes.map NodeRow.nodeId)])

/-- **The next call of a task** writes at most one row of the jobs table. -/
theorem writes_step (cfg : Setup) (now : Time) (m : Manager) (t : Task) :
    t.Writes m (t.step cfg now m).1 := by
  cases t with
  | registerQueue | submitAppend | retrySetIdle | retryAppend | schedSelect | schedRequeue
    | monJobs | monAppend | monCount => exact .none rfl rfl
  | retryWrite job => exact .retry job rfl rfl
  | failWrite req => exact .fail req.jobId now rfl rfl
  | closedSetIdle req =>
    simp only [step]
    split_ifs <;> exact .none rfl rfl
  | schedReserve job nodes todo =>
    cases todo with
    | nil => exact .start job nodes now rfl rfl rfl
    | cons node todo => exact .none rfl rfl
  | schedSend job masterAddr todo =>
    cases todo with
    | nil => exact .none rfl rfl
    | cons x todo =>
      obtain ⟨hr, -, hh⟩ := m.sendCommand_keeps x.1.nodeId (m.launchCommand cfg job masterAddr x.2)
      exact .none (congrArg Registry.jobs hr) hh
  | monLoop offline jobs =>
    cases jobs with
    | nil => exact .none rfl rfl
    | cons job jobs =>
      simp only [step]
      split_ifs
      · exact .retry job rfl rfl
      · exact .fail job.jobId now rfl rfl
      · exact .none rfl rfl

theorem jobsUpdate_step (cfg : Setup) (now : Time) (m : Manager) (t : Task) :
    m.registry.JobsUpdate (t.step cfg now m).1.registry := by
  cases writes_step cfg now m t with
  | none hj => exact .none hj
  | retry job hj => exact .retries _ _ _ hj
  | fail jobId now hj => exact .status _ _ _ _ _ hj
  | start job nodes now _ hj => exact .status _ _ _ _ _ hj

/-- The task that is left after the next call of a task. -/
inductive Next (cfg : Setup) (now : Time) (m : Manager) : Task → Task → Prop
  | retryWrite (req : JobStatusRequest) (job : JobRow) :
      Next cfg now m (.retrySetIdle req job) (.retryWrite job)
  | retryAppend (job : JobRow) : Next cfg now m (.retryWrite job) (.retryAppend job.toDict.retried)
  | failed (req : JobStatusRequest) : Next cfg now m (.failWrite req) (.closedSetIdle req)
  | tooFew (job : JobDict) : Next cfg now m (.schedSelect job) (.schedRequeue job)
  | selected (job : JobDict) (nodes : List NodeRow) :
      nodes = allocate cfg.scoreNode (m.registry.getAvailableNodes now).2 job.requiredNodes →
      nodes ≠ [] → Next cfg now m (.schedSelect job) (.schedReserve job nodes nodes)
  | reserved (job : JobDict) (nodes : List NodeRow) (node : NodeRow) (todo : List NodeRow) :
      Next cfg now m (.schedReserve job nodes (node :: todo)) (.schedReserve job nodes todo)
  | started (job : JobDict) (nodes : List NodeRow) : Next cfg now m (.schedReserve job nodes [])
      (.schedSend job ((nodes.head?.map NodeRow.ipAddress).getD "") nodes.zipIdx)
  | sent (job : JobDict) (masterAddr : String) (x : NodeRow × ℕ) (todo : List (NodeRow × ℕ)) :
      Next cfg now m (.schedSend job masterAddr (x :: todo)) (.schedSend job masterAddr todo)
  | monLoop (offline : List String) :
      Next cfg now m (.monJobs offline) (.monLoop offline (m.registry.getJobs .running))
  | lost (offline : List String) (job : JobRow) (jobs : List JobRow) :
      Next cfg now m (.monLoop offline (job :: jobs)) (.monAppend offline jobs job.toDict.retried)
  | passed (offline : List String) (job : JobRow) (jobs : List JobRow) :
      Next cfg now m (.monLoop offline (job :: jobs)) (.monLoop offline jobs)
  | marked (offline : List String) : Next cfg now m (.monLoop offline []) .monCount
  | appended (offline : List String) (jobs : List JobRow) (job : JobDict) :
      Next cfg now m (.monAppend offline jobs job) (.monLoop offline jobs)

theorem next_of_step {cfg : Setup} {now : Time} {t t' : Task}
    (h : (t.step cfg now m).2 = some t') : t.Next cfg now m t' := by
  cases t with
  | registerQueue | submitAppend | retryAppend | schedRequeue | closedSetIdle | monCount => cases h
  | retrySetIdle | retryWrite | failWrite | monJobs | monAppend => cases h; constructor
  | schedSelect job =>
    cases h
    split_ifs with hnone
    · exact .tooFew job
    · exact .selected job _ rfl fun hnil => hnone (List.isEmpty_iff.2 hnil)
  | schedReserve job nodes todo => cases todo <;> cases h <;> constructor
  | schedSend job masterAddr todo => cases todo <;> cases h; constructor
  | monLoop offline jobs =>
    cases jobs with
    | nil => cases h; exact .marked offline
    | cons job jobs =>
      simp only [step] at h
      split_ifs at h <;> cases h <;> constructor

/-! ### The queue -/

/-- The queue after the next call of a task. -/
def queueAfter (queue : List JobDict) : Task → List JobDict
  | .submitAppend job | .retryAppend job | .monAppend _ _ job => appendSorted queue job
  | .schedRequeue job => job :: queue
  | _ => queue

theorem queue_step (cfg : Setup) (now : Time) (m : Manager) (t : Task) :
    (t.step cfg now m).1.queue = t.queueAfter m.queue := by
  cases t with
  | registerQueue | submitAppend | retrySetIdle | retryWrite | retryAppend | failWrite
    | schedSelect | schedRequeue | monJobs | monAppend | monCount => rfl
  | closedSetIdle req =>
    simp only [step]
    split_ifs <;> rfl
  | schedReserve job nodes todo => cases todo <;> rfl
  | schedSend job masterAddr todo =>
    cases todo with
    | nil => rfl
    | cons x todo => exact (Manager.sendCommand_keeps m _ _).2.1
  | monLoop offline jobs =>
    cases jobs with
    | nil => rfl
    | cons job jobs =>
      simp only [step]
      split_ifs <;> rfl

/-! ### The command queues -/

/-- The command queues after the next call of a task. -/
def commandQueuesAfter (cfg : Setup) (m : Manager) : Task → String → Option (List Command)
  | .registerQueue nodeId => (m.newCommandQueue nodeId).commandQueues
  | .schedSend job masterAddr ((node, rank) :: _) =>
    (m.sendCommand node.nodeId (m.launchCommand cfg job masterAddr rank)).commandQueues
  | _ => m.commandQueues

theorem commandQueues_step (cfg : Setup) (now : Time) (m : Manager) (t : Task) :
    (t.step cfg now m).1.commandQueues = t.commandQueuesAfter cfg m := by
  cases t with
  | registerQueue | submitAppend | retrySetIdle | retryWrite | retryAppend | failWrite
    | schedSelect | schedRequeue | monJobs | monAppend | monCount => rfl
  | closedSetIdle req =>
    simp only [step]
    split_ifs <;> rfl
  | schedReserve job nodes todo => cases todo <;> rfl
  | schedSend job masterAddr todo => cases todo <;> rfl
  | monLoop offline jobs =>
    cases jobs with
    | nil => rfl
    | cons job jobs =>
      simp only [step]
      split_ifs <;> rfl

/-! ### Job dicts -/

/-- The job dicts that a task works with, those of the rows it has read included. -/
def dicts : Task → List JobDict
  | .submitAppend job | .retryAppend job | .schedSelect job | .schedRequeue job
  | .schedReserve job _ _ | .schedSend job _ _ => [job]
  | .retrySetIdle _ job | .retryWrite job => [job.toDict]
  | .monLoop _ jobs => jobs.map JobRow.toDict
  | .monAppend _ jobs job => job :: jobs.map JobRow.toDict
  | _ => []

theorem queueAfter_subset (queue : List JobDict) (t : Task) :
    t.queueAfter queue ⊆ queue ++ t.dicts := by
  have happ : ∀ job, appendSorted queue job ⊆ queue ++ [job] := fun job =>
    (List.perm_insertionSort _ _).subset
  cases t with
  | submitAppend job | retryAppend job => exact happ job
  | monAppend offline jobs job =>
    intro d hd
    rcases List.mem_append.1 (happ job hd) with h | h
    · exact List.mem_append_left _ h
    · exact List.mem_append_right _ (List.mem_cons.2 (.inl (List.mem_singleton.1 h)))
  | schedRequeue job => simp [queueAfter, dicts]
  | registerQueue | retrySetIdle | retryWrite | failWrite | closedSetIdle | schedSelect
    | schedReserve | schedSend | monJobs | monLoop | monCount =>
    exact List.subset_append_left _ _

/-- The dicts that remain with a task are those it had, one of them with a retry more, or those
of rows it reads. -/
theorem dicts_step {cfg : Setup} {now : Time} {m : Manager} {t t' : Task} {d : JobDict}
    (ht : (t.step cfg now m).2 = some t') (hd : d ∈ t'.dicts) :
    d ∈ t.dicts ∨ (∃ d₀ ∈ t.dicts, d = d₀.retried) ∨
      ∃ row ∈ m.registry.getJobs .running, d = row.toDict := by
  cases next_of_step ht with
  | failed | marked => cases hd
  | retryWrite | tooFew | selected | reserved | started | sent => exact .inl hd
  | retryAppend job =>
    exact .inr (.inl ⟨job.toDict, List.mem_singleton_self _, List.mem_singleton.1 hd⟩)
  | monLoop offline =>
    obtain ⟨row, hrow, rfl⟩ := List.mem_map.1 hd
    exact .inr (.inr ⟨row, hrow, rfl⟩)
  | lost offline job jobs =>
    rcases List.mem_cons.1 hd with rfl | hd
    · exact .inr (.inl ⟨job.toDict, List.mem_cons_self, rfl⟩)
    · exact .inl (List.mem_cons_of_mem _ hd)
  | passed | appended => exact .inl (List.mem_cons_of_mem _ hd)

end Task

/-! ### Calls -/

namespace Conf

variable {cfg : Setup} {c c' : Conf} {l : Label}

/-- What the first call of a handler or a pass can do, with the task that remains. -/
inductive Begun (cfg : Setup) (c : Conf) : Label → Manager → Option Task → Prop
  | registerNode {nodeId nodeSecret : String} {req : RegistrationRequest} {now : Time} :
      (c.mgr.registry.getNode nodeId).isNone →
      Begun cfg c (.registerNode nodeId nodeSecret req now)
        (c.mgr.insertNode nodeId nodeSecret req now) (some (.registerQueue nodeId))
  | sendHeartbeat {req : HeartbeatRequest} {now : Time} :
      Begun cfg c (.sendHeartbeat req now) (c.mgr.sendHeartbeat req now) none
  | listenForCommands {nodeId : String} {queues : String → Option (List Command)} :
      c.mgr.listenForCommands nodeId = { c.mgr with commandQueues := queues } →
      Begun cfg c (.listenForCommands nodeId) { c.mgr with commandQueues := queues } none
  | takeCommand {nodeId : String} {command : Command} {rest : List Command} :
      c.mgr.commandQueues nodeId = some (command :: rest) →
      Begun cfg c (.takeCommand nodeId) { c.mgr with
        commandQueues := fun n => if n = nodeId then some rest else c.mgr.commandQueues n } none
  | reportIgnored {req : JobStatusRequest} {now : Time} : req.isCompletion = false →
      Begun cfg c (.reportJobStatus req now) c.mgr none
  | reportRetry {req : JobStatusRequest} {now : Time} {job : JobRow} : req.isFailure = true →
      c.mgr.registry.getJob req.jobId = some job → job.retries < job.maxRetries →
      Begun cfg c (.reportJobStatus req now) c.mgr (some (.retrySetIdle req job))
  | reportFail {req : JobStatusRequest} {now : Time} {job : JobRow} : req.isFailure = true →
      c.mgr.registry.getJob req.jobId = some job → ¬ job.retries < job.maxRetries →
      Begun cfg c (.reportJobStatus req now) c.mgr (some (.failWrite req))
  | reportCompleted {req : JobStatusRequest} {now : Time} : req.isFailure = false →
      req.isCompletion = true →
      Begun cfg c (.reportJobStatus req now) (c.mgr.closeJob req.jobId .completed 0 now)
        (some (.closedSetIdle req))
  | submitJob {jobId : String} {req : JobSubmitRequest} {now : Time} {registry : Registry} :
      c.mgr.registry.insertJob (req.toDict jobId) now = some registry →
      Begun cfg c (.submitJob jobId req now)
        { c.mgr with registry, history := c.mgr.history ++ [.submitted jobId] }
        (some (.submitAppend (req.toDict jobId)))
  | noJob {now : Time} : c.tasks.any Task.isScheduler = false → c.mgr.queue = [] →
      Begun cfg c (.schedulerPass now) c.mgr none
  | popJob {now : Time} {job : JobDict} {queue : List JobDict} :
      c.tasks.any Task.isScheduler = false → c.mgr.queue = job :: queue →
      Begun cfg c (.schedulerPass now) { c.mgr with queue } (some (.schedSelect job))
  | noneOffline {now : Time} : c.tasks.any Task.isMonitor = false →
      c.mgr.offlineNodes cfg now = [] →
      Begun cfg c (.monitorPass now) c.mgr (some (.monLoop [] []))
  | someOffline {now : Time} : c.tasks.any Task.isMonitor = false →
      c.mgr.offlineNodes cfg now ≠ [] →
      Begun cfg c (.monitorPass now) c.mgr (some (.monJobs (c.mgr.offlineNodes cfg now)))
  | probe {now : Time} : Begun cfg c (.probe now) (c.mgr.probe now) none

theorem begun_reportJobStatus (cfg : Setup) (c : Conf) (req : JobStatusRequest) (now : Time) :
    Begun cfg c (.reportJobStatus req now) (c.mgr.beginReport req now).1
      (c.mgr.beginReport req now).2 := by
  unfold Manager.beginReport
  split_ifs with hf hc
  · cases hj : c.mgr.registry.getJob req.jobId with
    | none => exact .reportIgnored (JobStatusRequest.isCompletion_of_isFailure hf)
    | some job =>
      dsimp only
      split_ifs with hlt
      · exact .reportRetry hf hj hlt
      · exact .reportFail hf hj hlt
  · exact .reportCompleted (by simpa using hf) hc
  · exact .reportIgnored (by simpa using hc)

/-- What a call can do. -/
inductive Call (cfg : Setup) (c : Conf) : Label → Conf → Prop
  | first {l : Label} {m : Manager} {t : Option Task} : Begun cfg c l m t →
      Call cfg c l (c.spawn (m, t))
  | restart : Call cfg c .restart ⟨c.mgr.restart, []⟩
  | next {i : ℕ} {now : Time} {t : Task} : c.tasks[i]? = some t →
      Call cfg c (.runTask i now) (c.resume i (t.step cfg now c.mgr))

/-- **A call** is the first one of a handler or a pass, a restart, or the next one of a task. -/
theorem call (hst : exec cfg c l = some c') : Call cfg c l c' := by
  cases l with
  | registerNode =>
    obtain ⟨hnew, h⟩ := Option.ite_none_right_eq_some.1 hst
    exact Option.some.inj h ▸ .first (.registerNode hnew)
  | sendHeartbeat => exact Option.some.inj hst ▸ .first .sendHeartbeat
  | listenForCommands nodeId =>
    obtain rfl := Option.some.inj hst
    obtain ⟨queues, h⟩ := c.mgr.listenForCommands_eq nodeId
    exact h ▸ .first (.listenForCommands h)
  | takeCommand =>
    obtain ⟨⟨command, m⟩, hx, rfl⟩ := Option.map_eq_some_iff.1 hst
    obtain ⟨rest, hq, rfl⟩ := Manager.takeCommand_eq_some hx
    exact .first (.takeCommand hq)
  | reportJobStatus req now =>
    obtain rfl := Option.some.inj hst
    exact .first (begun_reportJobStatus cfg c req now)
  | submitJob =>
    obtain ⟨m, hm, rfl⟩ := Option.map_eq_some_iff.1 hst
    obtain ⟨reg, hreg, rfl⟩ := Option.map_eq_some_iff.1 hm
    exact .first (.submitJob hreg)
  | schedulerPass =>
    obtain ⟨hno, h⟩ := Option.ite_none_left_eq_some.1 hst
    obtain rfl := Option.some.inj h
    unfold Manager.beginSchedulerPass
    cases hq : c.mgr.queue with
    | nil => exact .first (.noJob (by simpa using hno) hq)
    | cons job queue => exact .first (.popJob (by simpa using hno) hq)
  | monitorPass now =>
    obtain ⟨hno, h⟩ := Option.ite_none_left_eq_some.1 hst
    obtain rfl := Option.some.inj h
    unfold Manager.beginMonitorPass
    dsimp only
    split_ifs with hoff
    · exact .first (.noneOffline (by simpa using hno) (List.isEmpty_iff.1 hoff))
    · exact .first (.someOffline (by simpa using hno) fun h => hoff (List.isEmpty_iff.2 h))
  | probe => exact Option.some.inj hst ▸ .first .probe
  | restart => exact Option.some.inj hst ▸ .restart
  | runTask i now =>
    simp only [exec] at hst
    cases hi : c.tasks[i]? with
    | none => rw [hi] at hst; cases hst
    | some t => rw [hi] at hst; exact Option.some.inj hst ▸ .next hi

/-- Where a task after a call comes from: it was there, or it has begun, or it is left of the task
that made the call. -/
inductive TaskAfter (cfg : Setup) (c : Conf) : Label → Manager → Task → Prop
  | kept {l : Label} {m : Manager} {t : Task} : t ∈ c.tasks → TaskAfter cfg c l m t
  | begun {l : Label} {m : Manager} {t : Task} : Begun cfg c l m (some t) → TaskAfter cfg c l m t
  | next {i : ℕ} {now : Time} {m : Manager} {t t' : Task} : c.tasks[i]? = some t →
      (t.step cfg now c.mgr).1 = m → (t.step cfg now c.mgr).2 = some t' →
      TaskAfter cfg c (.runTask i now) m t'

theorem taskAfter (hst : exec cfg c l = some c') {t : Task} (ht : t ∈ c'.tasks) :
    TaskAfter cfg c l c'.mgr t := by
  cases call hst with
  | @first _ m next hbegun =>
    rcases List.mem_append.1 ht with ht | ht
    · exact .kept ht
    · have hnext : next = some t := Option.mem_toList.1 ht
      exact .begun (hnext ▸ hbegun)
  | restart => cases ht
  | next hi =>
    rcases List.mem_append.1 ht with ht | ht
    · exact .kept (List.mem_of_mem_eraseIdx ht)
    · exact .next hi rfl (Option.mem_toList.1 ht)

/-- A call that submits no job updates at most one row of the jobs table. -/
theorem jobsUpdate (hst : exec cfg c l = some c') (hl : ∀ j req now, l ≠ .submitJob j req now) :
    c.mgr.registry.JobsUpdate c'.mgr.registry := by
  cases call hst with
  | first h =>
    cases h with
    | registerNode => exact .none (Registry.jobs_registerNode ..)
    | sendHeartbeat | listenForCommands | takeCommand | reportIgnored | reportRetry | reportFail
      | noJob | popJob | noneOffline | someOffline | probe => exact .none rfl
    | @reportCompleted req now => exact .status req.jobId .completed none (some 0) now rfl
    | submitJob => exact absurd rfl (hl _ _ _)
  | restart => exact .none rfl
  | next => exact Task.jobsUpdate_step ..

/-- **A call is at most one write to the jobs table.** -/
theorem jobsWrite (hst : exec cfg c l = some c') :
    c.mgr.registry.JobsWrite c'.mgr.registry := by
  by_cases hl : ∃ j req now, l = .submitJob j req now
  · obtain ⟨j, req, now, rfl⟩ := hl
    cases call hst with
    | first h =>
      cases h with
      | submitJob hreg => exact .insert _ _ hreg
  · exact .update (jobsUpdate hst fun j req now h => hl ⟨j, req, now, h⟩)

/-- The queue after a call. -/
def queueAfter (c : Conf) : Label → List JobDict
  | .schedulerPass _ => c.mgr.queue.tail
  | .restart => recoverPendingJobs c.mgr.registry
  | .runTask i _ => (c.tasks[i]?.map (Task.queueAfter c.mgr.queue)).getD c.mgr.queue
  | _ => c.mgr.queue

theorem queue_step (hst : exec cfg c l = some c') : c'.mgr.queue = c.queueAfter l := by
  cases call hst with
  | first h =>
    cases h with
    | noJob _ hq | popJob _ hq => simp [spawn, queueAfter, hq]
    | registerNode | sendHeartbeat | listenForCommands | takeCommand | reportIgnored | reportRetry
      | reportFail | reportCompleted | submitJob | noneOffline | someOffline | probe => rfl
  | restart => rfl
  | @next i now t hi =>
    rw [queueAfter, hi]
    exact Task.queue_step ..

/-- The scheduler is about to build and send the command. -/
def Builds (cfg : Setup) (c : Conf) (command : Command) : Prop :=
  ∃ job masterAddr node rank todo, .schedSend job masterAddr ((node, rank) :: todo) ∈ c.tasks ∧
    command = c.mgr.launchCommand cfg job masterAddr rank

/-- **A queued command was queued before, or has just been built.** -/
theorem mem_commandQueues (hst : exec cfg c l = some c') {n : String} {q : List Command}
    {command : Command} (hq : c'.mgr.commandQueues n = some q) (hc : command ∈ q) :
    (∃ q', c.mgr.commandQueues n = some q' ∧ command ∈ q') ∨ Builds cfg c command := by
  cases call hst with
  | first h =>
    cases h with
    | listenForCommands h => exact .inl (Manager.mem_listenForCommands (h ▸ hq) hc)
    | takeCommand hrest =>
      simp only [spawn] at hq
      split_ifs at hq with hn
      · obtain rfl := Option.some.inj hq
        exact .inl ⟨_, hn ▸ hrest, List.mem_cons_of_mem _ hc⟩
      · exact .inl ⟨q, hq, hc⟩
    | registerNode | sendHeartbeat | reportIgnored | reportRetry | reportFail | reportCompleted
      | submitJob | noJob | popJob | noneOffline | someOffline | probe => exact .inl ⟨q, hq, hc⟩
  | restart => cases hq
  | @next i now t hi =>
    rw [resume, Task.commandQueues_step] at hq
    have hmem := List.mem_of_getElem? hi
    cases t with
    | registerQueue nodeId => exact .inl (Manager.mem_newCommandQueue hq hc)
    | schedSend job masterAddr todo =>
      cases todo with
      | nil => exact .inl ⟨q, hq, hc⟩
      | cons x todo =>
        rcases Manager.mem_sendCommand hq hc with h | ⟨-, rfl⟩
        · exact .inl h
        · exact .inr ⟨job, masterAddr, x.1, x.2, todo, hmem, rfl⟩
    | submitAppend | retrySetIdle | retryWrite | retryAppend | failWrite | closedSetIdle
      | schedSelect | schedRequeue | schedReserve | monJobs | monLoop | monAppend | monCount =>
      exact .inl ⟨q, hq, hc⟩

/-- The job dicts in the memory of the manager. -/
def dicts (c : Conf) : List JobDict := c.mgr.queue ++ c.tasks.flatMap Task.dicts

/-- Where a job dict comes from. -/
inductive Source (c : Conf) : Label → JobDict → Prop
  | kept {l : Label} {d : JobDict} : d ∈ c.dicts → Source c l d
  | retried {l : Label} {d : JobDict} : d ∈ c.dicts → Source c l d.retried
  | read {l : Label} {row : JobRow} : c.mgr.registry.getJob row.jobId = some row →
      Source c l row.toDict
  | submitted {jobId : String} {req : JobSubmitRequest} {now : Time} :
      Source c (.submitJob jobId req now) (req.toDict jobId)

/-- The rows that a call reads into memory: that of a job which is reported to have failed, those
that run, and those that a restart recovers. -/
inductive Reads (c : Conf) : Label → JobRow → Prop
  | report {req : JobStatusRequest} {now : Time} {row : JobRow} : req.isFailure = true →
      c.mgr.registry.getJob req.jobId = some row → Reads c (.reportJobStatus req now) row
  | running {l : Label} {row : JobRow} : row ∈ c.mgr.registry.getJobs .running → Reads c l row
  | recovered {row : JobRow} : row ∈ c.mgr.registry.getJobs .pending → Reads c .restart row

theorem Reads.getJob {row : JobRow} (h : c.Reads l row) :
    c.mgr.registry.getJob row.jobId = some row := by
  cases h with
  | report _ hrow => exact Registry.jobId_of_getJob hrow ▸ hrow
  | running hrow | recovered hrow => exact (Registry.mem_getJobs.1 hrow).1

/-- Where a job dict comes from, with the call that has read it. -/
inductive Origin (c : Conf) : Label → JobDict → Prop
  | kept {l : Label} {d : JobDict} : d ∈ c.dicts → Origin c l d
  | retried {l : Label} {d : JobDict} : d ∈ c.dicts → Origin c l d.retried
  | read {l : Label} {row : JobRow} : c.Reads l row → Origin c l row.toDict
  | submitted {jobId : String} {req : JobSubmitRequest} {now : Time} :
      Origin c (.submitJob jobId req now) (req.toDict jobId)

theorem origin_spawn {m : Manager} {t : Option Task} (hq : m.queue ⊆ c.mgr.queue)
    (ht : ∀ t' ∈ t, ∀ d ∈ t'.dicts, Origin c l d) {d : JobDict}
    (hd : d ∈ (c.spawn (m, t)).dicts) : Origin c l d := by
  simp only [dicts, spawn, List.flatMap_append, List.mem_append] at hd
  rcases hd with hd | hd | hd
  · exact .kept (List.mem_append_left _ (hq hd))
  · exact .kept (List.mem_append_right _ hd)
  · obtain ⟨t', ht', hd⟩ := List.mem_flatMap.1 hd
    exact ht t' (by simpa using ht') d hd

/-- **Where the job dicts in memory come from**: submissions and rows, with retries added. -/
theorem origin (hst : exec cfg c l = some c') {d : JobDict} (hd : d ∈ c'.dicts) :
    Origin c l d := by
  cases call hst with
  | first h =>
    cases h with
    | registerNode | reportFail | reportCompleted | noneOffline | someOffline =>
      exact origin_spawn (List.Subset.refl _) (by rintro _ ⟨⟩ d ⟨⟩) hd
    | sendHeartbeat | listenForCommands | takeCommand | reportIgnored | noJob | probe =>
      exact origin_spawn (List.Subset.refl _) (by rintro _ ⟨⟩) hd
    | reportRetry hf hj _ =>
      refine origin_spawn (List.Subset.refl _) ?_ hd
      rintro _ ⟨⟩ d hd
      obtain rfl := List.mem_singleton.1 hd
      exact .read (.report hf hj)
    | submitJob =>
      refine origin_spawn (List.Subset.refl _) ?_ hd
      rintro _ ⟨⟩ d hd
      exact List.mem_singleton.1 hd ▸ .submitted
    | @popJob now job queue _ hq =>
      refine origin_spawn (hq ▸ List.subset_cons_self job queue) ?_ hd
      rintro _ ⟨⟩ d hd
      obtain rfl := List.mem_singleton.1 hd
      exact .kept (List.mem_append_left _ (hq ▸ List.mem_cons_self))
  | restart =>
    rw [dicts, List.flatMap_nil, List.append_nil] at hd
    obtain ⟨row, hrow, rfl⟩ := List.mem_map.1
      ((perm_recoverPendingJobs c.mgr.registry).subset hd)
    exact .read (.recovered hrow)
  | @next i now t hi =>
    have ht : t.dicts ⊆ c.dicts := fun d hd =>
      List.mem_append_right _ (List.mem_flatMap.2 ⟨t, List.mem_of_getElem? hi, hd⟩)
    simp only [dicts, resume, List.flatMap_append, List.mem_append] at hd
    rcases hd with hd | hd | hd
    · rw [Task.queue_step] at hd
      rcases List.mem_append.1 (t.queueAfter_subset _ hd) with hd | hd
      · exact .kept (List.mem_append_left _ hd)
      · exact .kept (ht hd)
    · obtain ⟨t', ht', hd⟩ := List.mem_flatMap.1 hd
      exact .kept (List.mem_append_right _
        (List.mem_flatMap.2 ⟨t', List.mem_of_mem_eraseIdx ht', hd⟩))
    · obtain ⟨t', ht', hd⟩ := List.mem_flatMap.1 hd
      rcases Task.dicts_step (by simpa using ht') hd with hd | ⟨d₀, hd₀, rfl⟩ | ⟨row, hrow, rfl⟩
      · exact .kept (ht hd)
      · exact .retried (ht hd₀)
      · exact .read (.running hrow)

theorem source (hst : exec cfg c l = some c') {d : JobDict} (hd : d ∈ c'.dicts) :
    Source c l d := by
  cases origin hst hd with
  | kept h => exact .kept h
  | retried h => exact .retried h
  | read h => exact .read h.getJob
  | submitted => exact .submitted

end Conf

end Dmlf
