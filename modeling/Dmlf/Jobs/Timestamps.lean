import Dmlf.Manager.Lifecycle
import Dmlf.Manager.Outgoing

/-!
# The history of a job in its row

`created_at`, `started_at`, `completed_at` and `exit_code` are written by different calls, each of
which reads the clock on its own, and a retry clears none of them.

* `Registry.TimedWrite` : what a call writes to the jobs table, with its reading of the clock.
* `Registry.Timed` : all times in the rows are past, and no job runs that has not been started.
* `Conf.consistent_reachable` : the rows of closed jobs are consistent, if the clock does not go
  back and status reports are only about jobs that have been dispatched.
-/

namespace Dmlf

/-! ### Rows -/

/-- The exit code and the times of a closed job. -/
structure JobRow.Consistent (row : JobRow) : Prop where
  completed : row.status = .completed → row.exitCode = some 0
  failed : row.status = .failed → row.exitCode = some 1
  times : row.status = .completed ∨ row.status = .failed → ∃ started completed,
    row.startedAt = some started ∧ row.completedAt = some completed ∧
      row.createdAt ≤ started ∧ started ≤ completed

/-- A consistent row at time `t`. -/
structure JobRow.Timed (t : Time) (row : JobRow) : Prop where
  consistent : row.Consistent
  created : row.createdAt ≤ t
  started : ∀ s ∈ row.startedAt, row.createdAt ≤ s ∧ s ≤ t
  running : row.status = .running → row.startedAt ≠ none

namespace JobRow

variable {t now : Time} {row : JobRow}

theorem Timed.mono (h : row.Timed t) (hle : t ≤ now) : row.Timed now where
  consistent := h.consistent
  created := h.created.trans hle
  started := fun s hs => ⟨(h.started s hs).1, (h.started s hs).2.trans hle⟩
  running := h.running

theorem consistent_of_open (h : row.status = .pending ∨ row.status = .running) :
    row.Consistent := by
  have hne : row.status ≠ .completed ∧ row.status ≠ .failed := by
    rcases h with h | h <;> rw [h] <;> exact ⟨by rintro ⟨⟩, by rintro ⟨⟩⟩
  exact ⟨fun h' => absurd h' hne.1, fun h' => absurd h' hne.2,
    fun h' => h'.elim (fun h' => absurd h' hne.1) fun h' => absurd h' hne.2⟩

theorem timed_toRow (job : JobDict) (hjob : job.status = .pending) : (job.toRow now).Timed now where
  consistent := consistent_of_open (.inl hjob)
  created := le_refl now
  started := by rintro _ ⟨⟩
  running := fun h => by cases hjob.symm.trans h

theorem Timed.retry (h : row.Timed t) (n : ℤ) :
    JobRow.Timed t { row with status := .pending, retries := n } where
  consistent := consistent_of_open (.inl rfl)
  created := h.created
  started := h.started
  running := by rintro ⟨⟩

theorem Timed.start (h : row.Timed t) (hle : t ≤ now) (nodes : List String) :
    (row.withStatus .running (some nodes) none now).Timed now where
  consistent := consistent_of_open (.inr rfl)
  created := h.created.trans hle
  started := by
    rintro _ ⟨⟩
    exact ⟨h.created.trans hle, le_refl now⟩
  running := fun _ => by rintro ⟨⟩

theorem Timed.close (h : row.Timed t) (hle : t ≤ now) (hs : row.startedAt ≠ none) (o : Bool) :
    (row.withStatus (if o then .completed else .failed) none (some (if o then 0 else 1))
      now).Timed now := by
  obtain ⟨s, hs⟩ := Option.ne_none_iff_exists'.1 hs
  have hstarted : (row.withStatus (if o then .completed else .failed) none
      (some (if o then 0 else 1)) now).startedAt = some s := by
    cases o <;> exact hs
  have hcompleted : (row.withStatus (if o then .completed else .failed) none
      (some (if o then 0 else 1)) now).completedAt = some now := by
    cases o <;> rfl
  refine ⟨⟨?_, ?_, fun _ => ?_⟩, h.created.trans hle, ?_, ?_⟩
  · intro h'
    cases o with
    | true => rfl
    | false => cases h'
  · intro h'
    cases o with
    | true => cases h'
    | false => rfl
  · exact ⟨s, now, hstarted, hcompleted, (h.started s hs).1, (h.started s hs).2.trans hle⟩
  · rw [hstarted]
    rintro _ ⟨⟩
    exact ⟨(h.started s hs).1, (h.started s hs).2.trans hle⟩
  · intro h'
    cases o <;> cases h'

end JobRow

/-! ### Writes -/

namespace Registry

variable {reg reg' : Registry} {t now : Time} {j : String}

/-- The job has been started, in the current attempt or in an earlier one. -/
def Started (reg : Registry) (j : String) : Prop :=
  ∃ row, reg.getJob j = some row ∧ row.startedAt ≠ none

/-- What a call that reads the time `now` writes to the jobs table. -/
inductive TimedWrite (reg reg' : Registry) (now : Time) : Prop
  | none (h : reg'.jobs = reg.jobs)
  | insert (job : JobDict) (hjob : job.status = .pending) (h : reg.insertJob job now = some reg')
  | retry (j : String) (n : ℤ) (h : reg'.jobs = (reg.updateJobRetries j .pending n).jobs)
  | start (j : String) (nodes : List String)
      (h : reg'.jobs = (reg.updateJobStatus j .running (some nodes) none now).jobs)
  | close (j : String) (o : Bool) (hj : reg.Started j)
      (h : reg'.jobs = (reg.updateJobStatus j (if o then .completed else .failed) none
        (some (if o then 0 else 1)) now).jobs)

/-- All rows are consistent at time `t`. -/
def Timed (reg : Registry) (t : Time) : Prop := ∀ j row, reg.getJob j = some row → row.Timed t

theorem getJob_congr (h : reg'.jobs = reg.jobs) (j : String) : reg'.getJob j = reg.getJob j := by
  rw [getJob, getJob, h]

theorem Timed.mono (h : reg.Timed t) (hle : t ≤ now) : reg.Timed now :=
  fun j row hrow => (h j row hrow).mono hle

theorem Timed.updateJob (h : reg.Timed t) (hle : t ≤ now) {f : JobRow → JobRow} (hf)
    (hjobs : reg'.jobs = (reg.updateJob j f hf).jobs)
    (hrow : ∀ row, reg.getJob j = some row → (f row).Timed now) : reg'.Timed now := by
  intro i row hi
  rw [getJob_congr hjobs, getJob_updateJob] at hi
  split_ifs at hi with hij
  · obtain ⟨r, hr, rfl⟩ := Option.map_eq_some_iff.1 hi
    exact hrow r hr
  · exact (h i row hi).mono hle

/-- **A write keeps the rows consistent.** -/
theorem TimedWrite.timed (hw : reg.TimedWrite reg' now) (h : reg.Timed t) (hle : t ≤ now) :
    reg'.Timed now := by
  cases hw with
  | none hjobs =>
    intro i row hi
    rw [getJob_congr hjobs] at hi
    exact (h i row hi).mono hle
  | insert job hjob hins =>
    intro i row hi
    rw [getJob_insertJob hins] at hi
    split_ifs at hi
    · obtain rfl := Option.some.inj hi
      exact JobRow.timed_toRow job hjob
    · exact (h i row hi).mono hle
  | retry j n hjobs =>
    exact h.updateJob hle _ hjobs fun row hrow => ((h j row hrow).retry n).mono hle
  | start j nodes hjobs =>
    exact h.updateJob hle _ hjobs fun row hrow => (h j row hrow).start hle nodes
  | close j o hj hjobs =>
    refine h.updateJob hle _ hjobs fun row hrow => (h j row hrow).close hle ?_ o
    obtain ⟨r, hr, hs⟩ := hj
    obtain rfl : r = row := Option.some.inj (hr.symm.trans hrow)
    exact hs

theorem started_updateJob {f : JobRow → JobRow} (hf)
    (hjobs : reg'.jobs = (reg.updateJob j f hf).jobs)
    (hs : ∀ row : JobRow, row.startedAt ≠ none → (f row).startedAt ≠ none) {i : String}
    (h : reg.Started i) : reg'.Started i := by
  obtain ⟨row, hrow, hstarted⟩ := h
  rw [Started, getJob_congr hjobs, getJob_updateJob]
  split_ifs with hij
  · subst hij
    exact ⟨f row, by rw [hrow]; rfl, hs row hstarted⟩
  · exact ⟨row, hrow, hstarted⟩

/-- **No write clears `started_at`.** -/
theorem TimedWrite.started (hw : reg.TimedWrite reg' now) (h : reg.Started j) :
    reg'.Started j := by
  cases hw with
  | none hjobs =>
    rw [Started, getJob_congr hjobs]
    exact h
  | insert job hjob hins =>
    obtain ⟨row, hrow, hs⟩ := h
    exact ⟨row, getJob_insertJob_of_some hins hrow, hs⟩
  | retry k n hjobs => exact started_updateJob _ hjobs (fun _ hs => hs) h
  | start k nodes hjobs => exact started_updateJob _ hjobs (fun _ _ => by rintro ⟨⟩) h
  | close k o hk hjobs =>
    refine started_updateJob _ hjobs (fun row hs => ?_) h
    cases o <;> exact hs

end Registry

/-! ### Calls -/

namespace Task

variable {cfg : Setup} {m : Manager} {now : Time} {t t' : Task} {reg reg' : Registry}

/-- A job that the task may close has been started. -/
def ClosesStarted (reg : Registry) : Task → Prop
  | .failWrite req => reg.Started req.jobId
  | .monLoop _ jobs | .monAppend _ jobs _ => ∀ job ∈ jobs, reg.Started job.jobId
  | _ => True

theorem ClosesStarted.mono (h : t.ClosesStarted reg) (hmono : ∀ j, reg.Started j → reg'.Started j) :
    t.ClosesStarted reg' := by
  cases t with
  | failWrite req => exact hmono _ h
  | monLoop offline jobs => exact fun job hjob => hmono _ (h job hjob)
  | monAppend offline jobs job => exact fun job hjob => hmono _ (h job hjob)
  | registerQueue | submitAppend | retrySetIdle | retryWrite | retryAppend | closedSetIdle
    | schedSelect | schedRequeue | schedReserve | schedSend | monJobs | monCount => trivial

theorem timedWrite_step (h : t.ClosesStarted m.registry) :
    m.registry.TimedWrite (t.step cfg now m).1.registry now := by
  cases t with
  | registerQueue | submitAppend | retrySetIdle | retryAppend | schedSelect | schedRequeue
    | monJobs | monAppend | monCount => exact .none rfl
  | retryWrite job => exact .retry job.jobId (job.retries + 1) rfl
  | failWrite req => exact .close req.jobId false h rfl
  | closedSetIdle req =>
    simp only [step]
    split_ifs <;> exact .none rfl
  | schedReserve job nodes todo =>
    cases todo with
    | nil => exact .start job.jobId (nodes.map NodeRow.nodeId) rfl
    | cons node todo => exact .none rfl
  | schedSend job masterAddr todo =>
    cases todo with
    | nil => exact .none rfl
    | cons x todo => exact .none (congrArg Registry.jobs (m.sendCommand_keeps _ _).1)
  | monLoop offline jobs =>
    cases jobs with
    | nil => exact .none rfl
    | cons job jobs =>
      simp only [step]
      split_ifs
      · exact .retry job.jobId (job.retries + 1) rfl
      · exact .close job.jobId false (h job List.mem_cons_self) rfl
      · exact .none rfl

/-- The monitor goes on with the rows that it reads, which run. -/
theorem closesStarted_step (h : t.ClosesStarted m.registry)
    (hrun : ∀ row ∈ m.registry.getJobs .running, m.registry.Started row.jobId)
    (ht : t' ∈ (t.step cfg now m).2) : t'.ClosesStarted m.registry := by
  cases next_of_step ht with
  | retryWrite | retryAppend | failed | tooFew | selected | reserved | started | sent | marked =>
    trivial
  | monLoop => exact hrun
  | lost offline job jobs | passed offline job jobs =>
    exact fun job' hjob' => h job' (List.mem_cons_of_mem job hjob')
  | appended => exact h

end Task

/-- The reading of the clock that comes with a call, or the last one. -/
def Label.clock (t : Time) : Label → Time
  | .registerNode _ _ _ now | .sendHeartbeat _ now | .reportJobStatus _ now | .submitJob _ _ now
  | .schedulerPass now | .monitorPass now | .probe now | .runTask _ now => now
  | .listenForCommands _ | .takeCommand _ | .restart => t

namespace Conf

variable {cfg : Setup} {c c' : Conf} {l : Label} {t : Time}

/-- The clock does not go back, and a status report is about a job that has been dispatched. -/
def Launched (s : Conf × Time) (l : Label) : Prop :=
  s.2 ≤ l.clock s.2 ∧ ∀ req now, l = .reportJobStatus req now →
    0 < dispatchesIn s.1.mgr.history req.jobId

/-- The manager with the last reading of its clock, in the runs that the launcher allows. -/
def timed (cfg : Setup) : LTS (Conf × Time) Label :=
  ((fine cfg).recorded fun _ t l => l.clock t).restrict Launched

/-- What holds at time `t`. -/
structure Timed (c : Conf) (t : Time) : Prop where
  wellFormed : c.WellFormed
  rows : c.mgr.registry.Timed t
  dispatched : ∀ j, 0 < dispatchesIn c.mgr.history j → c.mgr.registry.Started j
  tasks : ∀ task ∈ c.tasks, task.ClosesStarted c.mgr.registry

theorem Timed.running (h : c.Timed t) :
    ∀ row ∈ c.mgr.registry.getJobs .running, c.mgr.registry.Started row.jobId := by
  intro row hrow
  obtain ⟨hget, hs⟩ := Registry.mem_getJobs.1 hrow
  exact ⟨row, hget, (h.rows _ row hget).running hs⟩

theorem Begun.timedWrite {m : Manager} {next : Option Task} (hb : Begun cfg c l m next)
    (h : c.Timed t) (hl : Launched (c, t) l) :
    c.mgr.registry.TimedWrite m.registry (l.clock t) := by
  cases hb with
  | registerNode => exact .none (Registry.jobs_registerNode ..)
  | sendHeartbeat | listenForCommands | takeCommand | reportIgnored | reportRetry | reportFail
    | noJob | popJob | noneOffline | someOffline | probe => exact .none rfl
  | @reportCompleted req now hf hc =>
    exact .close req.jobId true (h.dispatched _ (hl.2 req now rfl)) rfl
  | @submitJob jobId req now registry hins => exact .insert (req.toDict jobId) rfl hins

theorem timedWrite (hst : exec cfg c l = some c') (h : c.Timed t) (hl : Launched (c, t) l) :
    c.mgr.registry.TimedWrite c'.mgr.registry (l.clock t) := by
  cases call hst with
  | first hb => exact hb.timedWrite h hl
  | restart => exact .none rfl
  | next hi => exact Task.timedWrite_step (h.tasks _ (List.mem_of_getElem? hi))

theorem closesStarted_step (hst : exec cfg c l = some c') (h : c.Timed t) (hl : Launched (c, t) l) :
    ∀ task ∈ c'.tasks, task.ClosesStarted c.mgr.registry := by
  intro task htask
  have hafter := taskAfter hst htask
  generalize c'.mgr = m at hafter
  cases hafter with
  | kept htask => exact h.tasks task htask
  | begun hb =>
    cases hb with
    | @reportFail req now => exact h.dispatched _ (hl.2 req now rfl)
    | noneOffline => exact fun job hjob => absurd hjob List.not_mem_nil
    | registerNode | reportRetry | reportCompleted | submitJob | popJob | someOffline => trivial
  | next hi _ hnext =>
    exact Task.closesStarted_step (h.tasks _ (List.mem_of_getElem? hi)) h.running hnext

theorem started_of_starts (hst : exec cfg c l = some c') (h : c.WellFormed)
    {x : JobDict × List NodeRow} (hx : c.starts l = some x) :
    c'.mgr.registry.Started x.1.jobId := by
  obtain ⟨i, now, -, hi, rfl⟩ := eq_of_starts hst hx
  obtain ⟨row, hrow⟩ := h.tasks _ (List.mem_of_getElem? hi)
  refine ⟨row.withStatus .running (some (x.2.map NodeRow.nodeId)) none now, ?_, by rintro ⟨⟩⟩
  refine (Registry.getJob_updateJob ..).trans ?_
  rw [if_pos rfl, hrow]
  rfl

/-- **A call keeps the times in order.** -/
theorem timed_step (hst : exec cfg c l = some c') (h : c.Timed t) (hl : Launched (c, t) l) :
    c'.Timed (l.clock t) := by
  have hwrite := timedWrite hst h hl
  refine ⟨h.wellFormed.step hst, hwrite.timed h.rows hl.1, fun j hj => ?_, fun task htask => ?_⟩
  · rw [dispatchesIn_step hst] at hj
    by_cases hold : 0 < dispatchesIn c.mgr.history j
    · exact hwrite.started (h.dispatched j hold)
    · -- the job has just been dispatched for the first time
      obtain ⟨x, hx, hxj⟩ : ∃ x, c.starts l = some x ∧ x.1.jobId = j := by
        cases hx : c.starts l with
        | none => simp [hx] at hj; omega
        | some x =>
          refine ⟨x, rfl, ?_⟩
          by_contra hne
          simp [hx, hne] at hj
          omega
      exact hxj ▸ started_of_starts hst h.wellFormed hx
  · exact (closesStarted_step hst h hl task htask).mono fun _ => hwrite.started

theorem timed_start (t : Time) : (start .empty).Timed t where
  wellFormed := wellFormed_start _
  rows := fun j row hrow => by cases hrow
  dispatched := fun j hj => absurd hj (lt_irrefl 0)
  tasks := fun task htask => absurd htask List.not_mem_nil

/-- **Job history is consistent.**  In every state that is reached from an empty database, the rows
of completed and failed jobs have their exit code, and their times in order. -/
theorem consistent_reachable {t₀ : Time} (h : (timed cfg).Reachable (start .empty, t₀) (c, t)) :
    ∀ row ∈ c.mgr.registry.jobs.rows, row.Consistent := by
  have hkeeps : (timed cfg).Preserves fun s => s.1.Timed s.2 := by
    intro s l s' hst hs
    obtain ⟨hl, hexec, hclock⟩ := hst
    rw [hclock]
    exact timed_step hexec hs hl
  have htimed : c.Timed t := h.keeps hkeeps (timed_start t₀)
  exact fun row hrow => (htimed.rows _ row (Table.find?_of_mem hrow)).consistent

instance (s : Conf × Time) : DecidablePred (Launched s)
  | .reportJobStatus req now => decidable_of_iff
      (s.2 ≤ now ∧ 0 < dispatchesIn s.1.mgr.history req.jobId) <| and_congr_right fun _ =>
        ⟨fun h req' now' heq => (Label.reportJobStatus.inj heq).1 ▸ h, fun h => h req now rfl⟩
  | .registerNode _ _ _ now | .sendHeartbeat _ now | .submitJob _ _ now | .schedulerPass now
  | .monitorPass now | .probe now | .runTask _ now => decidable_of_iff (s.2 ≤ now)
      ⟨fun h => ⟨h, fun _ _ heq => by cases heq⟩, And.left⟩
  | .listenForCommands _ | .takeCommand _ | .restart => .isTrue
      ⟨le_refl s.2, fun _ _ heq => by cases heq⟩

end Conf

/-- The calls of a job that is completed, then retried because of a late failure, and completed
again. -/
def Sample.completedTwice : List Label :=
  [.registerNode "node-1" "secret-1" node 100, .runTask 0 100, .submitJob "job-1" (job 1 1) 101,
    .runTask 0 101] ++ dispatchOne 102 ++
  [.reportJobStatus ⟨"node-1", "job-1", "completed"⟩ 103, .runTask 0 103,
    .reportJobStatus ⟨"node-1", "job-1", "failed"⟩ 104, .runTask 0 104, .runTask 0 104,
    .runTask 0 104] ++ dispatchOne 105 ++
  [.reportJobStatus ⟨"node-1", "job-1", "completed"⟩ 106, .runTask 0 106]

namespace Conf

/-- The row after both attempts. -/
theorem consistent_completedTwice :
    let rows := (LTS.last (start .empty, (0 : Time)) (LTS.record (fun _ t l => l.clock t)
      (start .empty) 0 (LTS.runOf (exec Sample.setup) (start .empty)
        Sample.completedTwice))).1.mgr.registry.jobs.rows
    rows.map (fun row => (row.status, row.retries)) = [(.completed, 1)] ∧
      ∀ row ∈ rows, row.Consistent :=
  ⟨by decide +kernel,
    consistent_reachable (show (timed Sample.setup).Reachable (start .empty, 0) _ from
      (((LTS.run_runOf _ _ _).record _ 0).restrict (by decide +kernel)).reachable)⟩

end Conf

end Dmlf
