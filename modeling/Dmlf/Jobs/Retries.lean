import Dmlf.Manager.Lifecycle

/-!
# The retry counter

`retry_job` writes one more than the counter of the job dict it is given, which the report
handler or the monitor has read some calls before.

* `Conf.countsRetries_iff_unchanged` : the counters of a run count the retries exactly as long as
  every retry finds the counter that was read.
* `Conf.attempts_bounded` : if reports, submissions and monitor passes are handled one at a time,
  no counter that was read changes before the retry, and so the number of dispatches of a job is
  bounded by its retry limit, whatever the scheduler does meanwhile and wherever the manager is
  restarted.
-/

namespace Dmlf

namespace Task

/-- The row, as it was read, whose retry the next call of a task writes. -/
def retrying : Task → Option JobRow
  | .retryWrite job => some job
  | .monLoop offline (job :: _) =>
    if job.lostNode offline ∧ job.retries < job.maxRetries then some job else none
  | _ => none

theorem freshRetry_act (L : Ledger String Bool) (t : Task) :
    L.FreshRetry t.act ↔
      ∀ job, t.retrying = some job →
        ∀ it, L.item job.jobId = some it → it.retries = job.retries := by
  cases t with
  | retryWrite job => simp [act, retrying, Ledger.FreshRetry, eq_comm]
  | monLoop offline jobs =>
    cases jobs with
    | nil => simp [act, retrying, Ledger.FreshRetry]
    | cons job jobs =>
      simp only [act, retrying]
      by_cases hlost : job.lostNode offline = true <;>
        by_cases hlt : job.retries < job.maxRetries <;>
        simp [hlost, hlt, Ledger.FreshRetry, eq_comm]
  | schedReserve job nodes todo => cases todo <;> simp [act, retrying, Ledger.FreshRetry]
  | _ => simp [act, retrying, Ledger.FreshRetry]

end Task

namespace Conf

variable {cfg : Setup} {c c' : Conf}

/-- The counter of every row is the number of `update_job_retries` writes for it, and no job is
retried more often than its limit allows. -/
def CountsRetries (c : Conf) : Prop :=
  ∀ j row, c.mgr.registry.getJob j = some row →
    row.retries = retriesIn c.mgr.history j ∧
      (retriesIn c.mgr.history j : ℤ) ≤ max 0 row.maxRetries

/-- If the call writes a retry, the counter in the row is still the one that was read. -/
def RetriesUnchanged (c : Conf) : Label → Prop
  | .runTask i _ =>
    ∀ t job row, c.tasks[i]? = some t → t.retrying = some job →
      c.mgr.registry.getJob job.jobId = some row → row.retries = job.retries
  | _ => True

theorem countsRetries_iff (h : c.ledger.Inv) : c.CountsRetries ↔ c.ledger.Exact := by
  constructor
  · intro hc j it hit
    obtain ⟨row, hrow, rfl⟩ := item_ledger.1 hit
    exact (hc j row hrow).1
  · intro hE j row hrow
    have hit : c.ledger.item j = some row.item := item_ledger.2 ⟨row, hrow, rfl⟩
    have heq : row.retries = retriesIn c.mgr.history j := hE j _ hit
    exact ⟨heq, heq ▸ h.bound j _ hit⟩

theorem freshRetry_iff (l : Label) : c.ledger.FreshRetry (c.act l) ↔ c.RetriesUnchanged l := by
  cases l with
  | runTask i now =>
    simp only [act, RetriesUnchanged]
    cases hi : c.tasks[i]? with
    | none => simp [Ledger.FreshRetry]
    | some t =>
      simp only [Task.freshRetry_act, item_ledger, Option.some.injEq]
      constructor
      · rintro h _ job row rfl hjob hrow
        exact h job hjob _ ⟨row, hrow, rfl⟩
      · rintro h job hjob _ ⟨row, hrow, rfl⟩
        exact h t job row rfl hjob hrow
  | reportJobStatus req now =>
    simp only [act, RetriesUnchanged]
    split_ifs <;> simp [Ledger.FreshRetry]
  | _ => simp [act, RetriesUnchanged, Ledger.FreshRetry]

/-- One call keeps the counters exact exactly if a retry it writes finds the counter that was
read. -/
theorem countsRetries_step {l : Label} (hw : c.WellFormed) (hinv : c.ledger.Inv)
    (hc : c.CountsRetries) (hst : exec cfg c l = some c') :
    c'.CountsRetries ↔ c.RetriesUnchanged l := by
  obtain ⟨-, hen, happ⟩ := simulates hw hst
  have hinv' : c'.ledger.Inv := happ ▸ Ledger.inv_step hinv hen
  rw [countsRetries_iff hinv', happ, Ledger.exact_iff hinv ((countsRetries_iff hinv).1 hc) hen,
    freshRetry_iff]

theorem countsRetries_start : (start .empty).CountsRetries := by
  rintro j row h
  cases h

/-- **No lost retry increment, exactly if no retry is stale.**  All states of a run have exact
counters if and only if every retry of the run is written while the row still has the counter
that was read. -/
theorem countsRetries_iff_unchanged {tr : List (Label × Conf)}
    (h : (fine cfg).Run (start .empty) tr) :
    LTS.StatesMeet CountsRetries (start .empty) tr ↔
      LTS.StepsMeet RetriesUnchanged (start .empty) tr := by
  refine h.statesMeet_iff_stepsMeet (K := fun c => c.WellFormed ∧ c.ledger.Inv)
    preserves_inv (fun c l c' hK hc hst => ?_) ⟨wellFormed_start .empty, inv_start⟩
    countsRetries_start
  exact countsRetries_step hK.1 hK.2 hc hst

/-- The run of two failure reports that are handled one after the other. -/
theorem countsRetries_iff_unchanged_two :
    let tr := LTS.runOf (exec Sample.setup) (start .empty) (Sample.dispatchTwo ++
      [.reportJobStatus ⟨"node-1", "job-1", "failed"⟩ 110, .runTask 0 110, .runTask 0 110])
    LTS.StatesMeet CountsRetries (start .empty) tr ↔
      LTS.StepsMeet RetriesUnchanged (start .empty) tr :=
  countsRetries_iff_unchanged (LTS.run_runOf (exec Sample.setup) (start .empty) _)

/-- Both nodes of a job report a failure, both handlers read the row, and both write it: the job
is retried twice, beyond its limit, and the counter is `1`. -/
theorem countsRetries_fails :
    ¬ ∀ (cfg : Setup) (c : Conf), (fine cfg).Reachable (start .empty) c → c.CountsRetries := by
  intro hall
  obtain ⟨c, hc, hp⟩ := LTS.exists_of_exec (exec Sample.setup) (start .empty)
    (Sample.dispatchTwo ++
      [.reportJobStatus ⟨"node-1", "job-1", "failed"⟩ 110,
        .reportJobStatus ⟨"node-2", "job-1", "failed"⟩ 110] ++ List.replicate 4 (.runTask 0 110))
    (fun c => (c.mgr.registry.getJob "job-1").any fun row =>
      row.retries = 1 ∧ retriesIn c.mgr.history "job-1" = 2)
    (by decide +kernel)
  obtain ⟨row, hrow, hs⟩ := (Option.any_eq_true _ _).1 hp
  obtain ⟨hone, htwo⟩ : row.retries = 1 ∧ retriesIn c.mgr.history "job-1" = 2 := by simpa using hs
  have heq := (hall _ c hc "job-1" row hrow).1
  rw [hone, htwo] at heq
  cases heq

end Conf

/-! ### Handlers one at a time -/

/-- The counter of the row is the one that was read in `s`. -/
def Registry.Counts (reg : Registry) (s : JobRow) : Prop :=
  ∃ row, reg.getJob s.jobId = some row ∧ row.retries = s.retries

/-- No counter changes. -/
def Registry.SameRetries (reg reg' : Registry) : Prop := ∀ s, reg.Counts s → reg'.Counts s

namespace Registry

variable {reg reg' : Registry}

theorem SameRetries.of_jobs_eq (h : reg'.jobs = reg.jobs) : reg.SameRetries reg' := by
  rintro s ⟨row, hrow, heq⟩
  exact ⟨row, by rw [getJob, h]; exact hrow, heq⟩

variable (reg) in
theorem sameRetries_updateJobStatus (j s nodes code now) :
    reg.SameRetries (reg.updateJobStatus j s nodes code now) := by
  rintro r ⟨row, hrow, heq⟩
  obtain ⟨row', hrow', hsame⟩ := keeps_updateJob (g := JobRow.retries) j
    (JobRow.jobId_withStatus s nodes code now) (fun _ => rfl) hrow
  exact ⟨row', hrow', hsame.trans heq⟩

theorem sameRetries_insertJob {job : JobDict} {now : Time}
    (h : reg.insertJob job now = some reg') : reg.SameRetries reg' := by
  rintro s ⟨row, hrow, heq⟩
  exact ⟨row, getJob_insertJob_of_some h hrow, heq⟩

theorem counts_updateJobRetries {s : JobRow} {j : String} {st : JobState} {n : ℤ}
    (h : reg.Counts s) (hj : s.jobId ≠ j) : (reg.updateJobRetries j st n).Counts s := by
  obtain ⟨row, hrow, heq⟩ := h
  exact ⟨row, by rw [updateJobRetries, getJob_updateJob, if_neg hj]; exact hrow, heq⟩

end Registry

namespace Task

/-- A task of a report, of a submission or of a monitor pass. -/
def isHandler : Task → Bool
  | .registerQueue _ => false
  | t => !t.isScheduler

/-- The rows that a task has read and may still retry. -/
def reads : Task → List JobRow
  | .retrySetIdle _ job | .retryWrite job => [job]
  | .monLoop _ jobs | .monAppend _ jobs _ => jobs
  | _ => []

/-- The rows a task has read are of different jobs, and their counters are still the same. -/
structure Fresh (reg : Registry) (t : Task) : Prop where
  nodup : (t.reads.map JobRow.jobId).Nodup
  counts : ∀ job ∈ t.reads, reg.Counts job

theorem Fresh.of_reads {reg : Registry} {t : Task} (h : t.reads = []) : t.Fresh reg :=
  ⟨by simp [h], by simp [h]⟩

theorem Fresh.mono {reg reg' : Registry} {t : Task} (h : reg.SameRetries reg')
    (hf : t.Fresh reg) : t.Fresh reg' :=
  ⟨hf.nodup, fun job hjob => h job (hf.counts job hjob)⟩

theorem reads_of_not_handler {t : Task} (h : t.isHandler = false) : t.reads = [] := by
  cases t <;> first | rfl | cases h

variable {m : Manager} (cfg : Setup) (now : Time)

theorem isHandler_step {t t' : Task} (h : t' ∈ (t.step cfg now m).2) :
    t'.isHandler = t.isHandler := by
  cases next_of_step h <;> rfl

theorem sameRetries_step {t : Task} (h : t.isHandler = false) :
    m.registry.SameRetries (t.step cfg now m).1.registry := by
  cases t with
  | registerQueue | schedRequeue | schedSelect => exact .of_jobs_eq rfl
  | schedReserve job nodes todo =>
    cases todo with
    | nil => exact Registry.sameRetries_updateJobStatus _ _ _ _ _ _
    | cons node todo => exact .of_jobs_eq rfl
  | schedSend job masterAddr todo =>
    cases todo with
    | nil => exact .of_jobs_eq rfl
    | cons x todo =>
      simp only [step, Manager.sendCommand]
      split <;> exact .of_jobs_eq rfl
  | _ => cases h

theorem fresh_step {t : Task} (h : t.Fresh m.registry) :
    ∀ t' ∈ (t.step cfg now m).2, t'.Fresh (t.step cfg now m).1.registry := by
  intro t' ht'
  cases t with
  | retrySetIdle req job =>
    obtain rfl := Option.some.inj ht'
    exact ⟨h.nodup, h.counts⟩
  | monJobs offline =>
    obtain rfl := Option.some.inj ht'
    refine ⟨m.registry.nodup_getJobs _, fun job hjob => ?_⟩
    exact ⟨job, (Registry.mem_getJobs.1 hjob).1, rfl⟩
  | monAppend offline jobs job =>
    obtain rfl := Option.some.inj ht'
    exact ⟨h.nodup, h.counts⟩
  | monLoop offline jobs =>
    cases jobs with
    | nil => obtain rfl := Option.some.inj ht'; exact .of_reads rfl
    | cons job jobs =>
      obtain ⟨hne, hnd⟩ := List.nodup_cons.1 h.nodup
      have hrest : ∀ s ∈ jobs, m.registry.Counts s := fun s hs =>
        h.counts s (List.mem_cons_of_mem _ hs)
      simp only [step] at ht' ⊢
      split_ifs at ht' ⊢ <;> obtain rfl := Option.some.inj ht'
      · -- the monitor has read each job once, so the retry is of none of the rows left
        refine ⟨hnd, fun s hs => Registry.counts_updateJobRetries (hrest s hs) ?_⟩
        rw [JobRow.jobId_toDict]
        rintro hj
        exact hne (hj ▸ List.mem_map_of_mem hs)
      · exact ⟨hnd, fun s hs => Registry.sameRetries_updateJobStatus _ _ _ _ _ _ s (hrest s hs)⟩
      · exact ⟨hnd, hrest⟩
  | schedSelect job =>
    obtain rfl := Option.some.inj ht'
    split_ifs <;> exact .of_reads rfl
  | schedReserve job nodes todo =>
    cases todo <;> obtain rfl := Option.some.inj ht' <;> exact .of_reads rfl
  | schedSend job masterAddr todo =>
    cases todo with
    | nil => cases ht'
    | cons x todo => obtain rfl := Option.some.inj ht'; exact .of_reads rfl
  | retryWrite | failWrite => obtain rfl := Option.some.inj ht'; exact .of_reads rfl
  | _ => cases ht'

end Task

namespace Conf

variable {cfg : Setup} {c c' : Conf}

/-- A report, a submission or a monitor pass begins when no other one is under way.  The
scheduler, registrations and restarts are free. -/
def OneAtATime (c : Conf) : Label → Prop
  | .reportJobStatus _ _ | .submitJob _ _ _ | .monitorPass _ =>
    ∀ t ∈ c.tasks, t.isHandler = false
  | _ => True

instance (c : Conf) : (l : Label) → Decidable (c.OneAtATime l)
  | .reportJobStatus _ _ | .submitJob _ _ _ | .monitorPass _ =>
    inferInstanceAs (Decidable (∀ t ∈ c.tasks, t.isHandler = false))
  | .registerNode _ _ _ _ | .sendHeartbeat _ _ | .listenForCommands _ | .takeCommand _
  | .schedulerPass _ | .probe _ | .restart | .runTask _ _ => .isTrue trivial

/-- At most one handler is under way, and what the tasks have read is fresh. -/
structure Orderly (c : Conf) : Prop where
  single : c.tasks.countP Task.isHandler ≤ 1
  fresh : ∀ t ∈ c.tasks, t.Fresh c.mgr.registry

theorem orderly_start : (start .empty).Orderly := ⟨by simp [start], by simp [start]⟩

theorem Orderly.spawn (h : c.Orderly) {m : Manager} {next : Option Task}
    (hsame : c.mgr.registry.SameRetries m.registry) (hfresh : ∀ t ∈ next, t.Fresh m.registry)
    (hone : (∀ t ∈ next, t.isHandler = false) ∨ ∀ t ∈ c.tasks, t.isHandler = false) :
    (c.spawn (m, next)).Orderly where
  single := countP_spawn_le h.single hone
  fresh := fun t ht => by
    rcases List.mem_append.1 ht with ht | ht
    · exact (h.fresh t ht).mono hsame
    · exact hfresh t (by simpa using ht)

theorem Orderly.quiet (h : c.Orderly) {m : Manager} {next : Option Task}
    (hjobs : m.registry.jobs = c.mgr.registry.jobs) (hnext : ∀ t ∈ next, t.isHandler = false) :
    (c.spawn (m, next)).Orderly :=
  h.spawn (.of_jobs_eq hjobs) (fun t ht => .of_reads (Task.reads_of_not_handler (hnext t ht)))
    (.inl hnext)

/-- The next call of a task keeps order: the scheduler changes no counter, and while a handler
changes one, no other task has read it. -/
theorem Orderly.resume (h : c.Orderly) {i : ℕ} {t : Task} (now : Time)
    (hi : c.tasks[i]? = some t) : (c.resume i (t.step cfg now c.mgr)).Orderly := by
  refine ⟨countP_resume_le h.single hi fun t' ht' => Task.isHandler_step cfg now ht',
    fun t' ht' => ?_⟩
  rcases List.mem_append.1 ht' with ht' | ht'
  · -- for another task: the call changes no counter, or no other task has read one
    cases hk : t.isHandler with
    | false =>
      exact (h.fresh t' (List.mem_of_mem_eraseIdx ht')).mono (Task.sameRetries_step cfg now hk)
    | true =>
      exact .of_reads (Task.reads_of_not_handler (others_of_countP_le h.single hi hk t' ht'))
  · exact Task.fresh_step cfg now (h.fresh t (List.mem_of_getElem? hi)) t' (by simpa using ht')

/-- **Handlers that take turns see fresh counters.** -/
theorem orderly_step {l : Label} (h : c.Orderly) (hone : c.OneAtATime l)
    (hst : exec cfg c l = some c') : c'.Orderly := by
  cases call hst with
  | first hbegun =>
    cases hbegun with
    | registerNode => exact h.quiet (Registry.jobs_registerNode ..) (by rintro _ ⟨⟩; rfl)
    | sendHeartbeat | listenForCommands | takeCommand | reportIgnored | noJob | probe =>
      exact h.quiet rfl (by rintro _ ⟨⟩)
    | popJob => exact h.quiet rfl (by rintro _ ⟨⟩; rfl)
    | reportRetry _ hj =>
      refine h.spawn (.of_jobs_eq rfl) ?_ (.inr hone)
      rintro _ ⟨⟩
      refine ⟨List.nodup_singleton _, fun s hs => ?_⟩
      obtain rfl := List.mem_singleton.1 hs
      exact ⟨s, Registry.jobId_of_getJob hj ▸ hj, rfl⟩
    | reportFail | noneOffline | someOffline =>
      exact h.spawn (.of_jobs_eq rfl) (by rintro _ ⟨⟩; exact .of_reads rfl) (.inr hone)
    | reportCompleted =>
      exact h.spawn (Registry.sameRetries_updateJobStatus _ _ _ _ _ _)
        (by rintro _ ⟨⟩; exact .of_reads rfl) (.inr hone)
    | submitJob hreg =>
      exact h.spawn (Registry.sameRetries_insertJob hreg) (by rintro _ ⟨⟩; exact .of_reads rfl)
        (.inr hone)
  | restart => exact ⟨by simp, by simp⟩
  | next hi => exact h.resume _ hi

/-- In an orderly configuration a retry finds the counter that was read. -/
theorem Orderly.retriesUnchanged (h : c.Orderly) (l : Label) : c.RetriesUnchanged l := by
  cases l with
  | runTask i now =>
    intro t job row hi hjob hrow
    have hread : job ∈ t.reads := by
      cases t with
      | retryWrite => obtain rfl := Option.some.inj hjob; exact List.mem_singleton_self _
      | monLoop offline jobs =>
        cases jobs with
        | nil => cases hjob
        | cons job' jobs =>
          simp only [Task.retrying] at hjob
          split_ifs at hjob
          obtain rfl := Option.some.inj hjob
          exact List.mem_cons_self
      | _ => cases hjob
    obtain ⟨row', hrow', heq⟩ := (h.fresh t (List.mem_of_getElem? hi)).counts job hread
    obtain rfl : row = row' := Option.some.inj (hrow.symm.trans hrow')
    exact heq
  | _ => trivial

/-- **Bounded attempts.**  If reports, submissions and monitor passes take turns, the counter of a
job stays within its limit, and the dispatches of the job and its entries together are at most one
more than the counter, in every reachable configuration. -/
theorem attempts_bounded (h : ((fine cfg).restrict OneAtATime).Reachable (start .empty) c)
    {j : String} {row : JobRow} (hrow : c.mgr.registry.getJob j = some row) :
    row.retries ≤ max 0 row.maxRetries ∧
      ((dispatchesIn c.mgr.history j + c.entries j : ℕ) : ℤ) ≤ 1 + row.retries ∧
      (dispatchesIn c.mgr.history j : ℤ) ≤ 1 + max 0 row.maxRetries := by
  obtain ⟨⟨-, hinv⟩, -, hcount⟩ := h.keeps
    (I := fun c => (c.WellFormed ∧ c.ledger.Inv) ∧ c.Orderly ∧ c.CountsRetries)
    (fun c l c' hst hI =>
      ⟨preserves_inv hst.2 hI.1, orderly_step hI.2.1 hst.1 hst.2,
        (countsRetries_step hI.1.1 hI.1.2 hI.2.2 hst.2).2 (hI.2.1.retriesUnchanged l)⟩)
    ⟨⟨wellFormed_start .empty, inv_start⟩, orderly_start, countsRetries_start⟩
  -- the counter counts the retries, which pay for all but one of the dispatches and entries
  obtain ⟨heq, hle⟩ := hcount j row hrow
  have hitem : c.ledger.item j = some row.item := item_ledger.2 ⟨row, hrow, rfl⟩
  have hbudget : dispatchesIn c.mgr.history j + c.entries j ≤ 1 + retriesIn c.mgr.history j := by
    have hb := hinv.budget j
    rwa [hitem, Option.isSome_some, if_pos rfl] at hb
  refine ⟨heq ▸ hle, ?_, ?_⟩ <;> omega

/-- A job with one retry that is dispatched a second time after a failure and a restart. -/
theorem attempts_bounded_of_restart : ∃ (c : Conf) (row : JobRow),
    c.mgr.registry.getJob "job-1" = some row ∧ dispatchesIn c.mgr.history "job-1" = 2 ∧
      row.retries ≤ max 0 row.maxRetries ∧
      ((dispatchesIn c.mgr.history "job-1" + c.entries "job-1" : ℕ) : ℤ) ≤ 1 + row.retries ∧
      (dispatchesIn c.mgr.history "job-1" : ℤ) ≤ 1 + max 0 row.maxRetries := by
  obtain ⟨c, hc, hp⟩ := LTS.exists_of_exec_restrict (exec Sample.setup) OneAtATime
    (start .empty)
    (Sample.dispatchTwo ++
      [.reportJobStatus ⟨"node-1", "job-1", "failed"⟩ 110, .runTask 0 110, .runTask 0 110,
        .restart, .sendHeartbeat ⟨"node-2", ⟨0, 0, 0, 0⟩, "IDLE", 111⟩ 111, .schedulerPass 112] ++
      List.replicate 7 (.runTask 0 112))
    (fun c => (c.mgr.registry.getJob "job-1").isSome &&
      dispatchesIn c.mgr.history "job-1" = 2)
    (by decide +kernel)
  obtain ⟨hj, hd⟩ := (Bool.and_eq_true _ _).mp hp
  obtain ⟨row, hrow⟩ := Option.isSome_iff_exists.1 hj
  exact ⟨c, row, hrow, by simpa using hd, attempts_bounded hc hrow⟩

end Conf

end Dmlf
