import Dmlf.Manager.Calls
import Dmlf.Ledger.Basic
import Mathlib.Algebra.BigOperators.Group.List.Basic
import Mathlib.Algebra.Order.Group.Multiset

/-!
# The manager keeps a ledger of its jobs

The jobs table with the queue entries is a `Ledger`: a row is an item, and an entry is a ticket,
whether it is in the queue, popped and held by the scheduler, or about to be appended by the
call that has just written the row.  `Conf.simulates` shows that every call of the manager is an
action of the ledger, for every interleaving and with restarts between any two calls.

* `Manager.ledger_*` : what the single writes do to the ledger.
* `Conf.WellFormed` : tasks and queue entries refer to existing rows, and a task about to retry
  a job has seen that a retry is left.
* `Conf.inv_reachable` : the invariant of the ledger, in every reachable configuration.
-/

namespace Dmlf

/-- The phase of a job, with outcome `true` if it is completed and `false` if it failed. -/
def JobState.phase : JobState → Phase Bool
  | .pending => .waiting
  | .running => .active
  | .completed => .closed true
  | .failed => .closed false

/-- The ledger's view of a job row. -/
def JobRow.item (r : JobRow) : Item Bool := ⟨r.status.phase, r.retries, r.maxRetries⟩

namespace Manager

variable {m : Manager} {H : Multiset String}

/-- The ledger of a manager, with the entries `H` outside its queue. -/
def ledger (m : Manager) (H : Multiset String) : Ledger String Bool where
  item := fun j => (m.registry.getJob j).map JobRow.item
  tickets := ↑(m.queue.map JobDict.jobId) + H
  retried := retriesIn m.history
  used := dispatchesIn m.history

/-! ### The single writes -/

theorem ledger_eq_of_same {m' : Manager} (hr : m'.registry.jobs = m.registry.jobs)
    (hq : m'.queue = m.queue) (hh : m'.history = m.history) : m'.ledger H = m.ledger H := by
  simp only [ledger, Registry.getJob, hr, hq, hh]

theorem ledger_setRegistry {reg : Registry} (h : reg.jobs = m.registry.jobs) :
    (m.setRegistry reg).ledger H = m.ledger H :=
  ledger_eq_of_same h rfl rfl

@[simp] theorem ledger_incJobsQueued : m.incJobsQueued.ledger H = m.ledger H := rfl

@[simp] theorem ledger_incJobRetries : m.incJobRetries.ledger H = m.ledger H := rfl

theorem tickets_perm {m m' : Manager} {H K : Multiset String} (hr : m'.registry = m.registry)
    (hh : m'.history = m.history)
    (hq : (↑(m'.queue.map JobDict.jobId) : Multiset String) + K =
      ↑(m.queue.map JobDict.jobId) + H) : m'.ledger K = m.ledger H := by
  simp only [ledger, hr, hh, hq]

theorem ledger_enqueue (job : JobDict) :
    (m.enqueue job).ledger H = m.ledger (job.jobId ::ₘ H) := by
  refine tickets_perm rfl rfl ?_
  have h := ((perm_appendSorted m.queue job).map JobDict.jobId)
  rw [show (m.enqueue job).queue = appendSorted m.queue job from rfl, Multiset.coe_eq_coe.2 h,
    List.map_cons, ← Multiset.cons_coe, Multiset.cons_add, Multiset.add_cons]

theorem ledger_requeueJob (job : JobDict) :
    (m.requeueJob job).ledger H = m.ledger (job.jobId ::ₘ H) := by
  refine tickets_perm rfl rfl ?_
  rw [show (m.requeueJob job).queue = job :: m.queue from rfl, List.map_cons,
    ← Multiset.cons_coe, Multiset.cons_add, Multiset.add_cons]

theorem ledger_pop {job : JobDict} {queue : List JobDict} (h : m.queue = job :: queue) :
    ({ m with queue } : Manager).ledger (job.jobId ::ₘ H) = m.ledger H := by
  refine tickets_perm rfl rfl ?_
  rw [h, List.map_cons, ← Multiset.cons_coe, Multiset.cons_add, Multiset.add_cons]

/-- The row write of `retry_job` is a retry; the entry is still to be appended. -/
theorem ledger_writeRetry (job : JobDict) :
    (m.writeRetry job).ledger (job.jobId ::ₘ H) =
      (m.ledger H).apply (.retry job.jobId (job.retries.getD 0 + 1)) := by
  apply Ledger.ext
  · intro j
    simp only [ledger, writeRetry, Ledger.apply, Registry.updateJobRetries,
      Registry.getJob_updateJob]
    split_ifs
    · simp only [Option.map_map]
      rfl
    · rfl
  · simp only [ledger, writeRetry, Ledger.apply, Multiset.add_cons]
  · intro j
    simp [ledger, writeRetry, Ledger.apply, retriesIn_append, eq_comm]
  · intro j
    simp [ledger, writeRetry, Ledger.apply, dispatchesIn_append, Event.isDispatchOf]

theorem item_updateJobStatus (reg : Registry) (j : String) (s : JobState) (nodes code now)
    (L : Ledger String Bool) (hL : ∀ j, L.item j = (reg.getJob j).map JobRow.item) (j' : String) :
    ((reg.updateJobStatus j s nodes code now).getJob j').map JobRow.item =
      L.setPhase j s.phase j' := by
  rw [Registry.updateJobStatus, Registry.getJob_updateJob, Ledger.setPhase]
  simp only [hL]
  split_ifs
  · simp only [Option.map_map]
    rfl
  · rfl

theorem ledger_closeJob (j : String) (s : JobState) (code now) {o : Bool}
    (hs : s.phase = .closed o) :
    (m.closeJob j s code now).ledger H = (m.ledger H).apply (.close j o) := by
  apply Ledger.ext
  · intro j'
    simp only [Ledger.apply, ← hs]
    exact item_updateJobStatus m.registry j s none (some code) now (m.ledger H) (fun _ => rfl) j'
  · rfl
  · exact fun _ => rfl
  · exact fun _ => rfl

theorem ledger_startJob (job : JobDict) (nodes now) :
    (m.startJob job nodes now).ledger H =
      (m.ledger (job.jobId ::ₘ H)).apply (.use job.jobId) := by
  apply Ledger.ext
  · intro j'
    exact item_updateJobStatus m.registry job.jobId .running _ none now
      (m.ledger (job.jobId ::ₘ H)) (fun _ => rfl) j'
  · simp only [ledger, startJob, Ledger.apply, Multiset.add_cons, Multiset.erase_cons_head]
    rfl
  · intro j'
    simp [ledger, startJob, incJobsRunning, decJobsQueued, Ledger.apply, retriesIn_append]
  · intro j'
    simp [ledger, startJob, incJobsRunning, decJobsQueued, Ledger.apply, dispatchesIn_append,
      Event.isDispatchOf, eq_comm]

theorem ledger_insertJob {m' : Manager} {req : JobSubmitRequest} {j : String} {now : Time}
    (h : m.insertJob (req.toDict j) now = some m') :
    m'.ledger (j ::ₘ H) = (m.ledger H).apply (.submit j req.maxRetries) ∧
      (m.ledger H).Enabled (.submit j req.maxRetries) := by
  obtain ⟨reg, hreg, rfl⟩ := Option.map_eq_some_iff.1 h
  refine ⟨?_, by simp [Ledger.Enabled, ledger, show m.registry.getJob j = none from
    Registry.getJob_of_insertJob hreg]⟩
  apply Ledger.ext
  · intro j'
    have hid : (req.toDict j).jobId = j := rfl
    simp only [ledger, Ledger.apply, Registry.getJob_insertJob hreg, hid]
    split_ifs <;> rfl
  · simp only [ledger, Ledger.apply, Multiset.add_cons]
  · intro j'
    simp [ledger, Ledger.apply, retriesIn_append]
  · intro j'
    simp [ledger, Ledger.apply, dispatchesIn_append, Event.isDispatchOf]

/-- The ids of the pending rows. -/
def pendingIds (m : Manager) : Multiset String :=
  ↑((m.registry.getJobs .pending).map JobRow.jobId)

theorem waiting_iff {j : String} :
    (m.ledger H).Waiting j ↔ ∃ r, m.registry.getJob j = some r ∧ r.status = .pending := by
  constructor
  · rintro ⟨it, hit, hp⟩
    obtain ⟨r, hr, rfl⟩ := Option.map_eq_some_iff.1 hit
    refine ⟨r, hr, ?_⟩
    revert hp
    simp only [JobRow.item]
    cases r.status <;> simp [JobState.phase]
  · rintro ⟨r, hr, hp⟩
    exact ⟨r.item, by simp [ledger, hr], by simp [JobRow.item, hp, JobState.phase]⟩

theorem ledger_restart :
    m.restart.ledger 0 = (m.ledger H).apply (.restart m.pendingIds) ∧
      (m.ledger H).Enabled (.restart m.pendingIds) := by
  refine ⟨?_, Multiset.coe_nodup.2 (m.registry.nodup_getJobs _), fun j => ?_⟩
  · apply Ledger.ext
    · exact fun _ => rfl
    · have h := (perm_recoverPendingJobs m.registry).map JobDict.jobId
      rw [List.map_map] at h
      exact (Multiset.add_zero _).trans (Multiset.coe_eq_coe.2 h)
    · exact fun _ => rfl
    · exact fun _ => rfl
  · rw [waiting_iff, pendingIds, Multiset.mem_coe, List.mem_map]
    constructor
    · rintro ⟨r, hr, rfl⟩
      exact ⟨r, Registry.mem_getJobs.1 hr⟩
    · rintro ⟨r, hr, hp⟩
      have hj := Registry.jobId_of_getJob hr
      exact ⟨r, Registry.mem_getJobs.2 ⟨hj ▸ hr, hp⟩, hj⟩

end Manager

/-! ### Rows stay known -/

namespace Registry

variable {reg reg' : Registry}

/-- There is a row for job `j`. -/
def Knows (reg : Registry) (j : String) : Prop := ∃ r, reg.getJob j = some r

/-- The row `s`, as it was read, is still there with the same retry limit. -/
def Saw (reg : Registry) (s : JobRow) : Prop :=
  ∃ r, reg.getJob s.jobId = some r ∧ r.maxRetries = s.maxRetries

/-- Rows are kept, with their retry limits. -/
def Extends (reg reg' : Registry) : Prop :=
  ∀ j r, reg.getJob j = some r → ∃ r', reg'.getJob j = some r' ∧ r'.maxRetries = r.maxRetries

theorem Extends.of_jobs_eq (h : reg'.jobs = reg.jobs) : reg.Extends reg' := by
  intro j r hr
  exact ⟨r, by rw [getJob, h]; exact hr, rfl⟩

theorem JobsWrite.extends (h : reg.JobsWrite reg') : reg.Extends reg' := by
  intro j r hr
  have hmax : JobRow.Fixed JobRow.maxRetries := ⟨fun _ _ _ _ _ => rfl, fun _ _ _ => rfl⟩
  exact h.keeps hmax hr

theorem Knows.mono {j : String} (h : reg.Extends reg') (hk : reg.Knows j) : reg'.Knows j := by
  obtain ⟨r, hr⟩ := hk
  obtain ⟨r', hr', -⟩ := h j r hr
  exact ⟨r', hr'⟩

theorem Saw.mono {s : JobRow} (h : reg.Extends reg') (hs : reg.Saw s) : reg'.Saw s := by
  obtain ⟨r, hr, hmax⟩ := hs
  obtain ⟨r', hr', hmax'⟩ := h _ r hr
  exact ⟨r', hr', hmax'.trans hmax⟩

theorem Saw.knows {s : JobRow} (hs : reg.Saw s) : reg.Knows s.jobId :=
  let ⟨r, hr, _⟩ := hs; ⟨r, hr⟩

end Registry

/-! ### Calls are actions of the ledger -/

namespace Task

/-- The entry a task carries: popped and not yet dispatched, or written and not yet appended. -/
def tickets : Task → Multiset String
  | .submitAppend job | .retryAppend job | .schedSelect job | .schedRequeue job
  | .schedReserve job _ _ | .monAppend _ _ job => {job.jobId}
  | _ => 0

/-- The jobs a task refers to are known, and a retry it is about to write is within the limit. -/
def Known (reg : Registry) : Task → Prop
  | .submitAppend job | .retryAppend job | .schedSelect job | .schedRequeue job
  | .schedReserve job _ _ => reg.Knows job.jobId
  | .retrySetIdle _ job | .retryWrite job => reg.Saw job ∧ job.retries < job.maxRetries
  | .failWrite req => reg.Knows req.jobId
  | .monLoop _ jobs => ∀ job ∈ jobs, reg.Saw job
  | .monAppend _ jobs job => (∀ job ∈ jobs, reg.Saw job) ∧ reg.Knows job.jobId
  | _ => True

theorem Known.mono {reg reg' : Registry} (h : reg.Extends reg') {t : Task} (hk : t.Known reg) :
    t.Known reg' := by
  cases t <;> simp only [Known] at hk ⊢
  case retrySetIdle | retryWrite => exact ⟨hk.1.mono h, hk.2⟩
  case monLoop => exact fun job hjob => (hk job hjob).mono h
  case monAppend => exact ⟨fun job hjob => (hk.1 job hjob).mono h, hk.2.mono h⟩
  all_goals exact hk.mono h

/-- The action of a task's next call. -/
def act : Task → Ledger.Act String Bool
  | .retryWrite job => .retry job.jobId (job.retries + 1)
  | .failWrite req => .close req.jobId false
  | .schedReserve job _ [] => .use job.jobId
  | .monLoop offline (job :: _) =>
    if job.lostNode offline then
      if job.retries < job.maxRetries then .retry job.jobId (job.retries + 1)
      else .close job.jobId false
    else .idle
  | _ => .idle

variable {m : Manager} {H : Multiset String}

theorem enabled_retry {s : JobRow} (hs : m.registry.Saw s) (hlt : s.retries < s.maxRetries) :
    (m.ledger H).Enabled (.retry s.jobId (s.retries + 1)) := by
  obtain ⟨r, hr, hmax⟩ := hs
  exact ⟨r.item, by simp [Manager.ledger, hr], by simp only [JobRow.item]; omega⟩

theorem enabled_close {j : String} {o : Bool} (hk : m.registry.Knows j) :
    (m.ledger H).Enabled (.close j o) := by
  obtain ⟨r, hr⟩ := hk
  exact ⟨r.item, by simp [Manager.ledger, hr]⟩

/-- The entries a task carries after its next call. -/
def ticketsOf (t : Option Task) : Multiset String := (t.toList.map tickets).sum

/-- **The next call of a task is an action of the ledger.** -/
theorem ledger_step (cfg : Setup) (now : Time) {t : Task} (hk : t.Known m.registry) :
    (m.ledger (t.tickets + H)).Enabled t.act ∧
      (t.step cfg now m).1.ledger (ticketsOf (t.step cfg now m).2 + H) =
        (m.ledger (t.tickets + H)).apply t.act := by
  cases t with
  | registerQueue | retrySetIdle | monJobs | monCount => exact ⟨trivial, rfl⟩
  | submitAppend job | retryAppend job =>
    exact ⟨trivial, by
      simpa [tickets, ticketsOf, step, act, Ledger.apply] using
        Manager.ledger_enqueue (m := m) (H := H) job⟩
  | schedRequeue job =>
    exact ⟨trivial, by
      simpa [tickets, ticketsOf, step, act, Ledger.apply] using
        Manager.ledger_requeueJob (m := m) (H := H) job⟩
  | retryWrite job =>
    refine ⟨enabled_retry hk.1 hk.2, ?_⟩
    simpa [tickets, ticketsOf, step, act, JobDict.retried] using
      Manager.ledger_writeRetry (m := m) (H := H) job.toDict
  | failWrite req =>
    exact ⟨enabled_close hk, Manager.ledger_closeJob (m := m) _ _ _ _ rfl⟩
  | closedSetIdle req =>
    refine ⟨trivial, ?_⟩
    simp only [step]
    split_ifs <;> rfl
  | schedSelect job =>
    refine ⟨trivial, ?_⟩
    simp only [step]
    split_ifs <;> rfl
  | schedReserve job nodes todo =>
    cases todo with
    | nil =>
      -- the scheduler still holds the entry that the dispatch uses
      obtain ⟨r, hr⟩ := hk
      refine ⟨⟨⟨r.item, by simp [Manager.ledger, hr]⟩, by simp [Manager.ledger, tickets]⟩, ?_⟩
      simpa [tickets, ticketsOf, step, act] using
        Manager.ledger_startJob (m := m) (H := H) job nodes now
    | cons node todo => exact ⟨trivial, rfl⟩
  | schedSend job masterAddr todo =>
    cases todo with
    | nil => exact ⟨trivial, rfl⟩
    | cons x todo =>
      refine ⟨trivial, ?_⟩
      simp only [step, Manager.sendCommand]
      split <;> rfl
  | monLoop offline jobs =>
    cases jobs with
    | nil => exact ⟨trivial, rfl⟩
    | cons job jobs =>
      have hsaw := hk job List.mem_cons_self
      simp only [act, step]
      split_ifs with hlost hlt
      · refine ⟨enabled_retry hsaw hlt, ?_⟩
        simpa [tickets, ticketsOf, JobDict.retried] using
          Manager.ledger_writeRetry (m := m) (H := H) job.toDict
      · exact ⟨enabled_close hsaw.knows, Manager.ledger_closeJob (m := m) _ _ _ _ rfl⟩
      · exact ⟨trivial, rfl⟩
  | monAppend offline jobs job =>
    exact ⟨trivial, by
      simpa [tickets, ticketsOf, step, act, Ledger.apply] using
        Manager.ledger_enqueue (m := m) (H := H) job⟩

theorem known_step {cfg : Setup} {now : Time} {t t' : Task} (hk : t.Known m.registry)
    (ht : (t.step cfg now m).2 = some t') : t'.Known m.registry := by
  cases next_of_step ht with
  | failed | started | sent | marked => trivial
  | retryWrite | tooFew | selected | reserved => exact hk
  | retryAppend => exact hk.1.knows
  | monLoop => exact fun job hjob => ⟨job, (Registry.mem_getJobs.1 hjob).1, rfl⟩
  | lost offline job jobs =>
    exact ⟨fun j hj => hk j (List.mem_cons_of_mem _ hj), (hk job List.mem_cons_self).knows⟩
  | passed => exact fun j hj => hk j (List.mem_cons_of_mem _ hj)
  | appended => exact hk.1

theorem knows_of_mem_queueAfter {reg : Registry} {t : Task} (hk : t.Known reg)
    {queue : List JobDict} {e : JobDict} (he : e ∈ t.queueAfter queue) :
    e ∈ queue ∨ reg.Knows e.jobId := by
  have happ {job : JobDict} (hjob : reg.Knows job.jobId) (he : e ∈ appendSorted queue job) :
      e ∈ queue ∨ reg.Knows e.jobId := by
    rcases List.mem_cons.1 ((perm_appendSorted queue job).subset he) with rfl | h
    · exact .inr hjob
    · exact .inl h
  cases t with
  | submitAppend job | retryAppend job => exact happ hk he
  | monAppend offline jobs job => exact happ hk.2 he
  | schedRequeue job =>
    rcases List.mem_cons.1 he with rfl | h
    · exact .inr hk
    · exact .inl h
  | registerQueue | retrySetIdle | retryWrite | failWrite | closedSetIdle | schedSelect
    | schedReserve | schedSend | monJobs | monLoop | monCount => exact .inl he

end Task

namespace Conf

variable {cfg : Setup} {c c' : Conf}

/-- The entries that the tasks carry. -/
def hands (c : Conf) : Multiset String := (c.tasks.map Task.tickets).sum

/-- The ledger of a configuration. -/
def ledger (c : Conf) : Ledger String Bool := c.mgr.ledger c.hands

/-- The entries of job `j`: queued, held by the scheduler, or about to be appended. -/
def entries (c : Conf) (j : String) : ℕ := c.ledger.tickets.count j

theorem item_ledger {j : String} {it : Item Bool} :
    c.ledger.item j = some it ↔ ∃ row, c.mgr.registry.getJob j = some row ∧ row.item = it :=
  Option.map_eq_some_iff

/-- Tasks and queue entries refer to known jobs. -/
structure WellFormed (c : Conf) : Prop where
  tasks : ∀ t ∈ c.tasks, t.Known c.mgr.registry
  queue : ∀ e ∈ c.mgr.queue, c.mgr.registry.Knows e.jobId

/-- The action of the ledger that a call is. -/
def act (c : Conf) : Label → Ledger.Act String Bool
  | .reportJobStatus req _ =>
    if !req.isFailure && req.isCompletion && (c.mgr.registry.getJob req.jobId).isSome then
      .close req.jobId true
    else .idle
  | .submitJob jobId req _ => .submit jobId req.maxRetries
  | .restart => .restart c.mgr.pendingIds
  | .runTask i _ =>
    match c.tasks[i]? with
    | none => .idle
    | some t => t.act
  | _ => .idle

theorem wellFormed_start (reg : Registry) : (start reg).WellFormed where
  tasks := by simp [start]
  queue := by
    intro e he
    obtain ⟨r, hr, rfl⟩ := List.mem_map.1 ((perm_recoverPendingJobs reg).subset he)
    exact ⟨r, (Registry.mem_getJobs.1 hr).1⟩

theorem hands_spawn (c : Conf) (next : Manager × Option Task) :
    (c.spawn next).hands = Task.ticketsOf next.2 + c.hands := by
  rw [add_comm]
  simp only [hands, spawn, Task.ticketsOf, List.map_append, List.sum_append]

theorem sum_resume {α : Type*} [AddCommMonoid α] (f : Task → α) (c : Conf) {i : ℕ} {t : Task}
    (hi : c.tasks[i]? = some t) (next : Manager × Option Task) : ∃ rest,
      (c.tasks.map f).sum = f t + rest ∧
        ((c.resume i next).tasks.map f).sum = (next.2.toList.map f).sum + rest := by
  obtain ⟨hlt, rfl⟩ := List.getElem?_eq_some_iff.1 hi
  refine ⟨((c.tasks.eraseIdx i).map f).sum, ?_, ?_⟩
  · have h := (List.getElem_cons_eraseIdx_perm hlt).map f
    rw [← h.sum_eq, List.map_cons, List.sum_cons]
  · rw [add_comm]
    simp only [resume, List.map_append, List.sum_append]

theorem countP_eraseIdx (p : Task → Bool) (c : Conf) {i : ℕ} {t : Task}
    (hi : c.tasks[i]? = some t) :
    c.tasks.countP p = (c.tasks.eraseIdx i).countP p + if p t then 1 else 0 := by
  obtain ⟨hlt, rfl⟩ := List.getElem?_eq_some_iff.1 hi
  have hcount := (List.getElem_cons_eraseIdx_perm hlt).countP_eq p
  rw [List.countP_cons] at hcount
  exact hcount.symm

theorem countP_spawn_le {p : Task → Bool} (h : c.tasks.countP p ≤ 1)
    {next : Manager × Option Task}
    (hone : (∀ t ∈ next.2, p t = false) ∨ ∀ t ∈ c.tasks, p t = false) :
    (c.spawn next).tasks.countP p ≤ 1 := by
  have hnext : next.2.toList.countP p ≤ 1 :=
    List.countP_le_length.trans (by cases next.2 <;> simp)
  simp only [spawn, List.countP_append]
  rcases hone with hone | hone
  · have hz : next.2.toList.countP p = 0 :=
      List.countP_eq_zero.2 fun t ht => by simp [hone t (by simpa using ht)]
    omega
  · have hz : c.tasks.countP p = 0 := List.countP_eq_zero.2 fun t ht => by simp [hone t ht]
    omega

theorem countP_resume_le {p : Task → Bool} (h : c.tasks.countP p ≤ 1) {i : ℕ} {t : Task}
    (hi : c.tasks[i]? = some t) {next : Manager × Option Task}
    (hnext : ∀ t' ∈ next.2, p t' = p t) : (c.resume i next).tasks.countP p ≤ 1 := by
  rw [countP_eraseIdx p c hi] at h
  simp only [resume, List.countP_append]
  cases hn : next.2 with
  | none => simp only [Option.toList_none, List.countP_nil]; omega
  | some t' => rwa [Option.toList_some, List.countP_singleton, hnext t' hn]

theorem others_of_countP_le {p : Task → Bool} (h : c.tasks.countP p ≤ 1) {i : ℕ} {t : Task}
    (hi : c.tasks[i]? = some t) (ht : p t = true) : ∀ t' ∈ c.tasks.eraseIdx i, p t' = false := by
  rw [countP_eraseIdx p c hi, if_pos ht] at h
  have hz : (c.tasks.eraseIdx i).countP p = 0 := by omega
  simpa using List.countP_eq_zero.1 hz

theorem hands_resume (c : Conf) {i : ℕ} {t : Task} (hi : c.tasks[i]? = some t)
    (next : Manager × Option Task) : ∃ H, c.hands = t.tickets + H ∧
      (c.resume i next).hands = Task.ticketsOf next.2 + H :=
  sum_resume Task.tickets c hi next

theorem ledger_spawn (c : Conf) (next : Manager × Option Task) :
    (c.spawn next).ledger = next.1.ledger (Task.ticketsOf next.2 + c.hands) := by
  rw [ledger, hands_spawn]
  rfl

theorem Begun.known {l : Label} {m : Manager} {t : Option Task} (hb : Begun cfg c l m t)
    (h : c.WellFormed) : ∀ t' ∈ t, t'.Known m.registry := by
  rintro t' ⟨⟩
  cases hb with
  | registerNode | reportCompleted | someOffline => trivial
  | reportRetry _ hj hlt => exact ⟨⟨_, Registry.jobId_of_getJob hj ▸ hj, rfl⟩, hlt⟩
  | reportFail _ hj => exact ⟨_, hj⟩
  | submitJob hreg => exact ⟨_, (Registry.getJob_insertJob hreg _).trans (if_pos rfl)⟩
  | popJob _ hq => exact h.queue _ (hq ▸ List.mem_cons_self)
  | noneOffline => exact fun job hjob => absurd hjob List.not_mem_nil

theorem WellFormed.step {l : Label} (h : c.WellFormed) (hst : exec cfg c l = some c') :
    c'.WellFormed := by
  have hext : c.mgr.registry.Extends c'.mgr.registry := (jobsWrite hst).extends
  refine ⟨fun t ht => ?_, fun e he => ?_⟩
  · have hafter := taskAfter hst ht
    generalize c'.mgr = m at hafter hext
    cases hafter with
    -- the other tasks refer to known jobs as before, since rows are never deleted
    | kept ht => exact (h.tasks t ht).mono hext
    | begun hb => exact hb.known h t rfl
    | next hi _ hnext =>
      exact (Task.known_step (h.tasks _ (List.mem_of_getElem? hi)) hnext).mono hext
  · cases call hst with
    | first hb =>
      refine (h.queue e ?_).mono hext
      cases hb with
      | popJob _ hq => exact hq ▸ List.mem_cons_of_mem _ he
      | registerNode | sendHeartbeat | listenForCommands | takeCommand | reportIgnored | reportRetry
        | reportFail | reportCompleted | submitJob | noJob | noneOffline | someOffline | probe =>
        exact he
    | restart => exact (wellFormed_start c.mgr.registry).queue e he
    | @next i now t hi =>
      have hk : t.Known c.mgr.registry := h.tasks t (List.mem_of_getElem? hi)
      have hknown : e ∈ c.mgr.queue ∨ c.mgr.registry.Knows e.jobId :=
        Task.knows_of_mem_queueAfter hk (Task.queue_step cfg now c.mgr t ▸ he)
      exact (hknown.elim (h.queue e) id).mono hext

/-- `c'` is well-formed, and the call that leads to it is the action `a` of the ledger. -/
def Simulates (c : Conf) (a : Ledger.Act String Bool) (c' : Conf) : Prop :=
  c'.WellFormed ∧ c.ledger.Enabled a ∧ c'.ledger = c.ledger.apply a

/-- A call that leaves the jobs, the queue and the history alone, and starts no task that carries
an entry, does not show in the ledger. -/
theorem ledger_spawn_quiet (c : Conf) {m : Manager} {next : Option Task}
    (hr : m.registry.jobs = c.mgr.registry.jobs) (hq : m.queue = c.mgr.queue)
    (hh : m.history = c.mgr.history) (ht : Task.ticketsOf next = 0) :
    (c.spawn (m, next)).ledger = c.ledger := by
  rw [ledger_spawn, ht, zero_add]
  exact Manager.ledger_eq_of_same hr hq hh

theorem ledger_completion (c : Conf) {req : JobStatusRequest} (now : Time)
    (hf : req.isFailure = false) (hc : req.isCompletion = true) :
    c.ledger.Enabled (c.act (.reportJobStatus req now)) ∧
      (c.spawn (c.mgr.closeJob req.jobId .completed 0 now,
        some (.closedSetIdle req))).ledger = c.ledger.apply (c.act (.reportJobStatus req now)) := by
  have hclose : (c.spawn (c.mgr.closeJob req.jobId .completed 0 now,
      some (.closedSetIdle req))).ledger = c.ledger.apply (.close req.jobId true) := by
    rw [ledger_spawn, show Task.ticketsOf (some (.closedSetIdle req)) = 0 from rfl, zero_add]
    exact Manager.ledger_closeJob (m := c.mgr) (H := c.hands) req.jobId .completed 0 now rfl
  cases hj : c.mgr.registry.getJob req.jobId with
  | some job =>
    have hact : c.act (.reportJobStatus req now) = .close req.jobId true := by
      simp [act, hf, hc, hj]
    rw [hact]
    exact ⟨⟨job.item, by simp [ledger, Manager.ledger, hj]⟩, hclose⟩
  | none =>
    have hact : c.act (.reportJobStatus req now) = .idle := by simp [act, hj]
    rw [hact]
    exact ⟨trivial,
      hclose.trans (Ledger.apply_close_of_none (by simp [ledger, Manager.ledger, hj]))⟩

theorem Begun.ledger_step {l : Label} {m : Manager} {t : Option Task} (hb : Begun cfg c l m t) :
    c.ledger.Enabled (c.act l) ∧ (c.spawn (m, t)).ledger = c.ledger.apply (c.act l) := by
  cases hb with
  | registerNode =>
    exact ⟨trivial, ledger_spawn_quiet c (Registry.jobs_registerNode ..) rfl rfl rfl⟩
  | sendHeartbeat | listenForCommands | takeCommand | noJob | noneOffline | someOffline | probe =>
    exact ⟨trivial, ledger_spawn_quiet c rfl rfl rfl rfl⟩
  | @reportIgnored req now hc =>
    have hact : c.act (.reportJobStatus req now) = .idle := by simp [act, hc]
    exact hact ▸ ⟨trivial, ledger_spawn_quiet c rfl rfl rfl rfl⟩
  | @reportRetry req now job hf | @reportFail req now job hf =>
    have hact : c.act (.reportJobStatus req now) = .idle := by simp [act, hf]
    exact hact ▸ ⟨trivial, ledger_spawn_quiet c rfl rfl rfl rfl⟩
  | @reportCompleted req now hf hc => exact ledger_completion c now hf hc
  | @submitJob jobId req now reg hreg =>
    have hins : c.mgr.insertJob (req.toDict jobId) now =
        some { c.mgr with registry := reg, history := c.mgr.history ++ [.submitted jobId] } := by
      rw [Manager.insertJob, hreg]
      rfl
    obtain ⟨happ, hen⟩ := Manager.ledger_insertJob (H := c.hands) hins
    exact ⟨hen, by rw [ledger_spawn]; exact happ⟩
  | popJob _ hq =>
    -- an entry moves from the queue to the hands of the scheduler
    refine ⟨trivial, ?_⟩
    rw [ledger_spawn]
    simpa [Task.ticketsOf, Task.tickets, Ledger.apply, act, ledger] using
      Manager.ledger_pop (H := c.hands) hq

/-- **Every call is an action of the ledger.** -/
theorem simulates {l : Label} (h : c.WellFormed) (hst : exec cfg c l = some c') :
    Simulates c (c.act l) c' := by
  refine ⟨h.step hst, ?_⟩
  cases call hst with
  | first hb => exact hb.ledger_step
  | restart => exact (Manager.ledger_restart (m := c.mgr) (H := c.hands)).symm
  | @next i now t hi =>
    have hact : c.act (.runTask i now) = t.act := by simp [act, hi]
    obtain ⟨H, hH, hH'⟩ := hands_resume c hi (t.step cfg now c.mgr)
    rw [hact, ledger, ledger, hH, hH']
    exact Task.ledger_step cfg now (h.tasks t (List.mem_of_getElem? hi))

theorem ledger_start : (start .empty).ledger = .empty := by
  apply Ledger.ext <;> first | exact fun _ => rfl | rfl

theorem inv_start : (start .empty).ledger.Inv := ledger_start.symm ▸ Ledger.inv_empty

theorem preserves_inv : (fine cfg).Preserves fun c => c.WellFormed ∧ c.ledger.Inv := by
  rintro c l c' hst ⟨hw, hinv⟩
  obtain ⟨hw', hen, happ⟩ := simulates hw hst
  exact ⟨hw', happ ▸ Ledger.inv_step hinv hen⟩

/-- **The invariant of the ledger holds in every reachable configuration.** -/
theorem inv_reachable (h : (fine cfg).Reachable (start .empty) c) :
    c.WellFormed ∧ c.ledger.Inv :=
  h.keeps preserves_inv ⟨wellFormed_start .empty, inv_start⟩

end Conf

end Dmlf
