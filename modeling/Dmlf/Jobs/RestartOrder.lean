import Dmlf.Manager.Calls
import Dmlf.Manager.Lifecycle

/-!
# The order of the queue after a restart

The dict that `SubmitJob` builds has no `created_at`, so it is sorted as if it were older than any
row.  An entry that `retry_job` or a restart has taken from its row has one.  The queue is in the
order in which a restart would rebuild it as long as this makes no difference.

* `Conf.inOrder_iff` : the queue is in order of age in all states of a run exactly if no call
  inserts an entry at a wrong place.
* `Conf.restart_invisible` : then a restart rebuilds the queue as it was.
-/

namespace Dmlf

/-! ### Ages -/

namespace Registry

/-- The time at which a job was inserted. -/
def createdAt (reg : Registry) (j : String) : Time :=
  ((reg.getJob j).map JobRow.createdAt).getD 0

/-- Job `i` was inserted before job `j`. -/
def Older (reg : Registry) (i j : String) : Prop := reg.createdAt i < reg.createdAt j

instance (reg : Registry) : DecidableRel reg.Older := fun i j =>
  inferInstanceAs (Decidable (reg.createdAt i < reg.createdAt j))

/-- The queue is in the order of age. -/
def InOrder (reg : Registry) (queue : List JobDict) : Prop :=
  queue.Pairwise fun a b => reg.Older a.jobId b.jobId

/-- The entries without `created_at` are older than those with one, and in order. -/
def SortsByAge (reg : Registry) (queue : List JobDict) : Prop :=
  (∀ a ∈ queue, ∀ b ∈ queue, a.createdAt = none → b.createdAt ≠ none →
    reg.Older a.jobId b.jobId) ∧
  reg.InOrder (queue.filter fun e => e.createdAt.isNone)

instance (reg : Registry) : DecidablePred reg.InOrder := fun queue =>
  decidable_of_iff ((queue.map JobDict.jobId).Pairwise reg.Older) List.pairwise_map

instance (reg : Registry) : DecidablePred reg.SortsByAge := fun queue =>
  inferInstanceAs (Decidable ((∀ a ∈ queue, ∀ b ∈ queue, a.createdAt = none →
    b.createdAt ≠ none → reg.Older a.jobId b.jobId) ∧
      reg.InOrder (queue.filter fun e => e.createdAt.isNone)))

/-- What the dict of a job has in common with its row. -/
structure Dates (reg : Registry) (job : JobDict) : Prop where
  priority : job.priority.getD 0 = 0
  positive : 0 < reg.createdAt job.jobId
  createdAt : ∀ t ∈ job.createdAt, t = reg.createdAt job.jobId

variable {reg : Registry} {queue : List JobDict} {a b : JobDict}

theorem Dates.notAfter_iff (ha : reg.Dates a) (hb : reg.Dates b) :
    a.NotAfter b ↔ a.createdAt.getD 0 ≤ b.createdAt.getD 0 := by
  simp [JobDict.NotAfter, JobDict.sortKey, ha.priority, hb.priority]

theorem Dates.getD_createdAt (h : reg.Dates a) (hsome : a.createdAt ≠ none) :
    a.createdAt.getD 0 = reg.createdAt a.jobId := by
  obtain ⟨t, ht⟩ := Option.ne_none_iff_exists'.1 hsome
  rw [ht, ← h.createdAt t ht]
  rfl

theorem Dates.getD_pos (h : reg.Dates a) (hsome : a.createdAt ≠ none) :
    0 < a.createdAt.getD 0 := h.getD_createdAt hsome ▸ h.positive

theorem SortsByAge.inOrder (h : reg.SortsByAge queue) (hdates : ∀ e ∈ queue, reg.Dates e)
    (hne : queue.Pairwise fun a b => reg.createdAt a.jobId ≠ reg.createdAt b.jobId) :
    reg.InOrder (sortQueue queue) := by
  refine pairwise_insertionSort_of (fun a ha b hb hab hba => ?_) ?_
  · -- the key of `a` is greater
    rw [(hdates a ha).notAfter_iff (hdates b hb)] at hab
    rw [(hdates b hb).notAfter_iff (hdates a ha), not_le] at hba
    by_cases hbn : b.createdAt = none
    · by_cases han : a.createdAt = none
      · simp [han, hbn] at hba
      · have hpos := (hdates a ha).getD_pos han
        simp only [hbn, Option.getD_none] at hba
        exact absurd hpos hba.not_gt
    · by_cases han : a.createdAt = none
      · exact h.1 a ha b hb han hbn
      · rwa [(hdates a ha).getD_createdAt han, (hdates b hb).getD_createdAt hbn] at hba
  · -- their keys are the same
    have hnone := List.pairwise_filter.1 h.2
    refine (hnone.and hne).imp_of_mem fun {a b} ha hb hpair hab hba => ?_
    rw [(hdates a ha).notAfter_iff (hdates b hb)] at hab
    rw [(hdates b hb).notAfter_iff (hdates a ha)] at hba
    have heq := le_antisymm hab hba
    by_cases hbn : b.createdAt = none
    · by_cases han : a.createdAt = none
      · exact hpair.1 (by simp [han]) (by simp [hbn])
      · have hpos := (hdates a ha).getD_pos han
        simp [heq, hbn] at hpos
    · by_cases han : a.createdAt = none
      · have hpos := (hdates b hb).getD_pos hbn
        simp [← heq, han] at hpos
      · rw [(hdates a ha).getD_createdAt han, (hdates b hb).getD_createdAt hbn] at heq
        exact absurd heq hpair.2

theorem InOrder.sortsByAge (h : reg.InOrder (sortQueue queue))
    (hdates : ∀ e ∈ queue, reg.Dates e) : reg.SortsByAge queue := by
  constructor
  · intro a ha b hb han hbn
    have hsorted := (List.pairwise_insertionSort JobDict.NotAfter queue).and h
    have hne : a ≠ b := by rintro rfl; exact hbn han
    -- one of the two comes first in the sorted queue
    have hsymm : Std.Symm fun x y : JobDict => x.NotAfter y ∧ reg.Older x.jobId y.jobId ∨
        y.NotAfter x ∧ reg.Older y.jobId x.jobId := ⟨fun _ _ => Or.symm⟩
    have hcases := (hsorted.imp Or.inl).forall (R := fun x y : JobDict =>
        x.NotAfter y ∧ reg.Older x.jobId y.jobId ∨ y.NotAfter x ∧ reg.Older y.jobId x.jobId)
      ((List.mem_insertionSort _).2 ha) ((List.mem_insertionSort _).2 hb) hne
    rcases hcases with hab | hba
    · exact hab.2
    · -- an entry with `created_at` is not sorted before one without
      have hle := ((hdates b hb).notAfter_iff (hdates a ha)).1 hba.1
      have hpos := (hdates b hb).getD_pos hbn
      rw [han] at hle
      exact absurd hpos hle.not_gt
  · have hties : (queue.filter fun e => e.createdAt.isNone).Pairwise JobDict.NotAfter := by
      refine List.pairwise_of_forall_mem_list fun a ha b hb => ?_
      obtain ⟨ha, han⟩ := List.mem_filter.1 ha
      obtain ⟨hb, hbn⟩ := List.mem_filter.1 hb
      rw [(hdates a ha).notAfter_iff (hdates b hb), Option.isNone_iff_eq_none.1 han,
        Option.isNone_iff_eq_none.1 hbn]
    exact h.sublist (List.sublist_insertionSort hties List.filter_sublist)

/-- **Sorting a queue** puts it in the order of age exactly if the missing keys do no harm. -/
theorem inOrder_sortQueue (hdates : ∀ e ∈ queue, reg.Dates e)
    (hne : queue.Pairwise fun a b => reg.createdAt a.jobId ≠ reg.createdAt b.jobId) :
    reg.InOrder (sortQueue queue) ↔ reg.SortsByAge queue :=
  ⟨fun h => h.sortsByAge hdates, fun h => h.inOrder hdates hne⟩

/-! ### Rows -/

/-- The rows are in the order of age, and have no priority. -/
structure Dated (reg : Registry) : Prop where
  increasing : (reg.jobs.rows.map JobRow.createdAt).Pairwise (· < ·)
  rows : ∀ row ∈ reg.jobs.rows, row.priority = 0 ∧ 0 < row.createdAt

theorem dated_empty : empty.Dated := ⟨.nil, fun _ h => absurd h List.not_mem_nil⟩

theorem createdAt_of_getJob {j : String} {row : JobRow} (h : reg.getJob j = some row) :
    reg.createdAt j = row.createdAt := by
  rw [createdAt, h]
  rfl

theorem Dated.createdAt_ne (h : reg.Dated) {i j : String} (hi : reg.Knows i) (hj : reg.Knows j)
    (hne : i ≠ j) : reg.createdAt i ≠ reg.createdAt j := by
  obtain ⟨row, hrow⟩ := hi
  obtain ⟨row', hrow'⟩ := hj
  rw [createdAt_of_getJob hrow, createdAt_of_getJob hrow']
  intro heq
  have hnd : (reg.jobs.rows.map JobRow.createdAt).Nodup := h.increasing.imp ne_of_lt
  have hsame := List.inj_on_of_nodup_map hnd (Table.mem_of_find? hrow)
    (Table.mem_of_find? hrow') heq
  exact hne ((jobId_of_getJob hrow).symm.trans (hsame ▸ jobId_of_getJob hrow'))

theorem Dated.dates_toDict (h : reg.Dated) {row : JobRow}
    (hrow : reg.getJob row.jobId = some row) : reg.Dates row.toDict := by
  obtain ⟨hp, ht⟩ := h.rows row (Table.mem_of_find? hrow)
  have hc := createdAt_of_getJob hrow
  refine ⟨hp, ?_, ?_⟩
  · rw [JobRow.jobId_toDict, hc]; exact ht
  · rintro _ ⟨⟩
    exact hc.symm

theorem Dates.knows {job : JobDict} (h : reg.Dates job) : reg.Knows job.jobId := by
  have hpos := h.positive
  rw [Registry.createdAt] at hpos
  cases hj : reg.getJob job.jobId with
  | none => rw [hj] at hpos; exact absurd hpos (lt_irrefl _)
  | some row => exact ⟨row, hj⟩

theorem pairwise_createdAt_ne (h : reg.Dated) (hdates : ∀ e ∈ queue, reg.Dates e)
    (hnd : (queue.map JobDict.jobId).Nodup) :
    queue.Pairwise fun a b => reg.createdAt a.jobId ≠ reg.createdAt b.jobId :=
  (List.pairwise_map.1 hnd).imp_of_mem fun ha hb hne =>
    h.createdAt_ne (hdates _ ha).knows (hdates _ hb).knows hne

theorem Dated.dates_of_getJobs (h : reg.Dated) {s : JobState} :
    ∀ e ∈ (reg.getJobs s).map JobRow.toDict, reg.Dates e := by
  intro e he
  obtain ⟨row, hrow, rfl⟩ := List.mem_map.1 he
  exact h.dates_toDict (mem_getJobs.1 hrow).1

/-- **A restart rebuilds the queue in the order of age.** -/
theorem Dated.inOrder_recover (h : reg.Dated) : reg.InOrder (recoverPendingJobs reg) := by
  refine SortsByAge.inOrder ⟨?_, ?_⟩ h.dates_of_getJobs ?_
  · rintro a ha - - han -
    obtain ⟨row, -, rfl⟩ := List.mem_map.1 ha
    cases han
  · rw [List.filter_eq_nil_iff.2]
    · exact .nil
    · intro a ha
      obtain ⟨row, -, rfl⟩ := List.mem_map.1 ha
      exact Bool.false_ne_true
  · refine pairwise_createdAt_ne h h.dates_of_getJobs ?_
    rw [List.map_map]
    exact reg.nodup_getJobs _

/-! ### Writes -/

variable {reg' : Registry}

theorem fixed_createdAt : JobRow.Fixed JobRow.createdAt where
  status := fun _ _ _ _ _ => rfl
  retries := fun _ _ _ => rfl

theorem fixed_dates : JobRow.Fixed fun row => (row.priority, row.createdAt) where
  status := fun _ _ _ _ _ => rfl
  retries := fun _ _ _ => rfl

theorem JobsWrite.createdAt_eq (h : reg.JobsWrite reg') {j : String} (hj : reg.Knows j) :
    reg'.createdAt j = reg.createdAt j := by
  obtain ⟨row, hrow⟩ := hj
  obtain ⟨row', hrow', heq⟩ := h.keeps fixed_createdAt hrow
  rw [createdAt_of_getJob hrow, createdAt_of_getJob hrow', heq]

theorem Dates.mono {job : JobDict} (hd : reg.Dates job) (h : reg.JobsWrite reg') :
    reg'.Dates job := by
  have heq := h.createdAt_eq hd.knows
  exact ⟨hd.priority, heq ▸ hd.positive, heq ▸ hd.createdAt⟩

theorem JobsWrite.inOrder_iff (h : reg.JobsWrite reg') (hdates : ∀ e ∈ queue, reg.Dates e) :
    reg'.InOrder queue ↔ reg.InOrder queue := by
  have holder : ∀ a ∈ queue, ∀ b ∈ queue,
      (reg'.Older a.jobId b.jobId ↔ reg.Older a.jobId b.jobId) := by
    intro a ha b hb
    rw [Older, Older, h.createdAt_eq (hdates a ha).knows, h.createdAt_eq (hdates b hb).knows]
  exact ⟨fun hq => hq.imp_of_mem fun ha hb hab => (holder _ ha _ hb).1 hab,
    fun hq => hq.imp_of_mem fun ha hb hab => (holder _ ha _ hb).2 hab⟩

theorem Dated.update (h : reg.Dated) (hup : reg.JobsUpdate reg') : reg'.Dated where
  increasing := by
    rw [hup.map_rows fixed_createdAt]
    exact h.increasing
  rows := fun row hrow => by
    have hmem : (row.priority, row.createdAt) ∈
        reg'.jobs.rows.map fun row => (row.priority, row.createdAt) :=
      List.mem_map.2 ⟨row, hrow, rfl⟩
    rw [hup.map_rows fixed_dates] at hmem
    obtain ⟨row₀, hrow₀, heq⟩ := List.mem_map.1 hmem
    obtain ⟨hp, hc⟩ := Prod.mk.inj heq
    exact hp ▸ hc ▸ h.rows row₀ hrow₀

theorem Dated.insert (h : reg.Dated) {req : JobSubmitRequest} {j : String} {now : Time}
    (hins : reg.insertJob (req.toDict j) now = some reg') (hpos : 0 < now)
    (hlater : ∀ row ∈ reg.jobs.rows, row.createdAt < now) : reg'.Dated := by
  obtain ⟨jobs, hjobs, rfl⟩ := Option.map_eq_some_iff.1 hins
  have hrows := (Table.rows_insert? hjobs).1
  constructor
  · rw [hrows, List.map_append]
    refine List.pairwise_append.2 ⟨h.increasing, List.pairwise_singleton _ _, ?_⟩
    intro t ht t' ht'
    obtain ⟨row, hrow, rfl⟩ := List.mem_map.1 ht
    obtain rfl := List.mem_singleton.1 ht'
    exact hlater row hrow
  · intro row hrow
    rw [hrows] at hrow
    rcases List.mem_append.1 hrow with hrow | hrow
    · exact h.rows row hrow
    · obtain rfl := List.mem_singleton.1 hrow
      exact ⟨rfl, hpos⟩

end Registry

/-- A job that is closed is not pending. -/
def ClosesActive (reg : Registry) : Ledger.Act String Bool → Prop
  | .close j _ => ∀ row ∈ reg.getJob j, row.status ≠ .pending
  | _ => True

instance (reg : Registry) : DecidablePred (ClosesActive reg)
  | .close j _ => inferInstanceAs (Decidable (∀ row ∈ reg.getJob j, row.status ≠ .pending))
  | .submit .. | .retry .. | .use .. | .restart .. | .idle => .isTrue trivial

/-- The append of an entry sorts the queue by age, and an entry that is put back is older than all
others. -/
def Task.KeepsOrder (m : Manager) : Task → Prop
  | .submitAppend job | .retryAppend job | .monAppend _ _ job =>
    m.registry.SortsByAge (m.queue ++ [job])
  | .schedRequeue job => ∀ e ∈ m.queue, m.registry.Older job.jobId e.jobId
  | _ => True

instance (m : Manager) : DecidablePred (Task.KeepsOrder m)
  | .submitAppend job | .retryAppend job | .monAppend _ _ job =>
    inferInstanceAs (Decidable (m.registry.SortsByAge (m.queue ++ [job])))
  | .schedRequeue job =>
    inferInstanceAs (Decidable (∀ e ∈ m.queue, m.registry.Older job.jobId e.jobId))
  | .registerQueue .. | .retrySetIdle .. | .retryWrite .. | .failWrite .. | .closedSetIdle ..
  | .schedSelect .. | .schedReserve .. | .schedSend .. | .monJobs .. | .monLoop .. | .monCount =>
    .isTrue trivial

namespace Conf

variable {cfg : Setup} {c c' : Conf} {l : Label}

/-- The clock, in seconds since the epoch, is later than at every earlier submission. -/
def ClockAdvances (c : Conf) : Label → Prop
  | .submitJob _ _ now => 0 < now ∧ ∀ row ∈ c.mgr.registry.jobs.rows, row.createdAt < now
  | _ => True

/-- The clock is strictly increasing, no job gets a second entry, and no pending job is closed. -/
def InScope (cfg : Setup) (c : Conf) (l : Label) : Prop :=
  c.ClockAdvances l ∧ (∀ c' ∈ exec cfg c l, c'.ledger.tickets.Nodup) ∧
    ClosesActive c.mgr.registry (c.act l)

/-- A call inserts its entry where it belongs. -/
def KeepsOrder (c : Conf) : Label → Prop
  | .runTask i _ => ∀ t ∈ c.tasks[i]?, t.KeepsOrder c.mgr
  | _ => True

/-- When no operation is in progress, a restart would rebuild the queue in its order. -/
def RestartInvisible (c : Conf) : Prop :=
  c.tasks = [] →
    c.mgr.queue.map JobDict.jobId = (recoverPendingJobs c.mgr.registry).map JobDict.jobId

instance (c : Conf) : DecidablePred c.ClockAdvances
  | .submitJob _ _ now =>
    inferInstanceAs (Decidable (0 < now ∧ ∀ row ∈ c.mgr.registry.jobs.rows, row.createdAt < now))
  | .registerNode .. | .sendHeartbeat .. | .listenForCommands .. | .takeCommand ..
  | .reportJobStatus .. | .schedulerPass .. | .monitorPass .. | .probe .. | .restart
  | .runTask .. => .isTrue trivial

instance (c : Conf) (l : Label) : Decidable (InScope cfg c l) :=
  inferInstanceAs (Decidable (c.ClockAdvances l ∧
    (∀ c' ∈ exec cfg c l, c'.ledger.tickets.Nodup) ∧ ClosesActive c.mgr.registry (c.act l)))

instance (c : Conf) : DecidablePred c.KeepsOrder
  | .runTask i _ => inferInstanceAs (Decidable (∀ t ∈ c.tasks[i]?, t.KeepsOrder c.mgr))
  | .registerNode .. | .sendHeartbeat .. | .listenForCommands .. | .takeCommand ..
  | .reportJobStatus .. | .submitJob .. | .schedulerPass .. | .monitorPass .. | .probe ..
  | .restart => .isTrue trivial

instance : DecidablePred RestartInvisible := fun c =>
  decidable_of_iff (c.tasks.isEmpty = true → c.mgr.queue.map JobDict.jobId =
    (recoverPendingJobs c.mgr.registry).map JobDict.jobId) (imp_congr_left List.isEmpty_iff)

/-- The invariant of the runs in scope. -/
structure Aged (c : Conf) : Prop where
  wellFormed : c.WellFormed
  clean : c.ledger.Clean
  dated : c.mgr.registry.Dated
  dicts : ∀ d ∈ c.dicts, c.mgr.registry.Dates d

theorem aged_start : (start .empty).Aged where
  wellFormed := wellFormed_start .empty
  clean := fun _ => ⟨fun ⟨_, h, _⟩ => (nomatch h), fun _ => rfl⟩
  dated := Registry.dated_empty
  dicts := fun _ h => absurd h List.not_mem_nil

theorem Aged.queue (h : c.Aged) : ∀ e ∈ c.mgr.queue, c.mgr.registry.Dates e :=
  fun e he => h.dicts e (List.mem_append_left _ he)

theorem Aged.clean_step (h : c.Aged) (hscope : InScope cfg c l) (hst : exec cfg c l = some c') :
    c'.ledger.Clean := by
  obtain ⟨-, hen, happ⟩ := simulates h.wellFormed hst
  have hnd := hscope.2.1 c' hst
  rw [happ] at hnd ⊢
  refine Ledger.clean_of_nodup h.clean hen hnd fun k o hact hw => ?_
  have hclose := hscope.2.2
  rw [hact] at hclose
  obtain ⟨row, hrow, hpending⟩ := Manager.waiting_iff.1 hw
  exact hclose row hrow hpending

/-- Rows stay in the order of age while the clock advances. -/
theorem dated_step (h : c.mgr.registry.Dated) (hclock : c.ClockAdvances l)
    (hst : exec cfg c l = some c') : c'.mgr.registry.Dated := by
  by_cases hl : ∃ j req now, l = .submitJob j req now
  · obtain ⟨j, req, now, rfl⟩ := hl
    cases call hst with
    | first hbegun =>
      cases hbegun with
      | submitJob hreg => exact h.insert hreg hclock.1 hclock.2
  · exact h.update (jobsUpdate hst fun j req now heq => hl ⟨j, req, now, heq⟩)

theorem Aged.dated_step (h : c.Aged) (hscope : InScope cfg c l) (hst : exec cfg c l = some c') :
    c'.mgr.registry.Dated :=
  Conf.dated_step h.dated hscope.1 hst

/-- **Every call in scope keeps the invariant.** -/
theorem preserves_aged : ((fine cfg).restrict (InScope cfg)).Preserves Aged := by
  rintro c l c' ⟨hscope, hst⟩ h
  have hdated := h.dated_step hscope hst
  refine ⟨(simulates h.wellFormed hst).1, h.clean_step hscope hst, hdated, fun d hd => ?_⟩
  cases source hst hd with
  | kept hold => exact (h.dicts d hold).mono (jobsWrite hst)
  | @retried _ d₀ hold =>
    have hmono := (h.dicts d₀ hold).mono (jobsWrite hst)
    exact ⟨hmono.priority, hmono.positive, hmono.createdAt⟩
  | read hrow => exact (h.dated.dates_toDict hrow).mono (jobsWrite hst)
  | @submitted jobId req now =>
    cases call hst with
    | first hbegun =>
      cases hbegun with
      | @submitJob _ _ _ reg hreg =>
        have hrow : reg.getJob jobId = some _ :=
          (Registry.getJob_insertJob hreg jobId).trans (if_pos rfl)
        refine ⟨rfl, ?_, by rintro _ ⟨⟩⟩
        refine lt_of_lt_of_eq ?_ (Registry.createdAt_of_getJob hrow).symm
        exact (hdated.rows _ (Table.mem_of_find? hrow)).2

theorem Aged.nodup_append (h : c.Aged) {i : ℕ} {t : Task} (hi : c.tasks[i]? = some t)
    {job : JobDict} (ht : t.tickets = {job.jobId}) :
    ((c.mgr.queue ++ [job]).map JobDict.jobId).Nodup := by
  obtain ⟨rest, hhands, -⟩ := hands_resume c hi (c.mgr, none)
  have hnd : (↑(c.mgr.queue.map JobDict.jobId) + (t.tickets + rest) : Multiset String).Nodup :=
    hhands ▸ h.clean.nodup
  rw [ht, ← add_assoc] at hnd
  rw [List.map_append, ← Multiset.coe_nodup, ← Multiset.coe_add]
  exact Multiset.nodup_of_le (Multiset.le_add_right _ _) hnd

theorem Aged.inOrder_append (h : c.Aged) {i : ℕ} {t : Task} (hi : c.tasks[i]? = some t)
    {job : JobDict} (ht : t.tickets = {job.jobId}) (hd : job ∈ t.dicts) :
    c.mgr.registry.InOrder (appendSorted c.mgr.queue job) ↔
      c.mgr.registry.SortsByAge (c.mgr.queue ++ [job]) := by
  have hdates : ∀ e ∈ c.mgr.queue ++ [job], c.mgr.registry.Dates e := by
    intro e he
    rcases List.mem_append.1 he with he | he
    · exact h.queue e he
    · obtain rfl := List.mem_singleton.1 he
      exact h.dicts e (List.mem_append_right _
        (List.mem_flatMap.2 ⟨t, List.mem_of_getElem? hi, hd⟩))
  exact Registry.inOrder_sortQueue hdates
    (Registry.pairwise_createdAt_ne h.dated hdates (h.nodup_append hi ht))

/-- The queue after a call is in order exactly if the call inserts its entry where it belongs. -/
theorem Aged.inOrder_queueAfter (h : c.Aged) (hin : c.mgr.registry.InOrder c.mgr.queue)
    (l : Label) : c.mgr.registry.InOrder (c.queueAfter l) ↔ c.KeepsOrder l := by
  cases l with
  | registerNode | sendHeartbeat | listenForCommands | takeCommand | reportJobStatus | submitJob
    | monitorPass | probe => exact iff_of_true hin trivial
  | schedulerPass => exact iff_of_true (hin.sublist (List.tail_sublist _)) trivial
  | restart => exact iff_of_true h.dated.inOrder_recover trivial
  | runTask i now =>
    rw [queueAfter, KeepsOrder]
    cases hi : c.tasks[i]? with
    | none => exact iff_of_true hin (by rintro _ ⟨⟩)
    | some t =>
      have hguard : (∀ t' ∈ some t, t'.KeepsOrder c.mgr) ↔ t.KeepsOrder c.mgr := by simp
      rw [hguard, Option.map_some, Option.getD_some]
      cases t with
      | submitAppend job | retryAppend job =>
        exact h.inOrder_append hi rfl (List.mem_singleton_self job)
      | monAppend offline jobs job => exact h.inOrder_append hi rfl List.mem_cons_self
      | schedRequeue job => exact List.pairwise_cons.trans (and_iff_left hin)
      | registerQueue | retrySetIdle | retryWrite | failWrite | closedSetIdle | schedSelect
        | schedReserve | schedSend | monJobs | monLoop | monCount => exact iff_of_true hin trivial

theorem Aged.dates_queueAfter (h : c.Aged) (l : Label) :
    ∀ e ∈ c.queueAfter l, c.mgr.registry.Dates e := by
  intro e he
  cases l with
  | registerNode | sendHeartbeat | listenForCommands | takeCommand | reportJobStatus | submitJob
    | monitorPass | probe => exact h.queue e he
  | schedulerPass => exact h.queue e (List.mem_of_mem_tail he)
  | restart =>
    exact h.dated.dates_of_getJobs e ((perm_recoverPendingJobs c.mgr.registry).subset he)
  | runTask i now =>
    rw [queueAfter] at he
    cases hi : c.tasks[i]? with
    | none => rw [hi] at he; exact h.queue e he
    | some t =>
      rw [hi] at he
      rcases List.mem_append.1 (t.queueAfter_subset _ he) with he | he
      · exact h.queue e he
      · exact h.dicts e (List.mem_append_right _
          (List.mem_flatMap.2 ⟨t, List.mem_of_getElem? hi, he⟩))

/-- **A call keeps the queue in order exactly if it inserts its entry where it belongs.** -/
theorem Aged.inOrder_step (h : c.Aged) (hin : c.mgr.registry.InOrder c.mgr.queue)
    (hst : exec cfg c l = some c') :
    c'.mgr.registry.InOrder c'.mgr.queue ↔ c.KeepsOrder l := by
  rw [queue_step hst, (jobsWrite hst).inOrder_iff (h.dates_queueAfter l)]
  exact h.inOrder_queueAfter hin l

/-- A queue in order is as a restart would rebuild it. -/
theorem Aged.restartInvisible (h : c.Aged) (hin : c.mgr.registry.InOrder c.mgr.queue) :
    c.RestartInvisible := by
  intro htasks
  -- the same jobs, as every pending job has one entry
  have hhands : c.hands = 0 := by rw [hands, htasks]; rfl
  have htickets : c.ledger.tickets = c.mgr.pendingIds :=
    h.clean.tickets_eq (Manager.ledger_restart (m := c.mgr) (H := c.hands)).2
  have hrecovered := (perm_recoverPendingJobs c.mgr.registry).map JobDict.jobId
  rw [List.map_map] at hrecovered
  have hperm : (c.mgr.queue.map JobDict.jobId).Perm
      ((recoverPendingJobs c.mgr.registry).map JobDict.jobId) := by
    refine (Multiset.coe_eq_coe.1 ?_).trans hrecovered.symm
    rw [ledger, hhands] at htickets
    exact (add_zero _).symm.trans htickets
  -- in the same order
  have hqueued : (c.mgr.queue.map JobDict.jobId).Pairwise c.mgr.registry.Older :=
    List.pairwise_map.2 hin
  have hrebuilt : ((recoverPendingJobs c.mgr.registry).map JobDict.jobId).Pairwise
      c.mgr.registry.Older :=
    List.pairwise_map.2 h.dated.inOrder_recover
  exact hperm.eq_of_pairwise (fun i j _ _ hij hji => absurd hji (lt_asymm hij)) hqueued hrebuilt

/-- The queue of a run in scope is in order in all states exactly if every call inserts its entry
where it belongs. -/
theorem inOrder_iff {tr : List (Label × Conf)} (h : (fine cfg).Run (start .empty) tr)
    (hscope : LTS.StepsMeet (InScope cfg) (start .empty) tr) :
    LTS.StatesMeet (fun c => c.mgr.registry.InOrder c.mgr.queue) (start .empty) tr ↔
      LTS.StepsMeet KeepsOrder (start .empty) tr :=
  (h.restrict hscope).statesMeet_iff_stepsMeet preserves_aged
    (fun _ _ _ hs hin hst => hs.inOrder_step hin hst.2) aged_start .nil

/-- **A restart is invisible while entries are inserted where they belong.**  In a run with a
strictly increasing clock, without duplicate entries and without closing a pending job, let every
append find the entries without `created_at` older than those with one, and in order, and every
entry that is put back be older than the queued ones.  Then in all its states in which no operation
is in progress, a restart would rebuild the queue in its order. -/
theorem restart_invisible {tr : List (Label × Conf)} (h : (fine cfg).Run (start .empty) tr)
    (hscope : LTS.StepsMeet (InScope cfg) (start .empty) tr)
    (hkeep : LTS.StepsMeet KeepsOrder (start .empty) tr) :
    LTS.StatesMeet RestartInvisible (start .empty) tr :=
  (h.restrict hscope).statesMeet_imp preserves_aged (fun _ hs hin => hs.restartInvisible hin)
    aged_start ((inOrder_iff h hscope).2 hkeep)

/-- The run in which a job on two nodes fails and is retried, and the manager is restarted. -/
theorem restart_invisible_retried :
    LTS.StatesMeet RestartInvisible (start .empty)
      (LTS.runOf (exec Sample.setup) (start .empty)
        (Sample.dispatchTwo ++ [.reportJobStatus ⟨"node-1", "job-1", "failed"⟩ 110,
          .runTask 0 110, .runTask 0 110, .runTask 0 110, .restart])) :=
  restart_invisible (LTS.run_runOf (exec Sample.setup) _ _) (by decide +kernel)
    (by decide +kernel)

/-- A manager that has recovered `job-1` puts `job-2` in front of it. -/
theorem restart_invisible_fails :
    ¬ ∀ (cfg : Setup) (tr : List (Label × Conf)), (fine cfg).Run (start .empty) tr →
      LTS.StepsMeet (InScope cfg) (start .empty) tr →
        LTS.StatesMeet RestartInvisible (start .empty) tr := by
  intro hall
  have hrun := hall Sample.setup _ (LTS.run_runOf (exec Sample.setup) (start .empty)
    [.submitJob "job-1" (Sample.job 1 1) 101, .runTask 0 101, .restart,
      .submitJob "job-2" (Sample.job 1 1) 102, .runTask 0 102]) (by decide +kernel)
  exact absurd hrun (by decide +kernel)

end Conf

end Dmlf
