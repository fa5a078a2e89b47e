import Dmlf.Manager.Line
import Dmlf.Manager.QueueOrder

/-!
# First in, first out

`submit_job` appends a job without a `created_at`, so the entries of all submissions tie, and an
entry of theirs that is read from the table for a retry sorts behind them.  The jobs submitted in
the lifetime of a manager are then dispatched, for the first time, in the order of their appends.

* `Conf.Fifo` : the jobs appended so far are those dispatched so far, and then those in line.
* `Conf.preserves_fifo` : every call that is `Conf.Foreseen` keeps this.
* `Conf.first_in_first_out` : so it holds in every run, from any recovered queue.
-/

namespace Dmlf

/-- The jobs submitted in this lifetime, in the order of their appends, and in the order of their
first dispatches. -/
structure SubmitOrder where
  appended : List String
  dispatched : List String

namespace Conf

variable {cfg : Setup} {c c' : Conf} {l : Label} {o : SubmitOrder}

/-- The job that a call dispatches for the first time, if it was submitted in this lifetime. -/
def firstDispatch (c : Conf) (l : Label) : Option String :=
  ((c.starts l).map fun x => x.1.jobId).filter fun j =>
    Event.submitted j ∈ c.mgr.history ∧ dispatchesIn c.mgr.history j = 0

/-- The order after a call. -/
def orderAfter (c : Conf) (o : SubmitOrder) (l : Label) : SubmitOrder where
  appended := o.appended ++ (c.submits l).toList
  dispatched := o.dispatched ++ (c.firstDispatch l).toList

/-- The clock that `SubmitJob` reads is past the epoch. -/
def PastEpoch : Label → Prop
  | .submitJob _ _ now => 0 < now
  | _ => True

/-- A failure that is reported is not of a job which is still being submitted. -/
def ReportsAppended (c : Conf) : Label → Prop
  | .reportJobStatus req _ => req.isFailure = true → req.jobId ∉ c.pending
  | _ => True

/-- A call in one lifetime of the manager, as the clock and the agents make it. -/
structure Foreseen (c : Conf) (l : Label) : Prop where
  lifetime : l.isRestart = false
  clock : PastEpoch l
  report : c.ReportsAppended l

/-- An entry read from the table, of a job that was submitted in this lifetime and has not been
dispatched. -/
def Overdue (c : Conf) (d : JobDict) : Prop :=
  ¬ d.Fresh ∧ Event.submitted d.jobId ∈ c.mgr.history ∧ dispatchesIn c.mgr.history d.jobId = 0

/-- What the job dicts in memory look like. -/
structure Stamped (c : Conf) (d : JobDict) : Prop where
  known : c.mgr.registry.Knows d.jobId
  fresh : d.Fresh → d.priority = none
  stamped : ¬ d.Fresh → Event.submitted d.jobId ∈ c.mgr.history →
    d.priority.getD 0 = 0 ∧ 0 < d.createdAt.getD 0
  /-- A job that is still being submitted has no entry but the fresh one. -/
  alone : ¬ d.Fresh → d.jobId ∉ c.pending

/-- The jobs that have been appended are those dispatched for the first time, and then those with a
fresh entry in line.  The rest of the invariant says why it stays so. -/
structure Fifo (c : Conf) (o : SubmitOrder) : Prop where
  oneScheduler : c.OneScheduler
  stamps : ∀ t ∈ c.tasks, t.Stamps
  dicts : ∀ d ∈ c.dicts, c.Stamped d
  undispatched : ∀ j, c.mgr.registry.getJob j = none → dispatchesIn c.mgr.history j = 0
  rows : ∀ j, Event.submitted j ∈ c.mgr.history →
    ∃ row, c.mgr.registry.getJob j = some row ∧ row.priority = 0 ∧ 0 < row.createdAt
  submitted : ∀ j, Event.submitted j ∈ c.mgr.history ↔ j ∈ o.appended ++ c.pending
  nodup : (o.appended ++ c.pending).Nodup
  notRunning : ∀ row ∈ c.mgr.registry.getJobs .running, row.jobId ∉ c.pending
  dispatched : ∀ j, Event.submitted j ∈ c.mgr.history →
    (j ∈ o.dispatched ↔ dispatchesIn c.mgr.history j ≠ 0)
  line : o.appended = o.dispatched ++ (c.line.filter JobDict.Fresh).map JobDict.jobId
  order : c.line.Pairwise fun a b => c.Overdue a → ¬ b.Fresh

theorem fifo_start (reg : Registry) : (start reg).Fifo ⟨[], []⟩ := by
  have hnot : ∀ j, Event.submitted j ∉ (start reg).mgr.history := fun _ => List.not_mem_nil
  have hold : ∀ d ∈ recoverPendingJobs reg, ¬ d.Fresh ∧ reg.Knows d.jobId := by
    intro d hd
    obtain ⟨row, hrow, rfl⟩ := List.mem_map.1 ((perm_recoverPendingJobs reg).subset hd)
    exact ⟨Option.some_ne_none _, row, (Registry.mem_getJobs.1 hrow).1⟩
  have hdicts : (start reg).dicts = recoverPendingJobs reg := List.append_nil _
  refine ⟨Nat.zero_le 1, fun _ ht => absurd ht List.not_mem_nil,
    fun d hd => ?_, fun _ _ => rfl, fun j hj => absurd hj (hnot j),
    fun j => iff_of_false (hnot j) List.not_mem_nil, List.nodup_nil,
    fun _ _ => List.not_mem_nil, fun j hj => absurd hj (hnot j), ?_, ?_⟩
  · obtain ⟨hfresh, hknown⟩ := hold d (hdicts ▸ hd)
    exact ⟨hknown, fun h => absurd h hfresh, fun _ hs => absurd hs (hnot _),
      fun _ => List.not_mem_nil⟩
  · rw [show (start reg).line = recoverPendingJobs reg from rfl,
      List.filter_eq_nil_iff.2 fun d hd => by simpa using (hold d hd).1]
    rfl
  · exact List.pairwise_of_forall fun a b ha => absurd ha.2.1 (hnot _)

/-! ### One call -/

theorem mem_dicts_of_line {d : JobDict} (h : d ∈ c.line) : d ∈ c.dicts := by
  rcases List.mem_append.1 h with h | h
  · obtain ⟨t, ht, hd⟩ := List.mem_filterMap.1 h
    exact List.mem_append_right _ (List.mem_flatMap.2 ⟨t, ht, Task.mem_dicts_of_holds hd⟩)
  · exact List.mem_append_left _ h

theorem getJob_submitJob {jobId : String} {req : JobSubmitRequest} {now : Time}
    (hst : exec cfg c (.submitJob jobId req now) = some c') :
    c.mgr.registry.getJob jobId = none ∧
      c'.mgr.registry.getJob jobId = some ((req.toDict jobId).toRow now) := by
  cases call hst with
  | first hbegun =>
    cases hbegun with
    | submitJob hreg =>
      exact ⟨Registry.getJob_of_insertJob hreg,
        (Registry.getJob_insertJob hreg jobId).trans (if_pos rfl)⟩

theorem mem_pending_step (hst : exec cfg c l = some c') (hl : l ≠ .restart) {j : String}
    (hj : j ∈ c'.pending) : j ∈ c.pending ∨ c.mgr.registry.getJob j = none := by
  cases pendingEffect hst hl with
  | same _ _ h => exact .inl (h ▸ hj)
  | insert j' req now heq _ h =>
    rcases List.mem_append.1 (h ▸ hj) with hj | hj
    · exact .inl hj
    · obtain rfl := List.mem_singleton.1 hj
      subst heq
      exact .inr (getJob_submitJob hst).1
  | append j' _ _ h => exact .inl (h.mem_iff.2 (List.mem_cons_of_mem _ hj))

theorem mem_pending_of_knows (hst : exec cfg c l = some c') (hl : l ≠ .restart) {j : String}
    (hknown : c.mgr.registry.Knows j) (hj : j ∈ c'.pending) : j ∈ c.pending := by
  refine (mem_pending_step hst hl hj).resolve_right fun hnone => ?_
  obtain ⟨row, hrow⟩ := hknown
  cases hnone.symm.trans hrow

theorem submitted_of_knows (hst : exec cfg c l = some c') {j : String}
    (hknown : c.mgr.registry.Knows j) (hj : Event.submitted j ∈ c'.mgr.history) :
    Event.submitted j ∈ c.mgr.history := by
  rcases (submitted_step hst j).1 hj with hj | ⟨req, now, rfl⟩
  · exact hj
  · obtain ⟨row, hrow⟩ := hknown
    cases (getJob_submitJob hst).1.symm.trans hrow

theorem Foreseen.ne_restart (hf : c.Foreseen l) : l ≠ .restart := by
  rintro rfl
  cases hf.lifetime

namespace Fifo

theorem not_pending_of_reads (h : c.Fifo o) (hf : c.Foreseen l) {row : JobRow}
    (hread : c.Reads l row) : row.jobId ∉ c.pending := by
  cases hread with
  | report hfail hrow => exact Registry.jobId_of_getJob hrow ▸ hf.report hfail
  | running hrow => exact h.notRunning row hrow
  | recovered => cases hf.lifetime

theorem not_mem_of_getJob (h : c.Fifo o) {j : String} (hj : c.mgr.registry.getJob j = none) :
    j ∉ o.appended ++ c.pending := by
  intro hmem
  obtain ⟨row, hrow, -⟩ := h.rows j ((h.submitted j).2 hmem)
  cases hj.symm.trans hrow

theorem stamped_step (h : c.Fifo o) (hf : c.Foreseen l) (hst : exec cfg c l = some c') :
    ∀ d ∈ c'.dicts, c'.Stamped d := by
  have hext : c.mgr.registry.Extends c'.mgr.registry := (jobsWrite hst).extends
  have hkeep : ∀ d, c.Stamped d → c'.Stamped d := by
    rintro d ⟨hknown, hfresh, hstamped, halone⟩
    exact ⟨hknown.mono hext, hfresh,
      fun hd hs => hstamped hd (submitted_of_knows hst hknown hs),
      fun hd hp => halone hd (mem_pending_of_knows hst hf.ne_restart hknown hp)⟩
  intro d hd
  cases origin hst hd with
  | kept hold => exact hkeep d (h.dicts d hold)
  | @retried _ d₀ hold =>
    have hd₀ := hkeep d₀ (h.dicts d₀ hold)
    exact ⟨hd₀.known, hd₀.fresh, hd₀.stamped, hd₀.alone⟩
  | @read _ row hread =>
    have hknown : c.mgr.registry.Knows row.jobId := ⟨row, hread.getJob⟩
    refine ⟨hknown.mono hext, fun hd => absurd hd (Option.some_ne_none _), fun _ hs => ?_,
      fun _ hp => h.not_pending_of_reads hf hread
        (mem_pending_of_knows hst hf.ne_restart hknown hp)⟩
    obtain ⟨row', hrow', hprio, hcreated⟩ := h.rows row.jobId (submitted_of_knows hst hknown hs)
    obtain rfl := Option.some.inj (hread.getJob.symm.trans hrow')
    exact ⟨hprio, hcreated⟩
  | submitted =>
    exact ⟨⟨_, (getJob_submitJob hst).2⟩, fun _ => rfl, fun hd => absurd rfl hd,
      fun hd => absurd rfl hd⟩

theorem stamps_step (h : c.Fifo o) (hst : exec cfg c l = some c') : ∀ t ∈ c'.tasks, t.Stamps := by
  intro t ht
  have hafter := taskAfter hst ht
  generalize c'.mgr = m at hafter
  cases hafter with
  | kept ht => exact h.stamps t ht
  | begun hbegun => cases hbegun <;> trivial
  | next _ _ hnext => exact Task.stamps_step hnext

theorem line_of_starts (h : c.Fifo o) (hf : c.Foreseen l) (hst : exec cfg c l = some c')
    {x : JobDict × List NodeRow} (hx : c.starts l = some x) : c.line = x.1 :: c'.line := by
  cases lineEffect h.oneScheduler hst hf.ne_restart with
  | same hnone => cases hnone.symm.trans hx
  | append d hnone => cases hnone.symm.trans hx
  | dispatch y hy _ hline =>
    obtain rfl := Option.some.inj (hy.symm.trans hx)
    exact hline

theorem undispatched_step (h : c.Fifo o) (hf : c.Foreseen l) (hst : exec cfg c l = some c')
    (j : String) (hj : c'.mgr.registry.getJob j = none) :
    dispatchesIn c'.mgr.history j = 0 := by
  have hnone : c.mgr.registry.getJob j = none := by
    cases hrow : c.mgr.registry.getJob j with
    | none => rfl
    | some row =>
      obtain ⟨row', hrow', -⟩ := (jobsWrite hst).extends j row hrow
      cases hj.symm.trans hrow'
  rw [dispatchesIn_step hst, h.undispatched j hnone]
  cases hx : c.starts l with
  | none => rfl
  | some x =>
    have hmem : x.1 ∈ c.line := by
      rw [h.line_of_starts hf hst hx]
      exact List.mem_cons_self
    obtain ⟨row, hrow⟩ := (h.dicts _ (mem_dicts_of_line hmem)).known
    have hne : x.1.jobId ≠ j := by
      rintro rfl
      cases hnone.symm.trans hrow
    simp [hne]

theorem rows_step (h : c.Fifo o) (hf : c.Foreseen l) (hst : exec cfg c l = some c') (j : String)
    (hj : Event.submitted j ∈ c'.mgr.history) :
    ∃ row, c'.mgr.registry.getJob j = some row ∧ row.priority = 0 ∧ 0 < row.createdAt := by
  rcases (submitted_step hst j).1 hj with hj | ⟨req, now, rfl⟩
  · obtain ⟨row, hrow, hprio, hcreated⟩ := h.rows j hj
    have hfixed : JobRow.Fixed fun row => (row.priority, row.createdAt) :=
      ⟨fun _ _ _ _ _ => rfl, fun _ _ _ => rfl⟩
    obtain ⟨row', hrow', heq⟩ := (jobsWrite hst).keeps hfixed hrow
    obtain ⟨hp, hc⟩ := Prod.mk.inj heq
    exact ⟨row', hrow', hp.trans hprio, hc ▸ hcreated⟩
  · exact ⟨_, (getJob_submitJob hst).2, rfl, hf.clock⟩

theorem submitted_perm (hf : c.Foreseen l) (hst : exec cfg c l = some c') :
    (o.appended ++ c.pending).Perm ((c.orderAfter o l).appended ++ c'.pending) ∧
      (∀ j req now, l ≠ .submitJob j req now) ∨
    ∃ j req now, l = .submitJob j req now ∧
      (c.orderAfter o l).appended ++ c'.pending = o.appended ++ c.pending ++ [j] := by
  cases pendingEffect hst hf.ne_restart with
  | same hs hl heq =>
    refine .inl ⟨?_, hl⟩
    rw [orderAfter, hs, heq, Option.toList_none, List.append_nil]
  | insert j req now hl hs heq =>
    refine .inr ⟨j, req, now, hl, ?_⟩
    rw [orderAfter, hs, heq, Option.toList_none, List.append_nil, List.append_assoc]
  | append j hs hl hperm =>
    refine .inl ⟨?_, hl⟩
    rw [orderAfter, hs, Option.toList_some, List.append_assoc]
    exact hperm.append_left _

theorem submitted_step (h : c.Fifo o) (hf : c.Foreseen l) (hst : exec cfg c l = some c') :
    (∀ j, Event.submitted j ∈ c'.mgr.history ↔ j ∈ (c.orderAfter o l).appended ++ c'.pending) ∧
      ((c.orderAfter o l).appended ++ c'.pending).Nodup := by
  rcases submitted_perm (o := o) hf hst with ⟨hperm, hl⟩ | ⟨j, req, now, rfl, heq⟩
  · refine ⟨fun j => ?_, hperm.nodup_iff.1 h.nodup⟩
    rw [Conf.submitted_step hst, h.submitted, hperm.mem_iff]
    refine or_iff_left ?_
    rintro ⟨req, now, heq⟩
    exact hl j req now heq
  · have hnew := h.not_mem_of_getJob (getJob_submitJob hst).1
    rw [heq]
    refine ⟨fun j' => ?_, List.nodup_append.2 ⟨h.nodup, List.nodup_singleton _, ?_⟩⟩
    · rw [Conf.submitted_step hst, h.submitted, List.mem_append (t := [j]), List.mem_singleton]
      refine or_congr_right ⟨?_, ?_⟩
      · rintro ⟨_, _, ⟨⟩⟩
        rfl
      · rintro rfl
        exact ⟨req, now, rfl⟩
    · rintro a ha b hb rfl
      exact hnew (List.mem_singleton.1 hb ▸ ha)

theorem of_fresh (h : c.Fifo o) {d : JobDict} (hd : d ∈ c.line) (hfresh : d.Fresh) :
    Event.submitted d.jobId ∈ c.mgr.history ∧ d.jobId ∉ o.dispatched ∧
      dispatchesIn c.mgr.history d.jobId = 0 ∧ d.jobId ∉ c.pending := by
  have hmem : d.jobId ∈ (c.line.filter JobDict.Fresh).map JobDict.jobId :=
    List.mem_map_of_mem (List.mem_filter.2 ⟨hd, by simpa using hfresh⟩)
  obtain ⟨happended, -, hdisj⟩ := List.nodup_append.1 h.nodup
  have happ : d.jobId ∈ o.appended := by
    rw [h.line]
    exact List.mem_append_right _ hmem
  have hs := (h.submitted d.jobId).2 (List.mem_append_left _ happ)
  have hnot : d.jobId ∉ o.dispatched := by
    rw [h.line] at happended
    exact fun hd => (List.nodup_append.1 happended).2.2 _ hd _ hmem rfl
  refine ⟨hs, hnot, ?_, fun hp => hdisj _ happ _ hp rfl⟩
  exact not_not.1 fun hne => hnot ((h.dispatched _ hs).2 hne)

/-- The first entry in line is not overdue: the fresh entry of its job would be behind it. -/
theorem not_overdue (h : c.Fifo o) {x : JobDict} {rest : List JobDict}
    (hline : c.line = x :: rest) : ¬ c.Overdue x := by
  rintro ⟨hx, hs, hcount⟩
  have hmem : x ∈ c.line := hline ▸ List.mem_cons_self
  have happ : x.jobId ∈ o.appended := by
    refine (List.mem_append.1 ((h.submitted _).1 hs)).resolve_right ?_
    exact (h.dicts x (mem_dicts_of_line hmem)).alone hx
  rw [h.line] at happ
  rcases List.mem_append.1 happ with hd | hd
  · exact (h.dispatched _ hs).1 hd hcount
  · obtain ⟨f, hf, hid⟩ := List.mem_map.1 hd
    obtain ⟨hf, hfresh⟩ := List.mem_filter.1 hf
    have hfresh : f.Fresh := by simpa using hfresh
    have horder := h.order
    rw [hline] at hf horder
    rcases List.mem_cons.1 hf with rfl | hf
    · exact hx hfresh
    · exact (List.pairwise_cons.1 horder).1 f hf ⟨hx, hs, hcount⟩ hfresh

/-- A dispatch is the first one of its job, among those submitted, exactly if the entry is fresh. -/
theorem firstDispatch_eq (h : c.Fifo o) {x : JobDict × List NodeRow} (hx : c.starts l = some x)
    {rest : List JobDict} (hline : c.line = x.1 :: rest) :
    c.firstDispatch l = if x.1.Fresh then some x.1.jobId else none := by
  have hmem : x.1 ∈ c.line := hline ▸ List.mem_cons_self
  rw [firstDispatch, hx, Option.map_some, Option.filter_some]
  refine if_congr ?_ rfl rfl
  rw [decide_eq_true_eq]
  constructor
  · rintro ⟨hs, hcount⟩
    exact not_not.1 fun hold => h.not_overdue hline ⟨hold, hs, hcount⟩
  · intro hfresh
    obtain ⟨hs, -, hcount, -⟩ := h.of_fresh hmem hfresh
    exact ⟨hs, hcount⟩

theorem firstDispatch_eq_none (hx : c.starts l = none) : c.firstDispatch l = none := by
  rw [firstDispatch, hx]
  rfl

theorem notRunning_step (h : c.Fifo o) (hf : c.Foreseen l) (hst : exec cfg c l = some c') :
    ∀ row ∈ c'.mgr.registry.getJobs .running, row.jobId ∉ c'.pending := by
  intro row hrow hp
  rcases running_step hst hrow with ⟨hold, -⟩ | ⟨x, hx, hid, -⟩
  · have hknown : c.mgr.registry.Knows row.jobId := ⟨row, (Registry.mem_getJobs.1 hold).1⟩
    exact h.notRunning row hold (mem_pending_of_knows hst hf.ne_restart hknown hp)
  · have hmem : x.1 ∈ c.line := by
      rw [h.line_of_starts hf hst hx]
      exact List.mem_cons_self
    have hx₀ := h.dicts _ (mem_dicts_of_line hmem)
    rw [← hid] at hp
    have hp := mem_pending_of_knows hst hf.ne_restart hx₀.known hp
    by_cases hfresh : x.1.Fresh
    · exact (h.of_fresh hmem hfresh).2.2.2 hp
    · exact hx₀.alone hfresh hp

theorem dispatched_step (h : c.Fifo o) (hf : c.Foreseen l) (hst : exec cfg c l = some c')
    (j : String) (hj : Event.submitted j ∈ c'.mgr.history) :
    j ∈ (c.orderAfter o l).dispatched ↔ dispatchesIn c'.mgr.history j ≠ 0 := by
  have hcount := dispatchesIn_step hst j
  rw [orderAfter, List.mem_append, Option.mem_toList]
  rcases (Conf.submitted_step hst j).1 hj with hj | ⟨req, now, rfl⟩
  · cases hx : c.starts l with
    | none =>
      rw [hx] at hcount
      rw [firstDispatch_eq_none hx, hcount, h.dispatched j hj]
      simp
    | some x =>
      have hline := h.line_of_starts hf hst hx
      rw [hx] at hcount
      by_cases hid : x.1.jobId = j
      · -- now or before, there was a first dispatch
        refine iff_of_true ?_ (by simp [hcount, hid])
        by_cases hzero : dispatchesIn c.mgr.history j = 0
        · refine .inr ?_
          rw [firstDispatch, hx]
          simp [hid, hj, hzero]
        · exact .inl ((h.dispatched j hj).2 hzero)
      · have hne : ¬ c.firstDispatch l = some j := by
          rw [h.firstDispatch_eq hx hline]
          split_ifs
          · simpa using hid
          · simp
        rw [hcount, or_iff_left hne, h.dispatched j hj]
        simp [hid]
  · -- a new job
    have hnone := (getJob_submitJob hst).1
    have hzero := h.undispatched j hnone
    have hx : c.starts (.submitJob j req now) = none := rfl
    rw [hx] at hcount
    refine iff_of_false ?_ (by simp [hcount, hzero])
    rw [firstDispatch_eq_none hx]
    rintro (hd | hd)
    · refine h.not_mem_of_getJob hnone (List.mem_append_left _ ?_)
      rw [h.line]
      exact List.mem_append_left _ hd
    · cases hd

theorem appends_cases (h : c.Fifo o) {d : JobDict} (hd : c.appends l = some d) :
    d ∈ c.dicts ∧ (d.Fresh ∧ c.submits l = some d.jobId ∨ ¬ d.Fresh ∧ c.submits l = none) := by
  cases l with
  | runTask i now =>
    obtain ⟨t, hi, ht⟩ := Option.bind_eq_some_iff.1 hd
    have hmem := List.mem_of_getElem? hi
    have hstamps := h.stamps t hmem
    have hdict : ∀ d ∈ t.dicts, d ∈ c.dicts := fun d hd =>
      List.mem_append_right _ (List.mem_flatMap.2 ⟨t, hmem, hd⟩)
    rw [submits, hi]
    cases t with
    | submitAppend job =>
      obtain rfl := Option.some.inj ht
      exact ⟨hdict _ (List.mem_singleton_self _), .inl ⟨hstamps, rfl⟩⟩
    | retryAppend job =>
      obtain rfl := Option.some.inj ht
      exact ⟨hdict _ (List.mem_singleton_self _), .inr ⟨hstamps, rfl⟩⟩
    | monAppend offline jobs job =>
      obtain rfl := Option.some.inj ht
      exact ⟨hdict _ List.mem_cons_self, .inr ⟨hstamps, rfl⟩⟩
    | _ => cases ht
  | _ => cases hd

theorem submits_eq_none (h : c.appends l = none) : c.submits l = none := by
  cases l with
  | runTask i now =>
    rw [submits]
    rw [appends] at h
    cases hi : c.tasks[i]? with
    | none => rfl
    | some t =>
      rw [hi] at h
      cases t with
      | submitAppend => cases h
      | _ => rfl
  | _ => rfl

theorem filter_appendSorted (h : c.Fifo o) {d : JobDict} (hd : d ∈ c.dicts) :
    (appendSorted c.mgr.queue d).filter JobDict.Fresh =
      (c.mgr.queue ++ [d]).filter JobDict.Fresh := by
  refine filter_insertionSort (List.pairwise_of_forall_mem_list fun a ha b hb => ?_)
  have hkey : ∀ a ∈ (c.mgr.queue ++ [d]).filter JobDict.Fresh, a.sortKey = (0, 0) := by
    intro a ha
    obtain ⟨ha, hfresh⟩ := List.mem_filter.1 ha
    have hfresh : a.Fresh := by simpa using hfresh
    have hmem : a ∈ c.dicts := by
      rcases List.mem_append.1 ha with ha | ha
      · exact List.mem_append_left _ ha
      · exact List.mem_singleton.1 ha ▸ hd
    rw [JobDict.sortKey, (h.dicts a hmem).fresh hfresh, show a.createdAt = none from hfresh]
    simp
  exact .inr ⟨by rw [hkey a ha, hkey b hb], by rw [hkey a ha, hkey b hb]⟩

theorem line_step (h : c.Fifo o) (hf : c.Foreseen l) (hst : exec cfg c l = some c') :
    (c.orderAfter o l).appended = (c.orderAfter o l).dispatched ++
      (c'.line.filter JobDict.Fresh).map JobDict.jobId := by
  simp only [orderAfter]
  cases lineEffect h.oneScheduler hst hf.ne_restart with
  | same hx ha hline =>
    have hs := submits_eq_none ha
    rw [firstDispatch_eq_none hx, hs, hline, h.line]
    simp
  | append d hx ha hheld hqueue =>
    obtain ⟨hd, hcases⟩ := h.appends_cases ha
    have hline : c'.line.filter JobDict.Fresh =
        c.line.filter JobDict.Fresh ++ [d].filter JobDict.Fresh := by
      rw [Conf.line, hheld, hqueue, List.filter_append, h.filter_appendSorted hd, Conf.line,
        List.filter_append, List.filter_append, List.append_assoc]
    rw [firstDispatch_eq_none hx, hline, h.line]
    rcases hcases with ⟨hfresh, hs⟩ | ⟨hold, hs⟩
    · simp [hs, hfresh]
    · simp [hs, hold]
  | dispatch x hx ha hline =>
    have hs := submits_eq_none ha
    rw [h.firstDispatch_eq hx hline, hs, h.line, hline]
    by_cases hfresh : x.1.Fresh
    · simp [hfresh]
    · simp [hfresh]

theorem overdue_of_step (h : c.Fifo o) (hst : exec cfg c l = some c') {d : JobDict}
    (hd : d ∈ c.dicts) (hover : c'.Overdue d) : c.Overdue d := by
  obtain ⟨hold, hs, hcount⟩ := hover
  rw [dispatchesIn_step hst] at hcount
  exact ⟨hold, submitted_of_knows hst (h.dicts d hd).known hs, (Nat.add_eq_zero_iff.1 hcount).1⟩

/-- A sort puts no overdue entry in front of a fresh one. -/
theorem not_fresh_of_notAfter (h : c.Fifo o) {a b : JobDict} (ha : a ∈ c.dicts) (hb : b ∈ c.dicts)
    (hab : a.NotAfter b) (hover : c.Overdue a) : ¬ b.Fresh := by
  intro hfresh
  obtain ⟨hprio, hcreated⟩ := (h.dicts a ha).stamped hover.1 hover.2.1
  have hb₁ := (h.dicts b hb).fresh hfresh
  have hb₂ : b.createdAt = none := hfresh
  rcases JobDict.notAfter_iff_inOrder.1 hab with hlt | ⟨-, hle⟩
  · simp [hb₁, hprio] at hlt
  · rw [hb₂] at hle
    exact absurd hcreated (not_lt.2 hle)

theorem order_step (h : c.Fifo o) (hf : c.Foreseen l) (hst : exec cfg c l = some c') :
    c'.line.Pairwise fun a b => c'.Overdue a → ¬ b.Fresh := by
  have hkeep : ∀ {rest : List JobDict}, (∀ d ∈ rest, d ∈ c.dicts) →
      (rest.Pairwise fun a b => c.Overdue a → ¬ b.Fresh) →
      rest.Pairwise fun a b => c'.Overdue a → ¬ b.Fresh := fun hmem hp =>
    hp.imp_of_mem fun ha _ hab hover => hab (h.overdue_of_step hst (hmem _ ha) hover)
  cases lineEffect h.oneScheduler hst hf.ne_restart with
  | same hx ha hline =>
    rw [hline]
    exact hkeep (fun d hd => mem_dicts_of_line hd) h.order
  | dispatch x hx ha hline =>
    have horder := h.order
    rw [hline] at horder
    refine hkeep (fun d hd => mem_dicts_of_line ?_) (List.pairwise_cons.1 horder).2
    rw [hline]
    exact List.mem_cons_of_mem _ hd
  | append d hx ha hheld hqueue =>
    have hqueued : ∀ a ∈ appendSorted c.mgr.queue d, a ∈ c.dicts := by
      intro a hmem
      rcases List.mem_cons.1 ((perm_appendSorted _ _).subset hmem) with rfl | hmem
      · exact (h.appends_cases ha).1
      · exact List.mem_append_left _ hmem
    have hinHand : ∀ a ∈ c.held, a ∈ c.dicts := fun a hmem =>
      mem_dicts_of_line (List.mem_append_left _ hmem)
    rw [Conf.line, hheld, hqueue]
    refine List.pairwise_append.2
      ⟨hkeep hinHand (List.pairwise_append.1 h.order).1, hkeep hqueued ?_, ?_⟩
    · refine (List.pairwise_insertionSort JobDict.NotAfter _).imp_of_mem fun hmem hmem' hab => ?_
      exact h.not_fresh_of_notAfter (hqueued _ hmem) (hqueued _ hmem') hab
    · -- the entry in the hands of the scheduler is the first one in line
      intro a hmem b _ hover
      have hline : c.line = a :: c.mgr.queue := by
        have hlen := length_held_le h.oneScheduler
        obtain ⟨a', ha'⟩ := List.length_eq_one_iff.1
          (le_antisymm hlen (List.length_pos_of_mem hmem))
        rw [ha'] at hmem
        rw [Conf.line, ha', List.mem_singleton.1 hmem]
        rfl
      exact absurd (h.overdue_of_step hst (hinHand a hmem) hover) (h.not_overdue hline)

end Fifo

/-! ### Runs -/

/-- The manager with the order of its submissions, in the runs that are foreseen. -/
def ordered (cfg : Setup) : LTS (Conf × SubmitOrder) Label :=
  ((fine cfg).recorded orderAfter).restrict fun s l => s.1.Foreseen l

theorem preserves_fifo : (ordered cfg).Preserves fun s => s.1.Fifo s.2 := by
  rintro ⟨c, o⟩ l ⟨c', o'⟩ ⟨hf, hst, rfl : o' = _⟩ h
  exact {
    oneScheduler := oneScheduler_step h.oneScheduler hst
    stamps := h.stamps_step hst
    dicts := h.stamped_step hf hst
    undispatched := h.undispatched_step hf hst
    rows := h.rows_step hf hst
    submitted := (h.submitted_step hf hst).1
    nodup := (h.submitted_step hf hst).2
    notRunning := h.notRunning_step hf hst
    dispatched := h.dispatched_step hf hst
    line := h.line_step hf hst
    order := h.order_step hf hst }

/-- **First in, first out**: in every run from a recovered queue the jobs that have been submitted
are dispatched, for the first time, in the order of their appends. -/
theorem first_in_first_out {reg : Registry} {s : Conf × SubmitOrder}
    (h : (ordered cfg).Reachable (start reg, ⟨[], []⟩) s) :
    s.2.dispatched <+: s.2.appended := by
  have hfifo : s.1.Fifo s.2 := h.keeps preserves_fifo (fifo_start reg)
  exact ⟨_, hfifo.line.symm⟩

instance : DecidablePred PastEpoch
  | .submitJob _ _ now => inferInstanceAs (Decidable (0 < now))
  | .registerNode _ _ _ _ | .sendHeartbeat _ _ | .listenForCommands _ | .takeCommand _
  | .reportJobStatus _ _ | .schedulerPass _ | .monitorPass _ | .probe _ | .restart
  | .runTask _ _ => .isTrue trivial

instance (c : Conf) : DecidablePred c.ReportsAppended
  | .reportJobStatus req _ =>
    inferInstanceAs (Decidable (req.isFailure = true → req.jobId ∉ c.pending))
  | .registerNode _ _ _ _ | .sendHeartbeat _ _ | .listenForCommands _ | .takeCommand _
  | .submitJob _ _ _ | .schedulerPass _ | .monitorPass _ | .probe _ | .restart
  | .runTask _ _ => .isTrue trivial

instance (c : Conf) : DecidablePred c.Foreseen := fun l =>
  decidable_of_iff (l.isRestart = false ∧ PastEpoch l ∧ c.ReportsAppended l)
    ⟨fun h => ⟨h.1, h.2.1, h.2.2⟩, fun h => ⟨h.1, h.2, h.3⟩⟩

end Conf

namespace Sample

/-- The calls of a job that is popped without a node to run on, and put back behind the append of
another one. -/
def requeued : List Label :=
  [.submitJob "job-1" (job 1 1) 101, .runTask 0 101, .schedulerPass 102, .runTask 0 102,
    .submitJob "job-2" (job 1 1) 103, .runTask 1 103, .runTask 0 103,
    .registerNode "node-1" "secret-1" node 104, .runTask 0 104,
    .registerNode "node-2" "secret-2" node 104, .runTask 0 104] ++
  dispatchOne 105 ++ dispatchOne 106

/-- The calls of a job that is reported to have failed between the insert of its row and its
append, and that is dispatched meanwhile. -/
def reportedEarly : List Label :=
  [.registerNode "node-1" "secret-1" node 100, .runTask 0 100,
    .registerNode "node-2" "secret-2" node 100, .runTask 0 100,
    .submitJob "job-2" (job 1 1) 101, .reportJobStatus ⟨"node-1", "job-2", "failed"⟩ 102,
    .runTask 1 102, .runTask 1 102, .runTask 1 102, .schedulerPass 103,
    .submitJob "job-1" (job 1 1) 103, .runTask 2 103, .runTask 1 104, .runTask 1 104,
    .runTask 1 104, .runTask 0 104, .runTask 0 104, .runTask 0 104] ++ dispatchOne 105

/-- The calls of a second job that is submitted before the epoch, and reported to have failed while
it is queued. -/
def submittedEarly : List Label :=
  [.submitJob "job-1" (job 1 1) 1, .runTask 0 1, .submitJob "job-2" (job 1 1) (-1), .runTask 0 1,
    .reportJobStatus ⟨"node-1", "job-2", "failed"⟩ 2, .runTask 0 2, .runTask 0 2, .runTask 0 2,
    .registerNode "node-1" "secret-1" node 3, .runTask 0 3,
    .registerNode "node-2" "secret-2" node 3, .runTask 0 3] ++ dispatchOne 4 ++ dispatchOne 5

/-- The run of a list of calls, with the order of the submissions. -/
def ordered (ls : List Label) : List (Label × (Conf × SubmitOrder)) :=
  LTS.record Conf.orderAfter (.start .empty) ⟨[], []⟩
    (LTS.runOf (Conf.exec setup) (.start .empty) ls)

theorem run_ordered (ls : List Label) :
    ((Conf.fine setup).recorded Conf.orderAfter).Run (.start .empty, ⟨[], []⟩) (ordered ls) :=
  (LTS.run_runOf (Conf.exec setup) (.start .empty) ls).record Conf.orderAfter ⟨[], []⟩

end Sample

namespace Conf

/-- Both jobs are dispatched in the order of their appends. -/
theorem first_in_first_out_requeued :
    let s := LTS.last (start .empty, ⟨[], []⟩) (Sample.ordered Sample.requeued)
    s.2.appended = ["job-1", "job-2"] ∧ s.2.dispatched.length = 2 ∧
      s.2.dispatched <+: s.2.appended :=
  ⟨by decide +kernel, by decide +kernel,
    first_in_first_out ((Sample.run_ordered Sample.requeued).restrict
      (by decide +kernel)).reachable⟩

/-- A job that failed early, or was submitted before the epoch, is dispatched before the one that
was appended before it. -/
theorem first_in_fails :
    (¬ ∀ s, (((fine Sample.setup).recorded orderAfter).restrict fun _ l =>
        l.isRestart = false ∧ PastEpoch l).Reachable (start .empty, ⟨[], []⟩) s →
      s.2.dispatched.Sublist s.2.appended) ∧
    ¬ ∀ s, (((fine Sample.setup).recorded orderAfter).restrict fun s l =>
        l.isRestart = false ∧ s.1.ReportsAppended l).Reachable (start .empty, ⟨[], []⟩) s →
      s.2.dispatched.Sublist s.2.appended := by
  constructor
  · intro hall
    have hrun := Sample.run_ordered Sample.reportedEarly
    exact absurd (hall _ (hrun.restrict (by decide +kernel)).reachable) (by decide +kernel)
  · intro hall
    have hrun := Sample.run_ordered Sample.submittedEarly
    exact absurd (hall _ (hrun.restrict (by decide +kernel)).reachable) (by decide +kernel)

end Conf

end Dmlf
