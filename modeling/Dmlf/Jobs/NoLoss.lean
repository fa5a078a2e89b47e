import Dmlf.Manager.Lifecycle

/-!
# No accepted job is lost

The row of a job and its queue entry are written in separate calls by several threads, and a
restart throws the entries away.  Wherever the calls interleave and the manager is killed, the
entry of a pending job is in the queue or in the hands of the call that is about to use it:

* `Conf.pending_accounted` : in every reachable configuration, from any database, a pending job
  is queued, held by the scheduler pass, or about to be appended.
-/

namespace Dmlf

namespace Task

/-- The scheduler pass has popped job `j`, and has neither put it back nor set it `RUNNING`. -/
def Holds (j : String) (t : Task) : Prop := t.isScheduler = true ∧ j ∈ t.tickets

/-- A `submit_job` or `retry_job` call has written the row of job `j` and is about to append it. -/
def Appends (j : String) : Task → Prop
  | .submitAppend job | .retryAppend job | .monAppend _ _ job => job.jobId = j
  | _ => False

theorem holds_or_appends {j : String} {t : Task} (h : j ∈ t.tickets) : t.Holds j ∨ t.Appends j := by
  cases t
  case submitAppend | retryAppend | monAppend => exact .inr (Multiset.mem_singleton.1 h).symm
  case schedSelect | schedRequeue | schedReserve => exact .inl ⟨rfl, h⟩
  all_goals cases Multiset.notMem_zero _ h

end Task

namespace Conf

variable {cfg : Setup} {c c' : Conf} {reg : Registry}

/-- Where the entry of job `j` may be: in the queue, with the scheduler, or with the call that
has just written the row. -/
def Accounted (c : Conf) (j : String) : Prop :=
  (∃ e ∈ c.mgr.queue, e.jobId = j) ∨ (∃ t ∈ c.tasks, t.Holds j) ∨ ∃ t ∈ c.tasks, t.Appends j

theorem mem_hands {j : String} : j ∈ c.hands ↔ ∃ t ∈ c.tasks, j ∈ t.tickets := by
  unfold hands
  induction c.tasks with
  | nil => simp
  | cons t ts ih => simp [ih]

theorem accounted_of_mem_tickets {j : String} (h : j ∈ c.ledger.tickets) : c.Accounted j := by
  rcases Multiset.mem_add.1 h with h | h
  · exact .inl (List.mem_map.1 (Multiset.mem_coe.1 h))
  · obtain ⟨t, ht, hj⟩ := mem_hands.1 h
    rcases Task.holds_or_appends hj with hh | ha
    · exact .inr (.inl ⟨t, ht, hh⟩)
    · exact .inr (.inr ⟨t, ht, ha⟩)

theorem kept_start (reg : Registry) : (start reg).ledger.Kept := by
  -- a start is a restart: the database may hold pending jobs of an earlier process
  obtain ⟨happ, hen⟩ := Manager.ledger_restart (m := .serve reg []) (H := 0)
  intro j hj
  have hl : (start reg).ledger =
      ((Manager.serve reg []).ledger 0).apply (.restart (Manager.serve reg []).pendingIds) := happ
  rw [hl]
  exact (hen.2 j).2 hj

theorem preserves_kept : (fine cfg).Preserves fun c => c.WellFormed ∧ c.ledger.Kept := by
  rintro c l c' hst ⟨hw, hk⟩
  obtain ⟨hw', hen, happ⟩ := simulates hw hst
  exact ⟨hw', happ ▸ Ledger.kept_step hk hen⟩

theorem kept_reachable (h : (fine cfg).Reachable (start reg) c) :
    c.WellFormed ∧ c.ledger.Kept :=
  h.keeps preserves_kept ⟨wellFormed_start reg, kept_start reg⟩

/-- **No accepted job is lost.**  In every configuration that the manager reaches from any
database, by any interleaving of calls and any restarts, a job whose row is `PENDING` is in the
queue, held by the scheduler pass, or about to be appended by the call that wrote the row. -/
theorem pending_accounted (h : (fine cfg).Reachable (start reg) c) {row : JobRow}
    (hrow : c.mgr.registry.getJob row.jobId = some row) (hp : row.status = .pending) :
    c.Accounted row.jobId :=
  accounted_of_mem_tickets ((kept_reachable h).2 _ (Manager.waiting_iff.2 ⟨row, hrow, hp⟩))

/-- A job whose row has been inserted, between `insert_job` and the append. -/
theorem pending_accounted_of_insert : ∃ (c : Conf) (row : JobRow),
    c.mgr.registry.getJob row.jobId = some row ∧ row.status = .pending ∧
      c.Accounted row.jobId := by
  obtain ⟨c, hc, hp⟩ := LTS.exists_of_exec (exec Sample.setup) (start .empty)
    [.submitJob "job-1" (Sample.job 2 3) 100]
    (fun c => (c.mgr.registry.getJob "job-1").any fun row => row.status = .pending)
    (by decide +kernel)
  obtain ⟨row, hrow, hs⟩ := (Option.any_eq_true _ _).1 hp
  have hid : c.mgr.registry.getJob row.jobId = some row := Registry.jobId_of_getJob hrow ▸ hrow
  have hs' : row.status = .pending := by simpa using hs
  exact ⟨c, row, hid, hs', pending_accounted hc hid hs'⟩

end Conf

end Dmlf
