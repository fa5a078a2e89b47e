import Dmlf.Manager.Lifecycle
import Dmlf.Cluster.Basic

/-!
# Terminal jobs

A job whose row is `COMPLETED` or `FAILED` should stay that way.  No writer of the status column
looks at the stored status, so this depends on the order of the calls:

* `World.terminal_absorbing` : terminal jobs are absorbing in the runs of the cluster in which no
  retry finds a terminal row, and a job is closed at most one way and when it has no entry left.
* `World.terminal_absorbing_fails` : a failure of one node after the completion of another one.
-/

namespace Dmlf

/-- The states of a job that is over. -/
def JobState.IsTerminal (s : JobState) : Prop := s = .completed ∨ s = .failed

instance : DecidablePred JobState.IsTerminal := fun s =>
  inferInstanceAs (Decidable (s = .completed ∨ s = .failed))

theorem JobState.isTerminal_iff {s : JobState} : s.IsTerminal ↔ ∃ o, s.phase = .closed o := by
  cases s <;> simp [IsTerminal, phase]

theorem JobState.phase_injective : Function.Injective JobState.phase := by
  intro s s' h
  cases s <;> cases s' <;> first | rfl | cases h

namespace Conf

variable {cfg : Setup} {c c' : Conf}

/-- A retry finds a row that is not terminal.  A write that closes a job finds the row in that
state already, or a row that is not terminal and a job without an entry. -/
def Allows (c : Conf) : Ledger.Act String Bool → Prop
  | .retry j _ => ∀ row ∈ c.mgr.registry.getJob j, ¬ row.status.IsTerminal
  | .close j o => ∀ row ∈ c.mgr.registry.getJob j,
      row.status.phase = .closed o ∨ ¬ row.status.IsTerminal ∧ c.entries j = 0
  | _ => True

instance (c : Conf) : (a : Ledger.Act String Bool) → Decidable (c.Allows a)
  | .retry j _ =>
    inferInstanceAs (Decidable (∀ row ∈ c.mgr.registry.getJob j, ¬ row.status.IsTerminal))
  | .close j o => inferInstanceAs (Decidable (∀ row ∈ c.mgr.registry.getJob j,
      row.status.phase = .closed o ∨ ¬ row.status.IsTerminal ∧ c.entries j = 0))
  | .submit _ _ | .use _ | .restart _ | .idle => .isTrue trivial

/-- The write of a call, if it makes one, respects terminal rows. -/
def KeepsTerminal (c : Conf) (l : Label) : Prop := c.Allows (c.act l)

instance (c : Conf) (l : Label) : Decidable (c.KeepsTerminal l) :=
  inferInstanceAs (Decidable (c.Allows (c.act l)))

theorem closed_iff {j : String} {o : Bool} : c.ledger.Closed j o ↔
    ∃ row, c.mgr.registry.getJob j = some row ∧ row.status.phase = .closed o := by
  constructor
  · rintro ⟨it, hit, hp⟩
    obtain ⟨row, hrow, rfl⟩ := item_ledger.1 hit
    exact ⟨row, hrow, hp⟩
  · rintro ⟨row, hrow, hp⟩
    exact ⟨row.item, item_ledger.2 ⟨row, hrow, rfl⟩, hp⟩

theorem respects_act {l : Label} (hen : c.ledger.Enabled (c.act l)) (h : c.KeepsTerminal l) :
    c.ledger.Respects (c.act l) := by
  have hopen : ∀ {j row}, c.mgr.registry.getJob j = some row → ¬ row.status.IsTerminal →
      ∀ o, ¬ c.ledger.Closed j o := by
    intro j row hrow hn o hc
    obtain ⟨row', hrow', hp⟩ := closed_iff.1 hc
    obtain rfl : row = row' := Option.some.inj (hrow.symm.trans hrow')
    exact hn (JobState.isTerminal_iff.2 ⟨o, hp⟩)
  unfold KeepsTerminal at h
  cases hact : c.act l with
  | retry j r =>
    rw [hact] at h hen
    obtain ⟨it, hit, -⟩ := hen
    obtain ⟨row, hrow, -⟩ := item_ledger.1 hit
    exact hopen hrow (h row hrow)
  | close j o =>
    rw [hact] at h hen
    obtain ⟨it, hit⟩ := hen
    obtain ⟨row, hrow, -⟩ := item_ledger.1 hit
    rcases h row hrow with hp | ⟨hn, hz⟩
    · exact .inl (closed_iff.2 ⟨row, hrow, hp⟩)
    · exact .inr ⟨hopen hrow hn, Multiset.count_eq_zero.1 hz⟩
  | _ => trivial

theorem settled_start (reg : Registry) : (start reg).ledger.Settled := by
  intro j o hc hmem
  obtain ⟨row, hrow, hp⟩ := closed_iff.1 hc
  have hqueued : j ∈ (recoverPendingJobs reg).map JobDict.jobId := by
    rcases Multiset.mem_add.1 hmem with h | h
    · exact Multiset.mem_coe.1 h
    · cases Multiset.notMem_zero _ h
  obtain rfl := Registry.jobId_of_getJob hrow
  have hpending := (mem_recoverPendingJobs (Table.mem_of_find? hrow)).1 hqueued
  rw [hpending] at hp
  cases hp

/-- What a run keeps of a job that is over: the row and the number of its dispatches. -/
structure Over (c : Conf) (j : String) (o : Bool) (n : ℕ) : Prop where
  wellFormed : c.WellFormed
  settled : c.ledger.Settled
  closed : c.ledger.Closed j o
  dispatches : dispatchesIn c.mgr.history j = n

theorem preserves_settled :
    ((fine cfg).restrict KeepsTerminal).Preserves fun c => c.WellFormed ∧ c.ledger.Settled := by
  rintro c l c' ⟨hG, hst⟩ ⟨hw, hS⟩
  obtain ⟨hw', hen, happ⟩ := simulates hw hst
  exact ⟨hw', happ ▸ Ledger.settled_step hS hen (respects_act hen hG)⟩

theorem preserves_over (j : String) (o : Bool) (n : ℕ) :
    ((fine cfg).restrict KeepsTerminal).Preserves fun c => c.Over j o n := by
  rintro c l c' ⟨hG, hst⟩ h
  obtain ⟨hw', hen, happ⟩ := simulates h.wellFormed hst
  have hS' := Ledger.settled_step h.settled hen (respects_act hen hG)
  obtain ⟨hc', hused⟩ := Ledger.closed_step h.settled hen (respects_act hen hG) h.closed
  exact ⟨hw', happ ▸ hS', happ ▸ hc',
    (congrArg (Ledger.used · j) happ).trans (hused.trans h.dispatches)⟩

end Conf

namespace World

variable {cfg : Setup} {reg : Registry} {w w' : World Conf}

variable (cfg) in
/-- The cluster call by call, where the manager's calls keep terminal rows. -/
def keepingTerminal : LTS (World Conf) Move :=
  (lts (.fine cfg)).restrict (LTS.Lift World.manager label Conf.KeepsTerminal)

/-- **Terminal job states are absorbing** in the runs of the cluster in which every retry finds a
row that is not terminal, and every closing write finds a row in that very state, or one that is
not terminal and whose job has no entry: from then on the job keeps its status and is not
dispatched. -/
theorem terminal_absorbing (h : (keepingTerminal cfg).Reachable (start (Conf.start reg)) w)
    (h' : (keepingTerminal cfg).Reachable w w') {row : JobRow}
    (hrow : w.manager.mgr.registry.getJob row.jobId = some row) (hterm : row.status.IsTerminal) :
    (∃ row', w'.manager.mgr.registry.getJob row.jobId = some row' ∧ row'.status = row.status) ∧
      dispatchesIn w'.manager.mgr.history row.jobId =
        dispatchesIn w.manager.mgr.history row.jobId := by
  have P := (projection (.fine cfg)).restrict Conf.KeepsTerminal
  -- up to `w` no terminal job has an entry; from there on the row and the count are kept
  obtain ⟨o, ho⟩ := JobState.isTerminal_iff.1 hterm
  obtain ⟨hw, hS⟩ := h.keeps (P.preserves Conf.preserves_settled)
    ⟨Conf.wellFormed_start reg, Conf.settled_start reg⟩
  have hover := h'.keeps (P.preserves (Conf.preserves_over row.jobId o _))
    ⟨hw, hS, Conf.closed_iff.2 ⟨row, hrow, ho⟩, rfl⟩
  obtain ⟨row', hrow', ho'⟩ := Conf.closed_iff.1 hover.closed
  exact ⟨⟨row', hrow', JobState.phase_injective (ho'.trans ho.symm)⟩, hover.dispatches⟩

/-- A job that both of its nodes complete. -/
theorem terminal_absorbing_of_completed : ∃ (w w' : World Conf) (row row' : JobRow),
    w.manager.mgr.registry.getJob "job-1" = some row ∧ row.status = .completed ∧
      w'.handled.length = 2 ∧
      w'.manager.mgr.registry.getJob row.jobId = some row' ∧ row'.status = .completed := by
  obtain ⟨w, hw, hp⟩ := LTS.exists_of_exec_restrict (exec (.fine Sample.setup))
    (LTS.Lift World.manager label Conf.KeepsTerminal) (start (Conf.start .empty))
    (Sample.launchTwo true ++ Sample.finish "node-1" 0 0 ++ [.deliverReport 0 110])
    (fun w =>
      (w.manager.mgr.registry.getJob "job-1").any (fun row => row.status = .completed) &&
      (LTS.exec (fun w mv =>
          if LTS.Lift World.manager label Conf.KeepsTerminal w mv then
            exec (.fine Sample.setup) w mv
          else none) w
        (Sample.calls true 1 110 ++ Sample.finish "node-2" 0 0 ++ [.deliverReport 0 111])).any
        fun w' => w'.handled.length = 2)
    (by decide +kernel)
  obtain ⟨hp, hp'⟩ := (Bool.and_eq_true _ _).mp hp
  obtain ⟨row, hrow, hs⟩ := (Option.any_eq_true _ _).1 hp
  obtain ⟨w', hw', hlen⟩ := LTS.exists_of_exec_restrict _ _ _ _ _ hp'
  have hs' : row.status = .completed := by simpa using hs
  obtain ⟨⟨row', hrow', heq⟩, -⟩ := terminal_absorbing hw hw'
    (Registry.jobId_of_getJob hrow ▸ hrow) (.inl hs')
  exact ⟨w, w', row, row', hrow, hs', by simpa using hlen, hrow', heq.trans hs'⟩

/-- One node completes its part of a job, then the other one fails: the job is `COMPLETED`, and
then `PENDING` again. -/
theorem terminal_absorbing_fails :
    ¬ ∀ (cfg : Setup) (reg : Registry) (w w' : World Conf),
      (lts (.fine cfg)).Reachable (start (Conf.start reg)) w → (lts (.fine cfg)).Reachable w w' →
      ∀ row, w.manager.mgr.registry.getJob row.jobId = some row → row.status.IsTerminal →
        (∃ row', w'.manager.mgr.registry.getJob row.jobId = some row' ∧
          row'.status = row.status) ∧
        dispatchesIn w'.manager.mgr.history row.jobId =
          dispatchesIn w.manager.mgr.history row.jobId := by
  intro hall
  obtain ⟨w, hw, hp⟩ := LTS.exists_of_exec (exec (.fine Sample.setup))
    (start (Conf.start .empty))
    (Sample.launchTwo true ++ Sample.finish "node-1" 0 0 ++ [.deliverReport 0 110])
    (fun w =>
      (w.manager.mgr.registry.getJob "job-1").any (fun row => row.status = .completed) &&
      (LTS.exec (exec (.fine Sample.setup)) w
        (Sample.calls true 1 110 ++ Sample.finish "node-2" 0 1 ++ [.deliverReport 0 111] ++
          Sample.calls true 2 111)).any
        fun w' => (w'.manager.mgr.registry.getJob "job-1").any fun row => row.status = .pending)
    (by decide +kernel)
  obtain ⟨hp, hp'⟩ := (Bool.and_eq_true _ _).mp hp
  obtain ⟨row, hrow, hs⟩ := (Option.any_eq_true _ _).1 hp
  obtain ⟨w', hw', hp''⟩ := LTS.exists_of_exec _ _ _ _ hp'
  obtain ⟨row', hrow', hs'⟩ := (Option.any_eq_true _ _).1 hp''
  have hc : row.status = .completed := by simpa using hs
  have hpend : row'.status = .pending := by simpa using hs'
  have hid := Registry.jobId_of_getJob hrow
  obtain ⟨⟨row'', hrow'', heq⟩, -⟩ := hall _ _ w w' hw hw' row (hid ▸ hrow) (.inl hc)
  obtain rfl : row' = row'' := Option.some.inj (hrow'.symm.trans (hid ▸ hrow''))
  rw [hc, hpend] at heq
  cases heq

end World

end Dmlf
