import Dmlf.Manager.Faults
import Dmlf.Manager.Lifecycle
import Dmlf.Manager.Outgoing
import Mathlib.Tactic.Abel

/-!
# Database errors anywhere

A registry call of a handler that raises ends the request; in the scheduler or in the monitor it
ends the thread, since neither loop catches anything.  `Dmlf.Manager.Faults` follows one error of
the scheduler.  Here any call of any thread may raise, at any time and again and again, until the
process is started anew.

* `FaultyManager.ledgerProjection` : errors do not show in the ledger, if the entries that they
  lose are counted as its tickets.
* `FaultyManager.accounted_reachable` : a process loses one entry at most, and no job is dispatched
  more often than its submission and its retries allow.
-/

namespace Dmlf

/-- The transactions of the next call of a task, each with the manager as it finds it.  One that
raises leaves the manager so. -/
def Task.attempts (now : Time) (m : Manager) : Task → List Manager
  | .retrySetIdle .. | .retryWrite _ | .failWrite _ | .monJobs _ | .monLoop _ [] => [m]
  -- `update_node_state`, and after a completion `get_job`
  | .closedSetIdle req =>
    m :: if req.isFailure then [] else [(m.updateNodeState req.nodeId .idle).decJobsRunning]
  | .monLoop offline (job :: _) => if job.lostNode offline then [m] else []
  -- `get_all_nodes`: mark the offline nodes, then read all of them
  | .monCount => [m, m.setRegistry (m.registry.markOfflineNodes now defaultTimeoutSeconds)]
  | t => t.transactions now m

/-- A manager process, with the threads that have not ended. -/
structure FaultyManager where
  conf : Conf
  schedulerAlive : Bool
  monitorAlive : Bool
  /-- Auxiliary: the entries that this process has lost. -/
  lost : Multiset String

/-- What happens to a process: a call, an error in transaction `k` of the call that task `i` makes
next, or an error in the first query of the monitor. -/
inductive FaultyLabel where
  | call (l : Label)
  | raise (i k : ℕ) (now : Time)
  | raiseMonitor

namespace FaultyManager

/-- A process that has just started. -/
def serve (registry : Registry) : FaultyManager := ⟨.start registry, true, true, 0⟩

variable (cfg : Setup) (p : FaultyManager)

/-- The thread that begins with the call has not ended. -/
def isAlive : Label → Bool
  | .schedulerPass _ => p.schedulerAlive
  | .monitorPass _ => p.monitorAlive
  | _ => true

/-- One call, or an error.  A restart comes with new threads, and takes the entries from the
database. -/
def exec : FaultyLabel → Option FaultyManager
  | .call .restart => (p.conf.exec cfg .restart).map fun conf => ⟨conf, true, true, 0⟩
  | .call l => if p.isAlive l then (p.conf.exec cfg l).map fun conf => { p with conf } else none
  | .raise i k now =>
    p.conf.tasks[i]?.bind fun task =>
      (task.attempts now p.conf.mgr)[k]?.map fun mgr =>
        { conf := ⟨mgr, p.conf.tasks.eraseIdx i⟩
          schedulerAlive := p.schedulerAlive && !task.isScheduler
          monitorAlive := p.monitorAlive && !task.isMonitor
          lost := p.lost + task.tickets }
  | .raiseMonitor =>
    if p.monitorAlive && !p.conf.tasks.any Task.isMonitor then some { p with monitorAlive := false }
    else none

/-- The process as a transition system. -/
def lts : LTS FaultyManager FaultyLabel := LTS.ofExec (exec cfg)

/-- The ledger, with the entries that have been lost. -/
def ledger : Ledger String Bool := p.conf.ledger.addTickets p.lost

/-- The action of the ledger that a step is; an error is none. -/
def act : FaultyLabel → Option (Ledger.Act String Bool)
  | .call l => some (p.conf.act l)
  | .raise .. | .raiseMonitor => none

/-- At most one entry is lost, by the scheduler, which has ended then. -/
structure Sound : Prop where
  wellFormed : p.conf.WellFormed
  oneScheduler : p.conf.OneScheduler
  ended : p.schedulerAlive = false → ∀ t ∈ p.conf.tasks, t.isScheduler = false
  alive : p.schedulerAlive = true → p.lost = 0
  one : p.lost.card ≤ 1

end FaultyManager

/-! ### Errors -/

namespace Task

variable {now : Time} {m m' : Manager} {t : Task}

/-- **What an error leaves of the manager**: jobs, queue and history are as before. -/
theorem keeps_attempts (h : m' ∈ t.attempts now m) : m'.registry.jobs = m.registry.jobs ∧
    m'.queue = m.queue ∧ m'.history = m.history := by
  have hself : ∀ m', m' ∈ [m] → m'.registry.jobs = m.registry.jobs ∧ m'.queue = m.queue ∧
      m'.history = m.history := by
    intro m' hm
    obtain rfl := List.mem_singleton.1 hm
    exact ⟨rfl, rfl, rfl⟩
  cases t with
  | retrySetIdle | retryWrite | failWrite | monJobs | schedReserve => exact hself m' h
  | closedSetIdle req =>
    simp only [attempts] at h
    split_ifs at h
    · exact hself m' h
    · rcases List.mem_pair.1 h with rfl | rfl <;> exact ⟨rfl, rfl, rfl⟩
  | monLoop offline jobs =>
    cases jobs with
    | nil => exact hself m' h
    | cons job jobs =>
      simp only [attempts] at h
      split_ifs at h
      · exact hself m' h
      · cases h
  | schedSelect | monCount => rcases List.mem_pair.1 h with rfl | rfl <;> exact ⟨rfl, rfl, rfl⟩
  | registerQueue | submitAppend | retryAppend | schedRequeue | schedSend | monAppend => cases h

theorem tickets_attempts (h : m' ∈ t.attempts now m) : t.isScheduler = true ∨ t.tickets = 0 := by
  cases t with
  | retrySetIdle | retryWrite | failWrite | monJobs | closedSetIdle | monLoop | monCount
    | registerQueue | schedSend => exact .inr rfl
  | schedSelect | schedReserve | schedRequeue => exact .inl rfl
  | submitAppend | retryAppend | monAppend => cases h

theorem card_tickets_le (t : Task) : t.tickets.card ≤ 1 := by
  cases t with
  | submitAppend | retryAppend | schedSelect | schedRequeue | schedReserve | monAppend =>
    exact (Multiset.card_singleton _).le
  | _ => exact Nat.zero_le 1

theorem act_ne_restart (t : Task) (us : Multiset String) : t.act ≠ .restart us := by
  intro h
  cases t with
  | monLoop offline jobs =>
    cases jobs with
    | nil => cases h
    | cons job jobs =>
      simp only [act] at h
      split_ifs at h
  | schedReserve job nodes todo => cases todo <;> cases h
  | _ => cases h

end Task

theorem Conf.eq_restart_of_act (c : Conf) {l : Label} {us : Multiset String}
    (h : c.act l = .restart us) : l = .restart := by
  cases l with
  | restart => rfl
  | runTask i now =>
    simp only [act] at h
    split at h
    · cases h
    · exact absurd h (Task.act_ne_restart _ us)
  | reportJobStatus req now =>
    simp only [act] at h
    split_ifs at h
  | _ => cases h

namespace FaultyManager

variable {cfg : Setup} {p p' : FaultyManager} {i k : ℕ} {now : Time}

/-- What a step can do. -/
inductive Effect (cfg : Setup) (p : FaultyManager) : FaultyLabel → FaultyManager → Prop
  | restart {c : Conf} : p.conf.exec cfg .restart = some c →
      Effect cfg p (.call .restart) ⟨c, true, true, 0⟩
  | call {l : Label} {c : Conf} : l ≠ .restart → p.isAlive l = true → p.conf.exec cfg l = some c →
      Effect cfg p (.call l) { p with conf := c }
  | raise {i k : ℕ} {now : Time} {t : Task} {m : Manager} : p.conf.tasks[i]? = some t →
      m ∈ t.attempts now p.conf.mgr → Effect cfg p (.raise i k now)
        ⟨⟨m, p.conf.tasks.eraseIdx i⟩, p.schedulerAlive && !t.isScheduler,
          p.monitorAlive && !t.isMonitor, p.lost + t.tickets⟩
  | raiseMonitor : Effect cfg p .raiseMonitor { p with monitorAlive := false }

theorem effect {l : FaultyLabel} (hst : (lts cfg).step p l p') : Effect cfg p l p' := by
  have hst : p.exec cfg l = some p' := hst
  cases l with
  | call l =>
    by_cases hl : l = .restart
    · subst hl
      have hst : (p.conf.exec cfg .restart).map
        (fun conf => (⟨conf, true, true, 0⟩ : FaultyManager)) = some p' := hst
      obtain ⟨c, hc, rfl⟩ := Option.map_eq_some_iff.1 hst
      exact .restart hc
    · have hcall : (if p.isAlive l then (p.conf.exec cfg l).map fun conf => { p with conf }
          else none) = some p' := by
        rw [← hst]
        cases l with
        | restart => exact absurd rfl hl
        | _ => rfl
      obtain ⟨halive, hmap⟩ := Option.ite_none_right_eq_some.1 hcall
      obtain ⟨c, hc, rfl⟩ := Option.map_eq_some_iff.1 hmap
      exact .call hl halive hc
  | raise i k now =>
    obtain ⟨t, ht, hst⟩ := Option.bind_eq_some_iff.1 hst
    obtain ⟨m, hm, rfl⟩ := Option.map_eq_some_iff.1 hst
    exact .raise ht (List.mem_of_getElem? hm)
  | raiseMonitor =>
    obtain ⟨-, heq⟩ := Option.ite_none_right_eq_some.1 hst
    obtain rfl := Option.some.inj heq
    exact .raiseMonitor

theorem isScheduler_of_mem {c c' : Conf} {l : Label} (hst : c.exec cfg l = some c')
    (hl : ∀ now, l ≠ .schedulerPass now) (h : ∀ t ∈ c.tasks, t.isScheduler = false) :
    ∀ t ∈ c'.tasks, t.isScheduler = false := by
  intro t ht
  have hafter := Conf.taskAfter hst ht
  generalize c'.mgr = m at hafter
  cases hafter with
  | kept ht => exact h t ht
  | begun hb =>
    cases hb with
    | popJob => exact absurd rfl (hl _)
    | registerNode | reportRetry | reportFail | reportCompleted | submitJob | noneOffline
      | someOffline => rfl
  | next hi _ hnext =>
    rw [Task.isScheduler_step hnext]
    exact h _ (List.mem_of_getElem? hi)

theorem Sound.raise (h : p.Sound) {t : Task} {m : Manager} (hi : p.conf.tasks[i]? = some t)
    (hm : m ∈ t.attempts now p.conf.mgr) :
    Sound ⟨⟨m, p.conf.tasks.eraseIdx i⟩, p.schedulerAlive && !t.isScheduler,
      p.monitorAlive && !t.isMonitor, p.lost + t.tickets⟩ := by
  obtain ⟨hjobs, hqueue, -⟩ := Task.keeps_attempts hm
  have hext : p.conf.mgr.registry.Extends m.registry := .of_jobs_eq hjobs
  have hold : ∀ t' ∈ p.conf.tasks.eraseIdx i, t' ∈ p.conf.tasks := fun t' ht' =>
    List.mem_of_mem_eraseIdx ht'
  have hcount := Conf.countP_eraseIdx Task.isScheduler p.conf hi
  have hone := h.oneScheduler
  refine ⟨⟨fun t' ht' => (h.wellFormed.tasks t' (hold t' ht')).mono hext, ?_⟩, ?_, ?_, ?_, ?_⟩
  · intro e he
    rw [hqueue] at he
    exact (h.wellFormed.queue e he).mono hext
  · unfold Conf.OneScheduler at hone ⊢
    dsimp only
    omega
  · intro hended
    cases hsched : t.isScheduler with
    | true => exact Conf.others_of_countP_le hone hi hsched
    | false =>
      rw [hsched, Bool.not_false, Bool.and_true] at hended
      exact fun t' ht' => h.ended hended t' (hold t' ht')
  · intro halive
    obtain ⟨halive, hsched⟩ := Bool.and_eq_true_iff.1 halive
    have hnot : t.isScheduler ≠ true := by simpa using hsched
    rw [h.alive halive, (Task.tickets_attempts hm).resolve_left hnot, add_zero]
  · rcases Task.tickets_attempts hm with hsched | hzero
    · -- the scheduler has been alive so far
      have halive : p.schedulerAlive = true := by
        by_contra hended
        have hno := h.ended (Bool.eq_false_iff.2 hended) t (List.mem_of_getElem? hi)
        rw [hsched] at hno
        cases hno
      rw [h.alive halive, zero_add]
      exact t.card_tickets_le
    · rw [hzero, add_zero]
      exact h.one

theorem preserves_sound : (lts cfg).Preserves Sound := by
  intro p l p' hst h
  cases effect hst with
  | restart hc =>
    obtain rfl := Option.some.inj hc
    exact ⟨h.wellFormed.step hc, Nat.zero_le 1, fun _ _ ht => absurd ht List.not_mem_nil,
      fun _ => rfl, Nat.zero_le 1⟩
  | @call l c hl halive hc =>
    refine ⟨h.wellFormed.step hc, Conf.oneScheduler_step h.oneScheduler hc, fun hended => ?_,
      h.alive, h.one⟩
    refine isScheduler_of_mem hc (fun now heq => ?_) (h.ended hended)
    subst heq
    cases hended.symm.trans halive
  | raise hi hm => exact h.raise hi hm
  | raiseMonitor => exact ⟨h.wellFormed, h.oneScheduler, h.ended, h.alive, h.one⟩

/-- **Errors do not show in the ledger.** -/
theorem ledgerProjection : LTS.Projection ((lts cfg).restrict fun p _ => p.Sound) Ledger.lts
    ledger act where
  quiet := by
    intro p l p' hst hl
    cases effect hst.2 with
    | restart | call => cases hl
    | @raise i k now t m hi hm =>
      obtain ⟨hjobs, hqueue, hhistory⟩ := Task.keeps_attempts hm
      obtain ⟨rest, hhands, hhands'⟩ := Conf.hands_resume p.conf hi (m, none)
      have hrest : (⟨m, p.conf.tasks.eraseIdx i⟩ : Conf).hands = rest := by
        simpa [Conf.resume, Task.ticketsOf] using hhands'
      have hsame := Manager.ledger_eq_of_same (H := p.conf.hands) hjobs hqueue hhistory
      -- the entry of the task is among the lost ones now
      refine Ledger.ext (fun j => congrFun (congrArg Ledger.item hsame) j) ?_
        (fun j => congrFun (congrArg Ledger.retried hsame) j)
        fun j => congrFun (congrArg Ledger.used hsame) j
      simp only [ledger, Ledger.addTickets, Conf.ledger, Manager.ledger, hqueue, hhands, hrest]
      abel
    | raiseMonitor => rfl
  step := by
    rintro p l p' a ⟨hsound, hst⟩ hl
    cases effect hst with
    | restart hc =>
      obtain rfl := Option.some.inj hl
      obtain ⟨-, hen, happ⟩ := Conf.simulates hsound.wellFormed hc
      refine ⟨Ledger.enabled_addTickets hen p.lost, ?_⟩
      have hzero : ∀ c : Conf, c.ledger.addTickets 0 = c.ledger := fun c =>
        Ledger.ext (fun _ => rfl) (add_zero _) (fun _ => rfl) fun _ => rfl
      rw [ledger, hzero, happ]
      rfl
    | @call l c hne halive hc =>
      obtain rfl := Option.some.inj hl
      obtain ⟨-, hen, happ⟩ := Conf.simulates hsound.wellFormed hc
      refine ⟨Ledger.enabled_addTickets hen p.lost, ?_⟩
      rw [ledger, ledger, happ, Ledger.apply_addTickets hen fun us heq =>
        hne (p.conf.eq_restart_of_act heq)]
    | raise | raiseMonitor => cases hl

theorem sound_serve : (serve .empty).Sound where
  wellFormed := Conf.wellFormed_start .empty
  oneScheduler := Nat.zero_le 1
  ended := by rintro ⟨⟩
  alive := fun _ => rfl
  one := Nat.zero_le 1

theorem inv_reachable (h : (lts cfg).Reachable (serve .empty) p) : p.Sound ∧ p.ledger.Inv := by
  have hstart : (serve .empty).ledger = .empty :=
    Ledger.ext (fun _ => rfl) rfl (fun _ => rfl) fun _ => rfl
  refine h.keeps (I := fun p => p.Sound ∧ p.ledger.Inv) (fun p l p' hst ⟨hsound, hinv⟩ => ?_)
    ⟨sound_serve, hstart ▸ Ledger.inv_empty⟩
  refine ⟨preserves_sound hst hsound, ledgerProjection.preserves ?_ ⟨hsound, hst⟩ hinv⟩
  rintro L a _ ⟨hen, rfl⟩ hL
  exact Ledger.inv_step hL hen

/-- What a process with errors has lost, and what it has not. -/
structure Accounted (p : FaultyManager) : Prop where
  /-- A job that is pending has an entry, or is the one that the process has lost. -/
  kept : ∀ row ∈ p.conf.mgr.registry.getJobs .pending,
    0 < p.conf.entries row.jobId ∨ row.jobId ∈ p.lost
  one : p.lost.card ≤ 1
  ended : p.lost ≠ 0 → p.schedulerAlive = false
  /-- Each dispatch of a job, its entries and its lost ones are for its submission or a retry. -/
  budget : ∀ j, dispatchesIn p.conf.mgr.history j + p.conf.entries j + p.lost.count j ≤
    1 + retriesIn p.conf.mgr.history j
  bound : ∀ row ∈ p.conf.mgr.registry.jobs.rows, row.retries ≤ max 0 row.maxRetries

/-- **Errors lose work, but they repeat none.**  Any registry calls of the handlers, the scheduler
and the monitor may raise, in any run and however often the process is started anew.  Still every
pending job has an entry, but for one at most, which the scheduler has taken along when it ended; no
job is dispatched more often than its submission and its retries allow; and these stay within their
limit. -/
theorem accounted_reachable (h : (lts cfg).Reachable (serve .empty) p) : p.Accounted := by
  obtain ⟨hsound, hinv⟩ := inv_reachable h
  refine ⟨fun row hrow => ?_, hsound.one, fun hlost => ?_, fun j => ?_, fun row hrow => ?_⟩
  · obtain ⟨hget, hpending⟩ := Registry.mem_getJobs.1 hrow
    have hwaiting : p.ledger.Waiting row.jobId :=
      (Manager.waiting_iff (H := p.conf.hands)).2 ⟨row, hget, hpending⟩
    exact (Multiset.mem_add.1 (hinv.kept _ hwaiting)).imp_left Multiset.count_pos.2
  · by_contra halive
    exact hlost (hsound.alive (Bool.eq_true_of_not_eq_false halive))
  · have hbudget := hinv.budget j
    have htickets : p.ledger.tickets.count j = p.conf.entries j + p.lost.count j :=
      Multiset.count_add j _ _
    have hused : p.ledger.used j = dispatchesIn p.conf.mgr.history j := rfl
    have hretried : p.ledger.retried j = retriesIn p.conf.mgr.history j := rfl
    rw [htickets, hused, hretried] at hbudget
    split_ifs at hbudget <;> omega
  · exact hinv.bound row.jobId row.item (Conf.item_ledger.2 ⟨row, Table.find?_of_mem hrow, rfl⟩)

end FaultyManager

namespace Sample

/-- A node joins, and the database is locked when a report is handled, when the monitor begins, and
when the scheduler reserves the node for the retry. -/
def lockedThrice : List FaultyLabel :=
  [.registerNode "node-1" "secret-1" node 100, .runTask 0 100, .submitJob "job-1" (job 1 1) 101,
      .runTask 0 101].map .call ++ (dispatchOne 102).map .call ++
    [.call (.reportJobStatus ⟨"node-1", "job-1", "failed"⟩ 103), .raise 0 0 103, .raiseMonitor] ++
    [.reportJobStatus ⟨"node-1", "job-1", "failed"⟩ 104, .runTask 0 104, .runTask 0 104,
      .runTask 0 104, .schedulerPass 105, .runTask 0 105].map .call ++ [.raise 0 0 105]

end Sample

namespace FaultyManager

/-- The only job is pending again, and the process has lost its entry. -/
theorem accounted_lockedThrice : ∃ p, (lts Sample.setup).Reachable (serve .empty) p ∧
    ((p.conf.mgr.registry.getJobs .pending).map JobRow.jobId = ["job-1"] ∧
      p.conf.entries "job-1" = 0 ∧ dispatchesIn p.conf.mgr.history "job-1" = 1) ∧
    p.Accounted := by
  obtain ⟨p, hreach, hp⟩ := LTS.exists_of_exec (exec Sample.setup) (serve .empty)
    Sample.lockedThrice
    (fun p => decide ((p.conf.mgr.registry.getJobs .pending).map JobRow.jobId = ["job-1"] ∧
      p.conf.entries "job-1" = 0 ∧ dispatchesIn p.conf.mgr.history "job-1" = 1))
    (by decide +kernel)
  exact ⟨p, hreach, of_decide_eq_true hp, accounted_reachable hreach⟩

end FaultyManager

end Dmlf
