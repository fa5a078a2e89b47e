import Dmlf.Jobs.Migration
import Dmlf.Manager.Outgoing
import Mathlib.Data.Prod.Lex

/-!
# Draining the queue

The scheduler serves one job at a time, and puts it back to the front of the queue if there are too
few nodes for it.  A job may ask for any number of nodes, also a negative one, and nodes may always
join.  So no job holds up the others for good, unless it asks for exactly zero nodes.

* `Conf.Serves` : the calls by which nodes join and the manager goes on with the jobs that wait.
* `Conf.distance` : how far these jobs are from being dispatched.
* `Conf.drained_or_never` : all of them can be dispatched, or one of them never will be.
-/

namespace Dmlf

namespace Task

/-- What is left to do for the entry of a task until its job is dispatched, where an entry in the
queue counts as five. -/
def stage : Task → ℕ
  | .submitAppend _ | .retryAppend _ | .monAppend .. | .schedRequeue _ => 6
  | .schedSelect _ => 4
  | .schedReserve .. => 3
  | .schedSend .. => 1
  | _ => 0

/-- The nodes that the scheduler still has to go through. -/
def nodesLeft : Task → ℕ
  | .schedReserve _ _ todo => todo.length
  | .schedSend _ _ todo => todo.length
  | _ => 0

variable {cfg : Setup} {now : Time} {m : Manager} {t : Task}

theorem stage_pos_of_isScheduler (h : t.isScheduler = true) : 0 < t.stage := by
  cases t with
  | schedSelect | schedRequeue | schedReserve | schedSend => exact Nat.zero_lt_succ _
  | _ => cases h

theorem tickets_of_stage (h : t.stage = 0) : t.tickets = 0 := by
  cases t with
  | submitAppend | retryAppend | monAppend | schedRequeue | schedSelect | schedReserve => cases h
  | _ => rfl

theorem act_of_stage (h : 0 < t.stage) : t.act = .idle ∨ ∃ j, t.act = .use j := by
  cases t with
  | schedReserve job nodes todo =>
    cases todo with
    | nil => exact .inr ⟨job.jobId, rfl⟩
    | cons node todo => exact .inl rfl
  | submitAppend | retryAppend | monAppend | schedRequeue | schedSelect | schedSend =>
    exact .inl rfl
  | _ => cases h

/-- The selection finds nodes, if the next call is one. -/
def FindsNodes (cfg : Setup) (now : Time) (m : Manager) (t : Task) : Prop :=
  ∀ job, t = .schedSelect job →
    allocate cfg.scoreNode (m.registry.getAvailableNodes now).2 job.requiredNodes ≠ []

/-- **The next call for an entry** brings it nearer to its dispatch. -/
theorem nearer_step (h : 0 < t.stage) (hfinds : t.FindsNodes cfg now m) :
    let next := t.step cfg now m
    let later := 5 * next.1.queue.length + (next.2.toList.map stage).sum
    later < 5 * m.queue.length + t.stage ∨ later = 5 * m.queue.length + t.stage ∧
      (next.2.toList.map nodesLeft).sum < t.nodesLeft := by
  have hlen : ∀ queue job, (appendSorted queue job).length = queue.length + 1 := fun queue job =>
    (perm_appendSorted queue job).length_eq
  dsimp only
  rw [queue_step]
  cases t with
  | submitAppend | retryAppend =>
    refine .inl ?_
    simp only [queueAfter, hlen, step, stage, Option.toList_none, List.map_nil, List.sum_nil]
    omega
  | monAppend =>
    refine .inl ?_
    simp only [queueAfter, hlen, step, stage, Option.toList_some, List.map_cons, List.map_nil,
      List.sum_cons, List.sum_nil]
    omega
  | schedRequeue =>
    refine .inl ?_
    simp only [queueAfter, List.length_cons, step, stage, Option.toList_none, List.map_nil,
      List.sum_nil]
    omega
  | schedSelect job =>
    refine .inl ?_
    have hsome := hfinds job rfl
    simp [queueAfter, step, stage, List.isEmpty_iff, hsome]
  | schedReserve job nodes todo =>
    cases todo with
    | nil => exact .inl (by simp [queueAfter, step, stage])
    | cons node todo => exact .inr (by simp [queueAfter, step, stage, nodesLeft])
  | schedSend job masterAddr todo =>
    cases todo with
    | nil => exact .inl (by simp [queueAfter, step, stage])
    | cons x todo => exact .inr (by simp [queueAfter, step, stage, nodesLeft])
  | _ => cases h

end Task

namespace Conf

variable {cfg : Setup} {c c' : Conf} {l : Label} {now : Time}

/-- Nodes join, and the scheduler and the handlers go on with the jobs that wait. -/
def Serves (c : Conf) : Label → Prop
  | .registerNode .. | .schedulerPass _ => True
  | .runTask i _ => ∀ t ∈ c.tasks[i]?, 0 < t.stage
  | _ => False

/-- How far the entries are from their dispatches: by the stages of their tasks, and then by the
nodes that are left. -/
def distance (c : Conf) : ℕ ×ₗ ℕ :=
  toLex (5 * c.mgr.queue.length + (c.tasks.map Task.stage).sum, (c.tasks.map Task.nodesLeft).sum)

/-- A job that waits asks for nodes. -/
def WaitForNodes (c : Conf) : Prop :=
  ∀ row ∈ c.mgr.registry.jobs.rows, row.jobId ∈ c.ledger.tickets → row.requiredNodes ≠ 0

/-- What the run that serves the jobs keeps. -/
structure Servable (c₀ c : Conf) : Prop where
  wellFormed : c.WellFormed
  oneScheduler : c.OneScheduler
  specsAgree : c.SpecsAgree
  waitForNodes : c.WaitForNodes
  /-- An entry that is gone has been dispatched. -/
  dispatched : ∀ j, dispatchesIn c.mgr.history j + c.entries j =
    dispatchesIn c₀.mgr.history j + c₀.entries j

theorem act_of_serves (hl : c.Serves l) : c.act l = .idle ∨ ∃ j, c.act l = .use j := by
  cases l with
  | registerNode | schedulerPass => exact .inl rfl
  | runTask i now =>
    cases hi : c.tasks[i]? with
    | none => exact .inl (by rw [act, hi])
    | some t =>
      have hact : c.act (.runTask i now) = t.act := by rw [act, hi]
      exact hact ▸ Task.act_of_stage (hl t hi)
  | _ => exact hl.elim

theorem WaitForNodes.step (h : c.WaitForNodes) (hl : c.Serves l) (hst : exec cfg c l = some c')
    (hsub : c'.ledger.tickets ⊆ c.ledger.tickets) : c'.WaitForNodes := by
  have hsubmit : ∀ j req now, l ≠ .submitJob j req now := by rintro j req now rfl; exact hl
  have hrows := (jobsUpdate hst hsubmit).map_rows JobRow.fixed_required
  intro row hrow hticket
  have hmem := List.mem_map_of_mem (f := fun row : JobRow => (row.jobId, row.requiredNodes)) hrow
  rw [hrows] at hmem
  obtain ⟨old, hold, heq⟩ := List.mem_map.1 hmem
  obtain ⟨hid, hrequired⟩ := Prod.mk.inj heq
  exact hrequired ▸ h old hold (hid ▸ hsub hticket)

/-- **Such a call keeps the jobs servable.** -/
theorem Servable.step {c₀ : Conf} (h : Servable c₀ c) (hl : c.Serves l)
    (hst : exec cfg c l = some c') : Servable c₀ c' := by
  obtain ⟨hwf, hen, happ⟩ := simulates h.wellFormed hst
  refine ⟨hwf, oneScheduler_step h.oneScheduler hst, preserves_specsAgree hst h.specsAgree,
    h.waitForNodes.step hl hst ?_, fun j => ?_⟩
  · rw [happ]
    rcases act_of_serves hl with hact | ⟨j, hact⟩ <;> rw [hact]
    · exact Multiset.Subset.refl _
    · exact Multiset.erase_subset j _
  · rw [← h.dispatched j]
    have hused : ∀ c : Conf, dispatchesIn c.mgr.history j = c.ledger.used j := fun _ => rfl
    rw [hused, hused, entries, entries, happ]
    rcases act_of_serves hl with hact | ⟨j', hact⟩
    · rw [hact]
      rfl
    · rw [hact] at hen ⊢
      have hpos := Multiset.count_pos.2 hen.2
      by_cases hj : j = j'
      · subst hj
        simp only [Ledger.apply, if_true, Multiset.count_erase_self]
        omega
      · simp only [Ledger.apply, if_neg hj, Multiset.count_erase_of_ne hj, add_zero]

/-! ### Coming nearer -/

/-- The call of a task that brings its entry nearer to its dispatch. -/
theorem distance_runTask {i : ℕ} {t : Task} (hi : c.tasks[i]? = some t) (ht : 0 < t.stage)
    (hfinds : t.FindsNodes cfg now c.mgr) :
    (c.resume i (t.step cfg now c.mgr)).distance < c.distance := by
  obtain ⟨stages, hstages, hstages'⟩ := sum_resume Task.stage c hi (t.step cfg now c.mgr)
  obtain ⟨left, hleft, hleft'⟩ := sum_resume Task.nodesLeft c hi (t.step cfg now c.mgr)
  have hqueue : (c.resume i (t.step cfg now c.mgr)).mgr.queue =
      (t.step cfg now c.mgr).1.queue := rfl
  rw [distance, distance, Prod.Lex.toLex_lt_toLex, hqueue, hstages, hstages', hleft, hleft']
  have hnearer := Task.nearer_step ht hfinds
  dsimp only at hnearer
  omega

theorem serves_runTask (cfg : Setup) (now : Time) {i : ℕ} {t : Task} (hi : c.tasks[i]? = some t)
    (ht : 0 < t.stage) : c.Serves (.runTask i now) ∧
      exec cfg c (.runTask i now) = some (c.resume i (t.step cfg now c.mgr)) := by
  constructor
  · intro t' ht'
    exact Option.some.inj (hi.symm.trans ht') ▸ ht
  · simp only [exec, hi]

/-- **Nodes may join**, as many as are needed, and nothing else happens. -/
theorem exists_joined (cfg : Setup) {c₀ : Conf} (h : Servable c₀ c) (k : ℕ) : ∃ c',
    ((fine cfg).restrict Serves).Reachable c c' ∧ Servable c₀ c' ∧ c'.distance = c.distance ∧
      (∃ rest, c'.tasks = c.tasks ++ rest) ∧ k ≤ (c'.mgr.registry.freshNodes 0).length := by
  induction k with
  | zero => exact ⟨c, .start, h, rfl, ⟨[], (List.append_nil _).symm⟩, Nat.zero_le _⟩
  | succ k ih =>
    obtain ⟨c', hreach, hc', hdist, ⟨rest, htasks⟩, hk⟩ := ih
    obtain ⟨n, hn⟩ := Infinite.exists_notMem_finset
      (c'.mgr.registry.nodes.rows.map NodeRow.nodeId).toFinset
    rw [List.mem_toFinset] at hn
    have hnew : (c'.mgr.registry.getNode n).isNone := by
      rw [Option.isNone_iff_eq_none]
      exact Table.find?_eq_none_iff.2 hn
    let l : Label := .registerNode n "" Sample.node 0
    let c'' := c'.spawn (c'.mgr.insertNode n "" Sample.node 0, some (.registerQueue n))
    have hl : c'.Serves l := trivial
    have hst : exec cfg c' l = some c'' := if_pos hnew
    have hqueue : c''.mgr.queue = c'.mgr.queue := rfl
    refine ⟨c'', hreach.next l ⟨hl, hst⟩, hc'.step hl hst, ?_, ⟨rest ++ [.registerQueue n], ?_⟩, ?_⟩
    · rw [← hdist, distance, distance, hqueue]
      simp [c'', spawn, Task.stage, Task.nodesLeft]
    · simp [c'', spawn, htasks]
    · exact (Nat.succ_le_succ hk).trans_eq (Registry.freshNodes_registerNode hn ..).symm

theorem Servable.required_ne_zero {c₀ : Conf} (h : Servable c₀ c) {job : JobDict}
    (hmem : .schedSelect job ∈ c.tasks) : job.requiredNodes ≠ 0 := by
  have hdict : job ∈ c.dicts := List.mem_append_right _
    (List.mem_flatMap.2 ⟨_, hmem, List.mem_singleton_self job⟩)
  obtain ⟨row, hrow, hspec⟩ := h.specsAgree.dicts job hdict
  have hticket : job.jobId ∈ c.ledger.tickets := by
    obtain ⟨i, hi⟩ := List.mem_iff_getElem?.1 hmem
    obtain ⟨others, hhands, -⟩ := hands_resume c hi (c.mgr, none)
    refine Multiset.mem_add.2 (.inr ?_)
    rw [hhands]
    exact Multiset.mem_add.2 (.inl (Multiset.mem_singleton_self _))
  have hid := Registry.jobId_of_getJob hrow
  have hne := h.waitForNodes row (Table.mem_of_find? hrow) (hid.symm ▸ hticket)
  rwa [show row.requiredNodes = job.requiredNodes from congrArg JobSpec.nnodes hspec] at hne

/-- **The jobs that wait can be brought nearer to their dispatches.** -/
theorem Servable.nearer {c₀ : Conf} (h : Servable c₀ c)
    (hwait : 5 * c.mgr.queue.length + (c.tasks.map Task.stage).sum ≠ 0) : ∃ c',
    ((fine cfg).restrict Serves).Reachable c c' ∧ Servable c₀ c' ∧ c'.distance < c.distance := by
  by_cases hbusy : ∃ t ∈ c.tasks, 0 < t.stage
  · obtain ⟨t, hmem, ht⟩ := hbusy
    obtain ⟨i, hi⟩ := List.mem_iff_getElem?.1 hmem
    by_cases hselect : ∃ job, t = .schedSelect job
    · -- enough nodes join before the scheduler selects some of them
      obtain ⟨job, rfl⟩ := hselect
      obtain ⟨c₁, hreach, hc₁, hdist, ⟨rest, htasks⟩, henough⟩ :=
        exists_joined cfg h (job.requiredNodes.natAbs + 1)
      have hi₁ : c₁.tasks[i]? = some (.schedSelect job) := by
        rw [htasks, List.getElem?_append_left (List.getElem?_eq_some_iff.1 hi).1, hi]
      have hfinds : (Task.schedSelect job).FindsNodes cfg 0 c₁.mgr := by
        rintro _ ⟨⟩
        rw [Manager.getAvailableNodes_eq]
        exact allocate_ne_nil _ (h.required_ne_zero hmem) henough
      obtain ⟨hserves, hst⟩ := serves_runTask cfg 0 hi₁ ht
      exact ⟨_, hreach.next _ ⟨hserves, hst⟩, hc₁.step hserves hst,
        hdist ▸ distance_runTask hi₁ ht hfinds⟩
    · obtain ⟨hserves, hst⟩ := serves_runTask cfg 0 hi ht
      exact ⟨_, .next _ .start ⟨hserves, hst⟩, h.step hserves hst,
        distance_runTask hi ht fun job hjob => absurd ⟨job, hjob⟩ hselect⟩
  · -- all entries are in the queue, and the scheduler takes the first one
    have hidle : ∀ t ∈ c.tasks, t.stage = 0 := fun t ht =>
      Nat.eq_zero_of_not_pos fun hpos => hbusy ⟨t, ht, hpos⟩
    have hsum : (c.tasks.map Task.stage).sum = 0 :=
      List.sum_eq_zero fun k hk => by
        obtain ⟨t, ht, rfl⟩ := List.mem_map.1 hk
        exact hidle t ht
    have hno : c.tasks.any Task.isScheduler = false := by
      rw [List.any_eq_false]
      intro t ht hsched
      exact (Task.stage_pos_of_isScheduler hsched).ne' (hidle t ht)
    cases hq : c.mgr.queue with
    | nil => simp [hq, hsum] at hwait
    | cons job queue =>
      let c' := c.spawn ({ c.mgr with queue }, some (.schedSelect job))
      have hl : c.Serves (.schedulerPass 0) := trivial
      have hst : exec cfg c (.schedulerPass 0) = some c' := by
        simp [exec, hno, Manager.beginSchedulerPass, hq, c']
      refine ⟨c', .next _ .start ⟨hl, hst⟩, h.step hl hst, ?_⟩
      rw [distance, distance, Prod.Lex.toLex_lt_toLex]
      refine .inl ?_
      simp [c', spawn, hq, hsum, Task.stage]
      omega

theorem tickets_eq_zero (h : 5 * c.mgr.queue.length + (c.tasks.map Task.stage).sum = 0) :
    c.ledger.tickets = 0 := by
  have hqueue : c.mgr.queue = [] := List.length_eq_zero_iff.1 (by omega)
  have hhands : c.hands = 0 := by
    refine List.sum_eq_zero fun tickets htickets => ?_
    obtain ⟨t, ht, rfl⟩ := List.mem_map.1 htickets
    obtain ⟨i, hi⟩ := List.mem_iff_getElem?.1 ht
    obtain ⟨others, hsum, -⟩ := sum_resume Task.stage c hi (c.mgr, none)
    exact Task.tickets_of_stage (by omega)
  simp [ledger, Manager.ledger, hqueue, hhands]

/-! ### Jobs that are never dispatched -/

/-- The row of the job asks for no node. -/
def AsksForNone (j : String) (c : Conf) : Prop :=
  ∃ row, c.mgr.registry.getJob j = some row ∧ row.requiredNodes = 0

theorem AsksForNone.step {j : String} (h : c.AsksForNone j) (hspecs : c.SpecsAgree)
    (hasks : c.AsksForNodes) (hst : exec cfg c l = some c') : c'.AsksForNone j ∧
      dispatchesIn c'.mgr.history j = dispatchesIn c.mgr.history j := by
  obtain ⟨row, hrow, hzero⟩ := h
  constructor
  · obtain ⟨row', hrow', heq⟩ := (jobsWrite hst).keeps JobRow.fixed_required hrow
    exact ⟨row', hrow', (Prod.mk.inj heq).2.trans hzero⟩
  · cases hstarts : c.starts l with
    | none => exact (running_step_of_quiet hst hstarts).2 j
    | some x =>
      obtain ⟨i, now, -, hi, rfl⟩ := eq_of_starts hst hstarts
      have hmem := List.mem_of_getElem? hi
      -- the job that is dispatched asks for nodes, so it is another one
      have hne : x.1.jobId ≠ j := by
        rintro rfl
        have hdict : x.1 ∈ c.dicts := List.mem_append_right _
          (List.mem_flatMap.2 ⟨_, hmem, List.mem_singleton_self x.1⟩)
        obtain ⟨row', hrow', hspec⟩ := hspecs.dicts x.1 hdict
        obtain rfl : row = row' := Option.some.inj (hrow.symm.trans hrow')
        exact hasks.tasks _ hmem ((congrArg JobSpec.nnodes hspec).symm.trans hzero)
      show dispatchesIn (c.mgr.history ++ [_]) j = _
      rw [dispatchesIn_append, if_neg (by simpa [Event.isDispatchOf] using hne), add_zero]

/-- **All jobs that wait can be dispatched, or one of them never will be.**  In every reachable
state, whatever the handlers and the scheduler are at: if no job that waits asks for exactly zero
nodes, then nodes may join so that each entry is dispatched once by the calls of the scheduler, and
nothing else need happen.  A job that asks for zero nodes is dispatched in no run. -/
theorem drained_or_never {reg : Registry} (h : (fine cfg).Reachable (start reg) c) :
    (c.WaitForNodes → ∃ c', ((fine cfg).restrict Serves).Reachable c c' ∧ c'.ledger.tickets = 0 ∧
      ∀ j, dispatchesIn c'.mgr.history j = dispatchesIn c.mgr.history j + c.entries j) ∧
    ∀ j, c.AsksForNone j → ∀ c', (fine cfg).Reachable c c' →
      dispatchesIn c'.mgr.history j = dispatchesIn c.mgr.history j := by
  have hspecs : c.SpecsAgree := specsAgree_reachable h
  constructor
  · intro hwait
    have hservable : Servable c c := {
      wellFormed := h.keeps (fun _ _ _ hst hw => hw.step hst) (wellFormed_start reg)
      oneScheduler := h.keeps (fun _ _ _ hst hone => oneScheduler_step hone hst) (Nat.zero_le 1)
      specsAgree := hspecs
      waitForNodes := hwait
      dispatched := fun _ => rfl }
    obtain ⟨c', hreach, hc', hdone⟩ := LTS.exists_reachable_of_decreasing
      (A := (fine cfg).restrict Serves) (I := Servable c) distance
      (fun _ hs hrest => hs.nearer hrest) hservable
    have htickets := tickets_eq_zero hdone
    refine ⟨c', hreach, htickets, fun j => ?_⟩
    rw [← hc'.dispatched j, entries, htickets, Multiset.count_zero, add_zero]
  · intro j hnone c' hrun
    have hasks := h.keeps preserves_asksForNodes (asksForNodes_start reg)
    exact (hrun.keeps (I := fun c' => (c'.AsksForNone j ∧ c'.SpecsAgree ∧ c'.AsksForNodes) ∧
        dispatchesIn c'.mgr.history j = dispatchesIn c.mgr.history j)
      (fun _ _ _ hst ⟨⟨hn, hs, ha⟩, hcount⟩ => by
        obtain ⟨hn', hcount'⟩ := hn.step hs ha hst
        exact ⟨⟨hn', preserves_specsAgree hst hs, preserves_asksForNodes hst ha⟩,
          hcount'.trans hcount⟩)
      ⟨⟨hnone, hspecs, hasks⟩, rfl⟩).2

instance : DecidablePred WaitForNodes := fun c =>
  inferInstanceAs (Decidable (∀ row ∈ c.mgr.registry.jobs.rows, row.jobId ∈ c.ledger.tickets →
    row.requiredNodes ≠ 0))

end Conf

namespace Sample

/-- A job for three nodes is with the scheduler, and the entry of one for minus one nodes is about
to be appended.  There is no node. -/
def noNodes : List Label :=
  [.submitJob "job-1" (job 3 1) 100, .runTask 0 100, .schedulerPass 102,
    .submitJob "job-2" (job (-1) 1) 103]

end Sample

namespace Conf

/-- Both jobs can be dispatched. -/
theorem drained_or_never_noNodes : ∃ c, (fine Sample.setup).Reachable (start .empty) c ∧
    (c.mgr.registry.nodes.rows = [] ∧ c.entries "job-1" = 1 ∧ c.entries "job-2" = 1) ∧
    ∃ c', ((fine Sample.setup).restrict Serves).Reachable c c' ∧ c'.ledger.tickets = 0 ∧
      ∀ j, dispatchesIn c'.mgr.history j = dispatchesIn c.mgr.history j + c.entries j := by
  obtain ⟨c, hreach, hc⟩ := LTS.exists_of_exec (exec Sample.setup) (start .empty) Sample.noNodes
    (fun c => decide (c.WaitForNodes ∧ c.mgr.registry.nodes.rows.isEmpty ∧
      c.entries "job-1" = 1 ∧ c.entries "job-2" = 1)) (by decide +kernel)
  obtain ⟨hwait, hno, hentries⟩ := of_decide_eq_true hc
  exact ⟨c, hreach, ⟨List.isEmpty_iff.1 hno, hentries⟩, (drained_or_never hreach).1 hwait⟩

end Conf

end Dmlf
