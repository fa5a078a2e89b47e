import Dmlf.Jobs.Fifo
import Dmlf.Jobs.WorldSize

/-!
# A job that is first in line

The scheduler loop puts a job that finds too few nodes back to the front of the queue, so it holds
up all jobs behind it.  No later submission gets past it, and no retry: the entry of a submission
ties with it in the sort, which is stable, and the entry of a retry sorts behind it.

* `Conf.Ranked` : no entry in memory, and none that may be read from the table, sorts before the
  entry of a submission.
* `Conf.Blocked` : the state in which a job waits for nodes.
* `Conf.blocked_reachable` : as long as the job finds too few nodes, no job is started in any run.
-/

namespace Dmlf

/-- An entry of the default priority, stamped at the epoch or later, or not at all. -/
def JobDict.Ranked (d : JobDict) : Prop := d.priority.getD 0 = 0 ∧ 0 ≤ d.createdAt.getD 0

/-- The entry of a submission sorts before any other one, or ties with it. -/
theorem JobDict.Ranked.notAfter {job d : JobDict} (hjob : job.Ranked) (hfresh : job.Fresh)
    (hd : d.Ranked) : job.NotAfter d := by
  have hcreated : job.createdAt = none := hfresh
  refine notAfter_iff_inOrder.2 (.inr ⟨hjob.1.trans hd.1.symm, ?_⟩)
  rw [hcreated]
  exact hd.2

/-- A sort leaves a first entry in place that does not come after any other one. -/
theorem insertionSort_cons_of_first {α : Type*} {r : α → α → Prop} [DecidableRel r] {a : α}
    {l : List α} (h : ∀ b ∈ l, r a b) : (a :: l).insertionSort r = a :: l.insertionSort r := by
  rw [List.insertionSort_cons]
  cases hs : l.insertionSort r with
  | nil => rfl
  | cons b rest =>
    have hb : b ∈ l := (List.perm_insertionSort r l).subset (hs ▸ List.mem_cons_self)
    exact List.orderedInsert_cons_of_le _ _ (h b hb)

/-- The next call selects nodes for the job that the scheduler has popped. -/
def Task.selects : Task → Bool
  | .schedSelect _ => true
  | _ => false

/-- The scheduler has nodes for the job that it has popped. -/
def Task.reserves : Task → Bool
  | .schedReserve _ _ _ => true
  | _ => false

namespace Conf

variable {cfg : Setup} {c c' : Conf} {l : Label} {job : JobDict}

/-! ### Priorities and stamps -/

/-- All entries in memory are ranked, and so are those that may be read from the table. -/
structure Ranked (c : Conf) : Prop where
  dicts : ∀ d ∈ c.dicts, d.Ranked
  rows : ∀ row ∈ c.mgr.registry.jobs.rows, row.toDict.Ranked

theorem ranked_start : (start .empty).Ranked where
  dicts := fun _ h => absurd h List.not_mem_nil
  rows := fun _ h => absurd h List.not_mem_nil

theorem Ranked.rows_step (h : c.Ranked) (hclock : PastEpoch l) (hst : exec cfg c l = some c') :
    ∀ row ∈ c'.mgr.registry.jobs.rows, row.toDict.Ranked := by
  have hfixed : JobRow.Fixed fun row => (row.priority, row.createdAt) := ⟨fun _ _ _ _ _ => rfl,
    fun _ _ _ => rfl⟩
  by_cases hl : ∃ j req now, l = .submitJob j req now
  · obtain ⟨j, req, now, rfl⟩ := hl
    cases call hst with
    | first hbegun =>
      cases hbegun with
      | submitJob hreg =>
        intro row hrow
        obtain ⟨jobs, hjobs, rfl⟩ := Option.map_eq_some_iff.1 hreg
        replace hrow : row ∈ jobs.rows := hrow
        rw [(Table.rows_insert? hjobs).1, List.mem_append, List.mem_singleton] at hrow
        rcases hrow with hrow | rfl
        · exact h.rows row hrow
        · exact ⟨rfl, le_of_lt hclock⟩
  · have hupd := (jobsUpdate hst fun j req now h => hl ⟨j, req, now, h⟩).map_rows hfixed
    intro row hrow
    have hmem := List.mem_map_of_mem (f := fun row : JobRow => (row.priority, row.createdAt)) hrow
    rw [hupd] at hmem
    obtain ⟨old, hold, heq⟩ := List.mem_map.1 hmem
    obtain ⟨hp, hc⟩ := Prod.mk.inj heq
    have hranked := h.rows old hold
    simpa only [JobDict.Ranked, JobRow.toDict, hp, hc] using hranked

theorem Ranked.step (h : c.Ranked) (hclock : PastEpoch l) (hst : exec cfg c l = some c') :
    c'.Ranked where
  rows := h.rows_step hclock hst
  dicts := by
    intro d hd
    cases source hst hd with
    | kept hd => exact h.dicts _ hd
    | @retried _ d₀ hold =>
      -- a retry changes neither the priority nor the stamp
      have hranked := h.dicts d₀ hold
      exact hranked
    | read hrow => exact h.rows _ (Table.mem_of_find? hrow)
    | submitted => exact ⟨rfl, le_rfl⟩

theorem mem_dicts_of_appends {d : JobDict} (h : c.appends l = some d) : d ∈ c.dicts := by
  cases l with
  | runTask i now =>
    obtain ⟨t, hi, ht⟩ := Option.bind_eq_some_iff.1 h
    refine List.mem_append_right _ (List.mem_flatMap.2 ⟨t, List.mem_of_getElem? hi, ?_⟩)
    cases t with
    | submitAppend | retryAppend =>
      obtain rfl := Option.some.inj ht
      exact List.mem_singleton_self _
    | monAppend =>
      obtain rfl := Option.some.inj ht
      exact List.mem_cons_self
    | _ => cases ht
  | _ => cases h

/-! ### Waiting -/

/-- A selection of nodes finds fewer than `k`. -/
def FindsTooFew (k : ℤ) (c : Conf) : Label → Prop
  | .runTask i now => c.tasks[i]?.any Task.selects = true →
    ((c.mgr.registry.freshNodes now).length : ℤ) < k
  | _ => True

/-- The manager is not killed, its clock is past the epoch, and a selection of nodes finds fewer
than `job` needs. -/
structure Starved (job : JobDict) (c : Conf) (l : Label) : Prop where
  lifetime : l.isRestart = false
  clock : PastEpoch l
  tooFew : FindsTooFew job.requiredNodes c l

/-- A job is first in line, and the scheduler has not found nodes for it. -/
structure Blocked (job : JobDict) (c : Conf) : Prop where
  oneScheduler : c.OneScheduler
  ranked : c.Ranked
  first : c.line.head? = some job
  unserved : ∀ t ∈ c.tasks, t.reserves = false

namespace Blocked

theorem eq_of_held (h : Blocked job c) {d : JobDict} (hd : d ∈ c.held) : d = job := by
  obtain ⟨d', hheld⟩ := List.length_eq_one_iff.1
    (le_antisymm (length_held_le h.oneScheduler) (List.length_pos_of_mem hd))
  have hfirst := h.first
  rw [line, hheld] at hfirst
  rw [hheld, List.mem_singleton] at hd
  exact hd.trans (Option.some.inj hfirst)

theorem starts_eq_none (h : Blocked job c) (hst : exec cfg c l = some c') : c.starts l = none := by
  cases hx : c.starts l with
  | none => rfl
  | some x =>
    obtain ⟨i, now, -, hi, -⟩ := eq_of_starts hst hx
    cases h.unserved _ (List.mem_of_getElem? hi)

theorem first_step (h : Blocked job c) (hfresh : job.Fresh) (hl : l ≠ .restart)
    (hst : exec cfg c l = some c') : c'.line.head? = some job := by
  have hranked' : ∀ d ∈ c.line, d.Ranked := fun d hd => h.ranked.dicts d (mem_dicts_of_line hd)
  cases lineEffect h.oneScheduler hst hl with
  | same hx ha hline => rw [hline, h.first]
  | dispatch x hx ha hline =>
    rw [h.starts_eq_none hst] at hx
    cases hx
  | append d hx ha hheld hqueue =>
    rw [line, hheld, hqueue]
    have hfirst := h.first
    rw [line] at hfirst
    cases hhand : c.held with
    | cons d' rest =>
      rw [hhand] at hfirst
      exact hfirst
    | nil =>
      -- the job is first in the queue, and the new entry does not sort before it
      rw [hhand] at hfirst
      cases hq : c.mgr.queue with
      | nil => rw [hq] at hfirst; cases hfirst
      | cons d' rest =>
        rw [hq] at hfirst
        obtain rfl : d' = job := Option.some.inj hfirst
        have hjob : d'.Ranked := hranked' d' (List.mem_append_right _ (hq ▸ List.mem_cons_self))
        have hsort : appendSorted (d' :: rest) d =
            d' :: (rest ++ [d]).insertionSort JobDict.NotAfter := by
          refine insertionSort_cons_of_first fun b hb => hjob.notAfter hfresh ?_
          rcases List.mem_append.1 hb with hb | hb
          · exact hranked' b (List.mem_append_right _ (hq ▸ List.mem_cons_of_mem _ hb))
          · exact List.mem_singleton.1 hb ▸ h.ranked.dicts d (mem_dicts_of_appends ha)
        rw [hsort]
        rfl

theorem unserved_step (h : Blocked job c) (hs : Starved job c l) (hst : exec cfg c l = some c') :
    ∀ t ∈ c'.tasks, t.reserves = false := by
  intro t ht
  have hafter := taskAfter hst ht
  generalize c'.mgr = m at hafter
  cases hafter with
  | kept ht => exact h.unserved t ht
  | begun hb => cases hb <;> rfl
  | @next i now _ t₀ _ hi _ hnext =>
    have hmem := List.mem_of_getElem? hi
    cases Task.next_of_step hnext with
    | reserved => cases h.unserved _ hmem
    | selected d _ hnodes hne =>
      obtain rfl : d = job := h.eq_of_held (List.mem_filterMap.2 ⟨_, hmem, rfl⟩)
      have hfew : ((c.mgr.registry.freshNodes now).length : ℤ) < d.requiredNodes :=
        hs.tooFew (by rw [hi]; rfl)
      rw [Manager.getAvailableNodes_eq, allocate, if_pos hfew] at hnodes
      exact absurd hnodes hne
    | retryWrite | retryAppend | failed | tooFew | started | sent | monLoop | lost | passed
      | marked | appended => rfl

theorem step (h : Blocked job c) (hfresh : job.Fresh) (hs : Starved job c l)
    (hst : exec cfg c l = some c') : Blocked job c' where
  oneScheduler := oneScheduler_step h.oneScheduler hst
  ranked := h.ranked.step hs.clock hst
  first := h.first_step hfresh (by rintro rfl; cases hs.lifetime) hst
  unserved := h.unserved_step hs hst

end Blocked

/-- **A job that finds too few nodes holds up all others.**  In a run from an empty database, let
the entry of a submission be first in line, neither retried nor recovered, with no nodes found for
it.  In every further run without a restart in which each selection of nodes for it finds too few,
it stays first in line, and no job is dispatched: no row is set `RUNNING`, whatever else is
submitted, fails, or is retried, and whatever nodes join. -/
theorem blocked_reachable (hreach : ((fine cfg).restrict fun _ l => PastEpoch l).Reachable
      (start .empty) c) (hfirst : c.line.head? = some job) (hfresh : job.Fresh)
    (hunserved : ∀ t ∈ c.tasks, t.reserves = false)
    (hrun : ((fine cfg).restrict (Starved job)).Reachable c c') :
    c'.line.head? = some job ∧
      c'.mgr.registry.getJobs .running ⊆ c.mgr.registry.getJobs .running ∧
      ∀ j, dispatchesIn c'.mgr.history j = dispatchesIn c.mgr.history j := by
  have hinv : c.OneScheduler ∧ c.Ranked := hreach.keeps (I := fun c => c.OneScheduler ∧ c.Ranked)
    (fun _ _ _ hst h => ⟨oneScheduler_step h.1 hst.2, h.2.step hst.1 hst.2⟩)
    ⟨Nat.zero_le 1, ranked_start⟩
  have hblocked : Blocked job c := ⟨hinv.1, hinv.2, hfirst, hunserved⟩
  have hkeep := hrun.keeps (I := fun c' => Blocked job c' ∧
      c'.mgr.registry.getJobs .running ⊆ c.mgr.registry.getJobs .running ∧
      ∀ j, dispatchesIn c'.mgr.history j = dispatchesIn c.mgr.history j)
    (fun s l s' hst h => by
      obtain ⟨hb, hsub, hcount⟩ := h
      obtain ⟨hrows, hcounts⟩ := running_step_of_quiet hst.2 (hb.starts_eq_none hst.2)
      exact ⟨hb.step hfresh hst.1 hst.2, List.Subset.trans hrows hsub,
        fun j => (hcounts j).trans (hcount j)⟩)
    ⟨hblocked, List.Subset.refl _, fun _ => rfl⟩
  exact ⟨hkeep.1.first, hkeep.2⟩

instance (k : ℤ) (c : Conf) : DecidablePred (FindsTooFew k c)
  | .runTask i now => inferInstanceAs (Decidable (c.tasks[i]?.any Task.selects = true →
    ((c.mgr.registry.freshNodes now).length : ℤ) < k))
  | .registerNode _ _ _ _ | .sendHeartbeat _ _ | .listenForCommands _ | .takeCommand _
  | .reportJobStatus _ _ | .submitJob _ _ _ | .schedulerPass _ | .monitorPass _ | .probe _
  | .restart => .isTrue trivial

instance (job : JobDict) (c : Conf) : DecidablePred (Starved job c) := fun l =>
  decidable_of_iff (l.isRestart = false ∧ PastEpoch l ∧ FindsTooFew job.requiredNodes c l)
    ⟨fun h => ⟨h.1, h.2.1, h.2.2⟩, fun h => ⟨h.1, h.2, h.3⟩⟩

end Conf

namespace Sample

/-- Two nodes join, and a job for three is submitted. -/
def waiting : List Label :=
  [.registerNode "node-1" "secret-1" node 100, .runTask 0 100,
    .registerNode "node-2" "secret-2" node 100, .runTask 0 100,
    .submitJob "job-1" (job 3 1) 101, .runTask 0 101]

/-- A job for one node is submitted while the scheduler is at the first one, and two passes
follow. -/
def heldUp : List Label :=
  [.schedulerPass 102, .submitJob "job-2" (job 1 1) 103, .runTask 1 103, .runTask 0 104,
    .runTask 0 104, .schedulerPass 106, .runTask 0 106, .runTask 0 106]

end Sample

namespace Conf

/-- A job for three nodes holds up a job for one, although two nodes are idle. -/
theorem blocked_reachable_heldUp :
    let c := LTS.last (start .empty)
      (LTS.runOf (exec Sample.setup) (start .empty) Sample.waiting)
    let c' := LTS.last c (LTS.runOf (exec Sample.setup) c Sample.heldUp)
    c'.line.map JobDict.jobId = ["job-1", "job-2"] ∧ (c'.mgr.registry.freshNodes 106).length = 2 ∧
      c'.line.head? = some ((Sample.job 3 1).toDict "job-1") ∧
      c'.mgr.registry.getJobs .running ⊆ c.mgr.registry.getJobs .running ∧
      ∀ j, dispatchesIn c'.mgr.history j = dispatchesIn c.mgr.history j :=
  ⟨by decide +kernel, by decide +kernel,
    blocked_reachable (((LTS.run_runOf (exec Sample.setup) (start .empty) Sample.waiting).restrict
        (by decide +kernel)).reachable) rfl rfl (by decide +kernel)
      (((LTS.run_runOf (exec Sample.setup) _ Sample.heldUp).restrict
        (by decide +kernel)).reachable)⟩

end Conf

end Dmlf
