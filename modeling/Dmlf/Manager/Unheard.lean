import Dmlf.Manager.Server

/-!
# What the manager has heard

Only the handlers write down what the nodes and the users say.  All that the scheduler, the monitor
and the probes do to the tables is to set nodes reserved or disconnected, and jobs running, pending
or failed.

* `Registry.Unheard` : nothing that a client says shows between two states of the tables.
* `Task.unheard_step` : so it is with a call of the scheduler or the monitor.
-/

namespace Dmlf

/-- Nothing that the clients say between `reg` and `reg'` shows in the tables. -/
structure Registry.Unheard (reg reg' : Registry) : Prop where
  /-- The nodes are the same, with the same last heartbeats. -/
  heartbeats : reg'.nodes.rows.map (fun r => (r.nodeId, r.lastHeartbeat)) =
    reg.nodes.rows.map fun r => (r.nodeId, r.lastHeartbeat)
  /-- No node has become idle. -/
  idle : ∀ r ∈ reg'.nodes.rows, r.status = .idle → r ∈ reg.nodes.rows
  metrics : reg'.metrics = reg.metrics
  /-- The jobs are the same. -/
  jobs : reg'.jobs.rows.map JobRow.jobId = reg.jobs.rows.map JobRow.jobId
  /-- No job has been completed. -/
  completed : reg'.getJobs .completed ⊆ reg.getJobs .completed

namespace Registry

variable {reg reg' reg'' : Registry}

theorem Unheard.refl (reg : Registry) : reg.Unheard reg :=
  ⟨rfl, fun _ h _ => h, rfl, rfl, List.Subset.refl _⟩

theorem Unheard.trans (h : reg.Unheard reg') (h' : reg'.Unheard reg'') : reg.Unheard reg'' where
  heartbeats := h'.heartbeats.trans h.heartbeats
  idle := fun r hr hidle => h.idle r (h'.idle r hr hidle) hidle
  metrics := h'.metrics.trans h.metrics
  jobs := h'.jobs.trans h.jobs
  completed := List.Subset.trans h'.completed h.completed

theorem unheard_updateNodes (p : NodeRow → Bool) {f : NodeRow → NodeRow}
    (hf : ∀ r, (f r).nodeId = r.nodeId) (hheard : ∀ r, (f r).lastHeartbeat = r.lastHeartbeat)
    (hidle : ∀ r, (f r).status ≠ .idle) : reg.Unheard (reg.updateNodes p f hf) where
  heartbeats := by
    simp only [updateNodes, Table.modify, List.map_map]
    refine List.map_congr_left fun r _ => ?_
    simp only [Function.comp_apply]
    split_ifs
    · rw [hf, hheard]
    · rfl
  idle := by
    intro r hr hstatus
    obtain ⟨r₀, hr₀, rfl⟩ := List.mem_map.1 hr
    split_ifs at hstatus ⊢ with hp
    · exact absurd hstatus (hidle r₀)
    · exact hr₀
  metrics := rfl
  jobs := rfl
  completed := List.Subset.refl _

theorem unheard_markOfflineNodes (reg : Registry) (now : Time) (timeout : ℚ) :
    reg.Unheard (reg.markOfflineNodes now timeout) :=
  unheard_updateNodes _ _ (fun _ => rfl) (by rintro _ ⟨⟩)

theorem unheard_updateJob (j : String) {f : JobRow → JobRow} (hf : ∀ r, (f r).jobId = r.jobId)
    (hstatus : ∀ r, (f r).status ≠ .completed) : reg.Unheard (reg.updateJob j f hf) where
  heartbeats := rfl
  idle := fun _ h _ => h
  metrics := rfl
  jobs := Table.map_key_modify reg.jobs.rows _ f hf
  completed := fun row hrow => ((mem_getJobs_updateJob hf hstatus row).1 hrow).1

end Registry

theorem Task.unheard_step (cfg : Setup) (now : Time) (m : Manager) {t : Task}
    (h : t.isRpcHandler = false) : m.registry.Unheard (t.step cfg now m).1.registry := by
  cases t with
  | registerQueue | submitAppend | retrySetIdle | retryWrite | retryAppend | failWrite
    | closedSetIdle => cases h
  | schedRequeue | monJobs | monAppend => exact .refl _
  | schedSelect | monCount => exact Registry.unheard_markOfflineNodes ..
  | schedReserve job nodes todo =>
    cases todo with
    | nil => exact Registry.unheard_updateJob _ _ (by rintro _ ⟨⟩)
    | cons node todo => exact Registry.unheard_updateNodes _ _ (fun _ => rfl) (by rintro _ ⟨⟩)
  | schedSend job masterAddr todo =>
    cases todo with
    | nil => exact .refl _
    | cons y todo =>
      simp only [step, (m.sendCommand_keeps y.1.nodeId _).1]
      exact .refl _
  | monLoop offline jobs =>
    cases jobs with
    | nil => exact Registry.unheard_markOfflineNodes ..
    | cons job jobs =>
      simp only [step]
      split_ifs
      · exact Registry.unheard_updateJob _ _ (by rintro _ ⟨⟩)
      · exact Registry.unheard_updateJob _ _ (by rintro _ ⟨⟩)
      · exact .refl _

end Dmlf
