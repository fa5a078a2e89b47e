import Dmlf.Jobs.Pass
import Dmlf.Jobs.Timestamps
import Mathlib.Tactic.Linarith
import Mathlib.Tactic.Ring

/-!
# The offline timeout

`manager.offline_timeout_sec` is used by the first query of the monitor only; nodes are marked by
`mark_offline_nodes`, which all its callers call with its default of 15 seconds.

* `Manager.Obeys` : a step marks late nodes only, and a monitor pass all of them, where a node is
  late by the configured timeout.
* `Manager.obeys_iff` : the steps of a run obey the configured timeout exactly if, whenever nodes
  are marked, none is late by one of the two timeouts only.
* `Manager.obeys_forall_iff` : so it is in all runs exactly if 15 seconds are configured.
-/

namespace Dmlf

theorem NodeRow.disconnected_mark_iff {cutoff : Time} {r : NodeRow} :
    (r.mark cutoff).status = .disconnected ↔ r.status = .disconnected ∨ r.isStale cutoff := by
  unfold mark
  split_ifs with hstale
  · exact iff_of_true rfl (.inr hstale)
  · simp [hstale]

theorem NodeRow.lastHeartbeat_mark (cutoff : Time) (r : NodeRow) :
    (r.mark cutoff).lastHeartbeat = r.lastHeartbeat := by
  unfold mark
  split <;> rfl

theorem NodeRow.isStale_iff {cutoff : Time} {r : NodeRow} :
    r.isStale cutoff ↔
      r.lastHeartbeat < cutoff ∧ r.status ≠ .disconnected ∧ r.status ≠ .maintenance := by
  simp [isStale]

/-- Every node that is stale by the first cutoff is late by the second one. -/
def Registry.StaleWithin (reg : Registry) (cutoff cutoff' : Time) : Prop :=
  ∀ n, ∀ r ∈ reg.getNode n, r.isStale cutoff → r.lastHeartbeat < cutoff'

namespace Manager

variable {cfg : Setup} {m m' : Manager} {now : Time} {l : Label} {n : String}

/-! ### What the steps do to the nodes -/

/-- When a step marks the offline nodes. -/
def marksAt (m : Manager) : Label → Option Time
  | .schedulerPass now => if m.queue = [] then none else some now
  | .monitorPass now | .probe now => some now
  | _ => none

/-- What a step that marks the offline nodes does to the row of a node: it may be reserved for a
job if it has not been marked. -/
structure Marked (now : Time) (r r' : NodeRow) : Prop where
  lastHeartbeat : r'.lastHeartbeat = r.lastHeartbeat
  status : r'.status = .disconnected ↔
    r.status = .disconnected ∨ r.isStale (now - defaultTimeoutSeconds)

theorem marked_mark (now : Time) (r : NodeRow) :
    Marked now r (r.mark (now - defaultTimeoutSeconds)) :=
  ⟨r.lastHeartbeat_mark _, NodeRow.disconnected_mark_iff⟩

theorem marked_reserved {job : JobDict} {r : NodeRow}
    (hpick : n ∈ (m.picks cfg now job).map NodeRow.nodeId) (hr : m.registry.getNode n = some r) :
    Marked now r { r.mark (now - defaultTimeoutSeconds) with status := .reserved } := by
  obtain ⟨hidle, hfresh⟩ := fresh_of_picks hpick hr
  refine ⟨r.lastHeartbeat_mark _, iff_of_false (by rintro ⟨⟩) ?_⟩
  rw [← NodeRow.disconnected_mark_iff]
  have hmark : r.mark (now - defaultTimeoutSeconds) = r := NodeRow.mark_of_fresh hfresh
  rw [hmark, hidle]
  rintro ⟨⟩

/-- **A step that marks** marks by the default timeout. -/
theorem getNode_marking (hl : m.marksAt l = some now) (hst : m.perform cfg l = some m')
    (n : String) : ∃ f, m'.registry.getNode n = (m.registry.getNode n).map f ∧
      ∀ r ∈ m.registry.getNode n, Marked now r (f r) := by
  cases l with
  | schedulerPass now =>
    obtain ⟨hne, heq⟩ := Option.ite_none_left_eq_some.1 hl
    obtain rfl := Option.some.inj heq
    obtain rfl := Option.some.inj hst
    have heff := passEffect cfg m now
    generalize m.schedulerPass cfg now = m' at heff
    cases heff with
    | noJob hnil => exact absurd hnil hne
    | requeued => exact ⟨_, Registry.getNode_markOfflineNodes _ _ n, fun r _ => marked_mark now r⟩
    | dispatched job queue hq hsome =>
      have hget : (((m.popTopJob queue now).reserveNodes (m.selectNodes cfg job now))
          |>.dispatchAllocatedJob cfg job (m.selectNodes cfg job now) now).registry.getNode n = _ :=
        getNode_dispatch m queue job _ n
      rw [Registry.getNode_markOfflineNodes, Option.map_map] at hget
      refine ⟨_, hget, ?_⟩
      intro r hr
      dsimp only [Function.comp]
      split_ifs with hpick
      · rw [selectNodes_eq] at hpick
        exact marked_reserved hpick hr
      · exact marked_mark now r
  | monitorPass now =>
    obtain rfl := Option.some.inj hl
    obtain rfl := Option.some.inj hst
    exact ⟨_, (getNode_monitorPass m n).trans (Registry.getNode_markOfflineNodes _ _ n),
      fun r _ => marked_mark now r⟩
  | probe now =>
    obtain rfl := Option.some.inj hl
    obtain rfl := Option.some.inj hst
    exact ⟨_, Registry.getNode_markOfflineNodes _ _ n, fun r _ => marked_mark now r⟩
  | registerNode | sendHeartbeat | listenForCommands | takeCommand | reportJobStatus | submitJob
    | restart | runTask => cases hl

/-- **A step that does not mark** sets no node `DISCONNECTED`, but for a heartbeat that reports this
text. -/
theorem disconnected_of_not_marking (hl : m.marksAt l = none)
    (hbeat : ∀ req now, l ≠ .sendHeartbeat req now) (hst : m.perform cfg l = some m')
    {r' : NodeRow} (hr' : m'.registry.getNode n = some r') (hdown : r'.status = .disconnected) :
    ∃ r ∈ m.registry.getNode n, r.status = .disconnected := by
  cases l with
  | registerNode nodeId nodeSecret req now =>
    obtain ⟨-, hm⟩ := Option.ite_none_right_eq_some.1 hst
    obtain rfl := Option.some.inj hm
    have hget := (Registry.getNode_registerNode ..).symm.trans hr'
    split_ifs at hget
    · obtain rfl := Option.some.inj hget
      cases hdown
    · exact ⟨r', hget, hdown⟩
  | sendHeartbeat req now => exact absurd rfl (hbeat req now)
  | listenForCommands nodeId =>
    obtain ⟨queues, rfl⟩ := perform_listenForCommands hst
    exact ⟨r', hr', hdown⟩
  | takeCommand nodeId =>
    obtain ⟨queues, rfl⟩ := perform_takeCommand hst
    exact ⟨r', hr', hdown⟩
  | reportJobStatus req now =>
    obtain rfl := Option.some.inj hst
    rcases release_reportJobStatus m req now with ⟨-, heq⟩ | ⟨-, -, hnode⟩
    · exact ⟨r', heq ▸ hr', hdown⟩
    · rw [hnode, Registry.getNode_updateNodeState] at hr'
      obtain ⟨r, hr, rfl⟩ := Option.map_eq_some_iff.1 hr'
      split_ifs at hdown
      exact ⟨r, hr, hdown⟩
  | submitJob jobId req now =>
    rw [Registry.getNode, (running_submitJob hst).1] at hr'
    exact ⟨r', hr', hdown⟩
  | schedulerPass now =>
    obtain rfl := Option.some.inj hst
    have hnil : m.queue = [] := by
      by_contra hne
      rw [marksAt, if_neg hne] at hl
      cases hl
    rw [schedulerPass, hnil] at hr'
    exact ⟨r', hr', hdown⟩
  | monitorPass => cases hl
  | probe => cases hl
  | restart =>
    obtain rfl := Option.some.inj hst
    exact ⟨r', hr', hdown⟩
  | runTask => cases hst

/-! ### The configured timeout -/

/-- A step obeys the configured timeout. -/
structure Obeys (cfg : Setup) (m : Manager) (l : Label) : Prop where
  /-- A node that the step sets `DISCONNECTED` has been silent for longer than the timeout. -/
  late : ∀ m', m.perform cfg l = some m' → ∀ n, ∀ r' ∈ m'.registry.getNode n,
    r'.status = .disconnected → (∀ r ∈ m.registry.getNode n, r.status ≠ .disconnected) →
    ∀ t, r'.lastHeartbeat < l.clock t - cfg.offlineTimeoutSec
  /-- After a monitor pass all such nodes outside maintenance are `DISCONNECTED`. -/
  all : ∀ now, l = .monitorPass now → ∀ n, ∀ r' ∈ (m.monitorPass cfg now).registry.getNode n,
    r'.status ≠ .maintenance → r'.lastHeartbeat < now - cfg.offlineTimeoutSec →
    r'.status = .disconnected

/-- No node is late by one of the timeouts only when the nodes are marked; in a scheduler pass or a
probe it may be late by the configured one only.  No heartbeat reports `DISCONNECTED` before the
timeout, and so none at all if that is not negative. -/
def TimeoutsAgree (cfg : Setup) (m : Manager) : Label → Prop
  | .schedulerPass now => m.queue ≠ [] →
      m.registry.StaleWithin (now - defaultTimeoutSeconds) (now - cfg.offlineTimeoutSec)
  | .probe now =>
      m.registry.StaleWithin (now - defaultTimeoutSeconds) (now - cfg.offlineTimeoutSec)
  | .monitorPass now =>
      m.registry.StaleWithin (now - defaultTimeoutSeconds) (now - cfg.offlineTimeoutSec) ∧
        m.registry.StaleWithin (now - cfg.offlineTimeoutSec) (now - defaultTimeoutSeconds)
  | .sendHeartbeat req now => NodeState.ofText req.currentStatus = .disconnected →
      ∀ r ∈ m.registry.getNode req.nodeId, r.status ≠ .disconnected →
        now < now - cfg.offlineTimeoutSec
  | _ => True

/-- A step that marks, marks late nodes only, exactly if the stale ones are late. -/
theorem late_marking_iff (hl : m.marksAt l = some now) (hst : m.perform cfg l = some m') :
    (∀ n, ∀ r' ∈ m'.registry.getNode n, r'.status = .disconnected →
      (∀ r ∈ m.registry.getNode n, r.status ≠ .disconnected) →
      r'.lastHeartbeat < now - cfg.offlineTimeoutSec) ↔
    m.registry.StaleWithin (now - defaultTimeoutSeconds) (now - cfg.offlineTimeoutSec) := by
  constructor
  · intro hlate n r hr hstale
    obtain ⟨f, hf, hmarked⟩ := getNode_marking hl hst n
    have hr' : f r ∈ m'.registry.getNode n := by
      rw [hf, hr]
      rfl
    rw [← (hmarked r hr).lastHeartbeat]
    refine hlate n (f r) hr' ((hmarked r hr).status.2 (.inr hstale)) fun r₁ hr₁ => ?_
    obtain rfl := Option.some.inj (hr.symm.trans hr₁)
    exact (NodeRow.isStale_iff.1 hstale).2.1
  · intro hstale n r' hr' hdown hnot
    obtain ⟨f, hf, hmarked⟩ := getNode_marking hl hst n
    obtain ⟨r, hr, rfl⟩ := Option.map_eq_some_iff.1 (hf.symm.trans hr')
    rw [(hmarked r hr).lastHeartbeat]
    exact hstale n r hr (((hmarked r hr).status.1 hdown).resolve_left (hnot r hr))

theorem all_monitorPass_iff :
    (∀ n, ∀ r' ∈ (m.monitorPass cfg now).registry.getNode n, r'.status ≠ .maintenance →
      r'.lastHeartbeat < now - cfg.offlineTimeoutSec → r'.status = .disconnected) ↔
    m.registry.StaleWithin (now - cfg.offlineTimeoutSec) (now - defaultTimeoutSeconds) := by
  have hget : ∀ n, (m.monitorPass cfg now).registry.getNode n =
      (m.registry.getNode n).map (NodeRow.mark (now - defaultTimeoutSeconds)) := fun n =>
    (getNode_monitorPass m n).trans (Registry.getNode_markOfflineNodes _ _ n)
  constructor
  · intro hall n r hr hlate
    obtain ⟨hbefore, hup, hmaint⟩ := NodeRow.isStale_iff.1 hlate
    by_contra hnot
    -- the row is not marked
    have hsame : r.mark (now - defaultTimeoutSeconds) = r := NodeRow.mark_of_fresh (not_lt.1 hnot)
    have hr' : r ∈ (m.monitorPass cfg now).registry.getNode n := by
      rw [hget, hr, Option.map_some, hsame]
      rfl
    exact hup (hall n r hr' hmaint hbefore)
  · intro hstale n r' hr' hmaint hbefore
    obtain ⟨r, hr, rfl⟩ := Option.map_eq_some_iff.1 ((hget n).symm.trans hr')
    rw [NodeRow.lastHeartbeat_mark] at hbefore
    rw [NodeRow.disconnected_mark_iff]
    by_contra hnot
    obtain ⟨hup, hfresh⟩ := not_or.1 hnot
    have hsame : r.mark (now - defaultTimeoutSeconds) = r := if_neg hfresh
    rw [hsame] at hmaint
    have hlate := hstale n r hr (NodeRow.isStale_iff.2 ⟨hbefore, hup, hmaint⟩)
    exact hfresh (NodeRow.isStale_iff.2 ⟨hlate, hup, hmaint⟩)

/-- A heartbeat sets its node `DISCONNECTED` late exactly if it reports that in time. -/
theorem late_heartbeat_iff {req : HeartbeatRequest} :
    (∀ n, ∀ r' ∈ (m.sendHeartbeat req now).registry.getNode n, r'.status = .disconnected →
      (∀ r ∈ m.registry.getNode n, r.status ≠ .disconnected) →
      r'.lastHeartbeat < now - cfg.offlineTimeoutSec) ↔
    m.TimeoutsAgree cfg (.sendHeartbeat req now) := by
  have hget : ∀ n, (m.sendHeartbeat req now).registry.getNode n =
      (m.registry.getNode n).map fun r => if r.nodeId = req.nodeId then
        { r with lastHeartbeat := now, status := .ofText req.currentStatus } else r := fun n =>
    Registry.getNode_updateHeartbeat ..
  constructor
  · intro hlate htext r hr hup
    refine hlate req.nodeId { r with lastHeartbeat := now, status := .ofText req.currentStatus } ?_
      htext fun r₁ hr₁ => ?_
    · rw [hget, hr, Option.map_some, if_pos (Registry.nodeId_of_getNode hr)]
      rfl
    · obtain rfl := Option.some.inj (hr.symm.trans hr₁)
      exact hup
  · intro hagree n r' hr' hdown hnot
    obtain ⟨r, hr, rfl⟩ := Option.map_eq_some_iff.1 ((hget n).symm.trans hr')
    split_ifs at hdown ⊢ with hid
    · have hr₁ : r ∈ m.registry.getNode req.nodeId := by
        rwa [← hid, Registry.nodeId_of_getNode hr]
      exact hagree hdown r hr₁ (hnot r hr)
    · exact absurd hdown (hnot r hr)

/-- One step obeys the configured timeout exactly if the timeouts agree on it. -/
theorem obeys_step (l : Label) : m.Obeys cfg l ↔ m.TimeoutsAgree cfg l := by
  -- a step other than a monitor pass has nothing to mark
  have hother : ∀ l : Label, (∀ now, l ≠ .monitorPass now) → (m.Obeys cfg l ↔
      ∀ m', m.perform cfg l = some m' → ∀ n, ∀ r' ∈ m'.registry.getNode n,
        r'.status = .disconnected → (∀ r ∈ m.registry.getNode n, r.status ≠ .disconnected) →
        ∀ t, r'.lastHeartbeat < l.clock t - cfg.offlineTimeoutSec) := fun l hl =>
    ⟨Obeys.late, fun h => ⟨h, fun now heq => absurd heq (hl now)⟩⟩
  have hquiet : ∀ l : Label, m.marksAt l = none → (∀ req now, l ≠ .sendHeartbeat req now) →
      m.Obeys cfg l := by
    intro l hl hbeat
    refine ⟨fun m' hst n r' hr' hdown hnot => ?_, fun now heq => ?_⟩
    · obtain ⟨r, hr, hdown⟩ := disconnected_of_not_marking hl hbeat hst hr' hdown
      exact absurd hdown (hnot r hr)
    · rw [heq] at hl
      cases hl
  cases l with
  | schedulerPass now =>
    by_cases hnil : m.queue = []
    · exact iff_of_true (hquiet _ (if_pos hnil) (by simp)) fun hne => absurd hnil hne
    · rw [hother _ (by simp)]
      simp only [TimeoutsAgree, ne_eq, hnil, not_false_eq_true, true_imp_iff]
      rw [← late_marking_iff (l := .schedulerPass now) (if_neg hnil) rfl]
      simp [perform, Label.clock]
  | probe now =>
    rw [hother _ (by simp), TimeoutsAgree, ← late_marking_iff (l := .probe now) rfl rfl]
    simp [perform, Label.clock]
  | monitorPass now =>
    rw [TimeoutsAgree, ← late_marking_iff (l := .monitorPass now) rfl rfl, ← all_monitorPass_iff]
    constructor
    · exact fun h => ⟨fun n r' hr' hdown hnot => h.late _ rfl n r' hr' hdown hnot now,
        h.all now rfl⟩
    · rintro ⟨hlate, hall⟩
      refine ⟨fun m' hst n r' hr' hdown hnot _ => ?_, fun now' heq => ?_⟩
      · obtain rfl := Option.some.inj hst
        exact hlate n r' hr' hdown hnot
      · obtain rfl := Label.monitorPass.inj heq
        exact hall
  | sendHeartbeat req now =>
    rw [hother _ (by simp), ← late_heartbeat_iff]
    simp [perform, Label.clock]
  | registerNode | listenForCommands | takeCommand | reportJobStatus | submitJob | restart
    | runTask => exact iff_of_true (hquiet _ rfl (by simp)) trivial

/-- **Offline detection obeys the configured timeout** in exactly the runs in which the two
timeouts agree whenever nodes are marked. -/
theorem obeys_iff {tr : List (Label × Manager)} (h : (serial cfg).Run m tr) :
    LTS.StepsMeet (Obeys cfg) m tr ↔ LTS.StepsMeet (TimeoutsAgree cfg) m tr :=
  h.stepsMeet_congr (K := fun _ => True) (fun _ _ _ _ _ => trivial)
    (fun _ l _ => obeys_step l) trivial

/-- A heartbeat does not report `DISCONNECTED`; no agent does. -/
def ReportsUp : Label → Prop
  | .sendHeartbeat req _ => NodeState.ofText req.currentStatus ≠ .disconnected
  | _ => True

theorem timeoutsAgree_of_default (hT : cfg.offlineTimeoutSec = 15) (hl : ReportsUp l) :
    m.TimeoutsAgree cfg l := by
  have hcutoff : ∀ now : Time, now - cfg.offlineTimeoutSec = now - defaultTimeoutSeconds := by
    intro now
    rw [hT]
    rfl
  have hself : ∀ cutoff : Time, m.registry.StaleWithin cutoff cutoff := fun cutoff n r _ hstale =>
    (NodeRow.isStale_iff.1 hstale).1
  cases l with
  | schedulerPass now =>
    rw [TimeoutsAgree, hcutoff]
    exact fun _ => hself _
  | probe now =>
    rw [TimeoutsAgree, hcutoff]
    exact hself _
  | monitorPass now =>
    rw [TimeoutsAgree, hcutoff]
    exact ⟨hself _, hself _⟩
  | sendHeartbeat req now => exact fun htext => absurd htext hl
  | registerNode | listenForCommands | takeCommand | reportJobStatus | submitJob | restart
    | runTask => trivial

/-- The manager of a new database after one registration at time 0. -/
def oneNode (cfg : Setup) : Manager :=
  (((serve .empty []).perform cfg (.registerNode "node-1" "secret-1" Sample.node 0)).getD
    (serve .empty []))

theorem reachable_oneNode (cfg : Setup) :
    (serial cfg).Reachable (serve .empty []) (oneNode cfg) :=
  LTS.Reachable.of_exec (.registerNode "node-1" "secret-1" Sample.node 0) rfl

theorem getNode_oneNode (cfg : Setup) : (oneNode cfg).registry.getNode "node-1" =
    some ⟨"node-1", "worker", "10.0.0.1", 8, "None", "", .idle, 0, some "secret-1"⟩ := rfl

theorem staleWithin_oneNode (cfg : Setup) {cutoff cutoff' : Time}
    (h : (oneNode cfg).registry.StaleWithin cutoff cutoff') (hcutoff : 0 < cutoff) : 0 < cutoff' :=
  h "node-1" _ (getNode_oneNode cfg)
    (NodeRow.isStale_iff.2 ⟨hcutoff, by rintro ⟨⟩, by rintro ⟨⟩⟩)

/-- **Only the default timeout is obeyed**: all steps from all states of a new manager, but for
heartbeats that report `DISCONNECTED`, obey the configured timeout exactly if that is 15 seconds. -/
theorem obeys_forall_iff (cfg : Setup) :
    (∀ m, (serial cfg).Reachable (serve .empty []) m → ∀ l, ReportsUp l → m.Obeys cfg l) ↔
      cfg.offlineTimeoutSec = 15 := by
  constructor
  · intro hall
    -- half-way between the timeouts the node is late by the shorter one only
    set now : Time := (15 + cfg.offlineTimeoutSec) / 2 with hnow
    obtain ⟨hearly, hlate⟩ := (obeys_step _).1
      (hall _ (reachable_oneNode cfg) (.monitorPass now) trivial)
    have hdefault : now - defaultTimeoutSeconds = (cfg.offlineTimeoutSec - 15) / 2 := by
      rw [hnow, defaultTimeoutSeconds]
      ring
    have hconfigured : now - cfg.offlineTimeoutSec = (15 - cfg.offlineTimeoutSec) / 2 := by
      rw [hnow]
      ring
    rw [hdefault, hconfigured] at hearly hlate
    rcases lt_trichotomy (cfg.offlineTimeoutSec : ℚ) 15 with hlt | heq | hgt
    · have hpos := staleWithin_oneNode cfg hlate (by linarith)
      linarith
    · exact_mod_cast heq
    · have hpos := staleWithin_oneNode cfg hearly (by linarith)
      linarith
  · exact fun hT m _ l hl => (obeys_step l).2 (timeoutsAgree_of_default hT hl)

/-- A timeout of a minute. -/
def patient : Setup := { Sample.setup with offlineTimeoutSec := 60 }

/-- A probe of a node that has been silent for 20 seconds. -/
def probed : List Label := [.registerNode "node-1" "secret-1" Sample.node 0, .probe 20]

theorem obeys_iff_probed :
    let tr := LTS.runOf (perform patient) (serve .empty []) probed
    LTS.StepsMeet (Obeys patient) (serve .empty []) tr ↔
      LTS.StepsMeet (TimeoutsAgree patient) (serve .empty []) tr :=
  obeys_iff (LTS.run_runOf _ _ _)

/-- With the timeout of a minute, the probe marks the node. -/
theorem obeys_fails :
    ¬ ∀ (cfg : Setup) (tr : List (Label × Manager)), (serial cfg).Run (serve .empty []) tr →
      LTS.StepsMeet (Obeys cfg) (serve .empty []) tr := by
  intro hall
  obtain ⟨-, hprobe, -⟩ := hall patient _ (LTS.run_runOf (perform _) (serve .empty []) probed)
  have hstale := (obeys_step (.probe 20)).1 hprobe
  have hlt := staleWithin_oneNode patient hstale (by decide +kernel)
  exact absurd hlt (by decide +kernel)

end Manager

end Dmlf
