import Dmlf.Manager.Tasks
import Mathlib.Algebra.BigOperators.Group.List.Basic

/-!
# The autoscaler

`Autoscaler._evaluate` (`dmlf/autoscaler/policy.py`) compares the queue gauge and averages of the
per-node gauges `NODE_CPU` and `NODE_GPU_UTIL` with its thresholds.  A heartbeat writes its
metrics to the `metrics` table, and nothing in the manager's process sets a per-node gauge:
`set_node_cpu` and `set_node_gpu` have no caller.

* `gaugeAvg_eq_mean` : `gauge_avg` is the mean of the values it finds.
* `Autoscaled.actsOnLoad_iff` : the averages are those of the load that the nodes reported exactly
  if these are zero.
-/

namespace Dmlf

/-! ### The policy -/

/-- The `autoscaler` section of the settings. -/
structure AutoscalerSettings where
  queueDepthHigh : ℤ
  avgCpuHigh : ℚ
  avgGpuHigh : ℚ
  queueDepthLow : ℤ
  avgCpuLow : ℚ
  avgGpuLow : ℚ
  scaleInCooldownSec : ℤ

/-- The argument of the callback. -/
inductive ScaleDirection where
  | out
  | in
  deriving DecidableEq

/-- The gauges `NODE_CPU` and `NODE_GPU_UTIL`, by node id.  A label that has not been set is 0. -/
structure NodeGauges where
  cpu : String → ℚ
  gpuUtil : String → ℚ

/-- The gauges of a process that has just started. -/
def NodeGauges.zero : NodeGauges := ⟨fun _ => 0, fun _ => 0⟩

/-- `gauge_avg`: the average over the nodes with a value. -/
def gaugeAvg (gauge : String → Option ℚ) (nodes : List NodeRow) : ℚ :=
  let (total, cnt) := nodes.foldl
    (fun (total, cnt) n =>
      match gauge n.nodeId with
      | some val => (total + val, cnt + 1)
      | none => (total, cnt))
    ((0, 0) : ℚ × ℕ)
  if cnt = 0 then 0 else total / cnt

/-- The four averages of an evaluation. -/
structure Averages where
  cpuIdle : ℚ
  gpuIdle : ℚ
  cpuAll : ℚ
  gpuAll : ℚ
  deriving DecidableEq

/-- The averages of the gauges. -/
def NodeGauges.averages (gauges : NodeGauges) (idleNodes allNodes : List NodeRow) : Averages where
  cpuIdle := gaugeAvg (fun n => some (gauges.cpu n)) idleNodes
  gpuIdle := gaugeAvg (fun n => some (gauges.gpuUtil n)) idleNodes
  cpuAll := gaugeAvg (fun n => some (gauges.cpu n)) allNodes
  gpuAll := gaugeAvg (fun n => some (gauges.gpuUtil n)) allNodes

/-- The decision of `_evaluate`. -/
def AutoscalerSettings.decide (s : AutoscalerSettings) (pending : ℤ) (avg : Averages)
    (lastScaleIn now : Time) : Option ScaleDirection :=
  if s.queueDepthHigh < pending ∨ s.avgCpuHigh < avg.cpuIdle ∨ s.avgGpuHigh < avg.gpuIdle then
    some .out
  else if pending ≤ s.queueDepthLow ∧ avg.cpuAll < s.avgCpuLow ∧ avg.gpuAll < s.avgGpuLow ∧
      s.scaleInCooldownSec < now - lastScaleIn then
    some .in
  else none

/-! ### A manager with its autoscaler -/

/-- A manager with the autoscaler that runs in its process. -/
structure Autoscaled where
  conf : Conf
  nodeGauges : NodeGauges
  lastScaleIn : Time

/-- What happens to it: a call of the manager, or an evaluation with its three readings of the
clock. -/
inductive AutoscaledMove where
  | manager (l : Label)
  | evaluate (idleNow allNow now : Time)

namespace Autoscaled

variable (cfg : Setup) (settings : AutoscalerSettings) (s : Autoscaled)

/-- A manager that has just started. -/
def start (reg : Registry) : Autoscaled := ⟨.start reg, .zero, 0⟩

/-- `get_available_nodes`, as the evaluation reads it. -/
def idleNodes (idleNow : Time) : List NodeRow :=
  (s.conf.mgr.registry.getAvailableNodes idleNow).2

/-- `get_all_nodes`, as the evaluation reads it after that. -/
def allNodes (idleNow allNow : Time) : List NodeRow :=
  ((s.conf.mgr.registry.getAvailableNodes idleNow).1.getAllNodes allNow).2

/-- The averages that an evaluation uses. -/
def averages (idleNow allNow : Time) : Averages :=
  s.nodeGauges.averages (s.idleNodes idleNow) (s.allNodes idleNow allNow)

/-- The direction in which an evaluation calls the callback, if it does. -/
def decision (idleNow allNow now : Time) : Option ScaleDirection :=
  settings.decide s.conf.mgr.gauges.jobsQueued (s.averages idleNow allNow) s.lastScaleIn now

/-- What a call of the manager leaves.  Gauges and autoscaler are new in a new process. -/
def afterCall (conf : Conf) : Label → Autoscaled
  | .restart => ⟨conf, .zero, 0⟩
  | _ => { s with conf }

/-- One move. -/
def exec : AutoscaledMove → Option Autoscaled
  | .manager l => (Conf.exec cfg s.conf l).map fun conf => s.afterCall conf l
  | .evaluate idleNow allNow now =>
    some { s with
      conf := ⟨(s.conf.mgr.probe idleNow).probe allNow, s.conf.tasks⟩
      lastScaleIn := if s.decision settings idleNow allNow now = some .in then now
        else s.lastScaleIn }

/-- A manager with its autoscaler as a transition system. -/
def lts : LTS Autoscaled AutoscaledMove := LTS.ofExec (exec cfg settings)

end Autoscaled

/-! ### The load -/

/-- The arithmetic mean, `0` for the empty list. -/
def mean (l : List ℚ) : ℚ := l.sum / l.length

/-- The metrics that a node has reported last. -/
def Registry.lastReport (reg : Registry) (nodeId : String) : Option MetricRow :=
  (reg.metrics.filter fun r => r.nodeId = nodeId).getLast?

/-- The mean of what the nodes have reported last, those without a report left out. -/
def Registry.meanReport (reg : Registry) (f : MetricRow → ℚ) (nodes : List NodeRow) : ℚ :=
  mean (nodes.filterMap fun n => (reg.lastReport n.nodeId).map f)

/-- The means of the reported load. -/
def Registry.load (reg : Registry) (idleNodes allNodes : List NodeRow) : Averages where
  cpuIdle := reg.meanReport MetricRow.cpuPercent idleNodes
  gpuIdle := reg.meanReport MetricRow.gpuUtilization idleNodes
  cpuAll := reg.meanReport MetricRow.cpuPercent allNodes
  gpuAll := reg.meanReport MetricRow.gpuUtilization allNodes

theorem foldl_gaugeAvg (gauge : String → Option ℚ) (nodes : List NodeRow) (total : ℚ) (cnt : ℕ) :
    nodes.foldl
      (fun (total, cnt) n =>
        match gauge n.nodeId with
        | some val => (total + val, cnt + 1)
        | none => (total, cnt)) (total, cnt) =
      (total + (nodes.filterMap fun n => gauge n.nodeId).sum,
        cnt + (nodes.filterMap fun n => gauge n.nodeId).length) := by
  induction nodes generalizing total cnt with
  | nil => simp
  | cons n nodes ih =>
    rw [List.foldl_cons, List.filterMap_cons]
    cases hn : gauge n.nodeId with
    | none => exact ih total cnt
    | some val =>
      refine (ih (total + val) (cnt + 1)).trans ?_
      simp only [List.sum_cons, List.length_cons]
      rw [add_assoc, Nat.add_assoc, Nat.add_comm 1]

/-- **`gauge_avg` is the mean of the values it finds.** -/
theorem gaugeAvg_eq_mean (gauge : String → Option ℚ) (nodes : List NodeRow) :
    gaugeAvg gauge nodes = mean (nodes.filterMap fun n => gauge n.nodeId) := by
  unfold gaugeAvg mean
  rw [foldl_gaugeAvg]
  simp only [zero_add]
  split_ifs with h
  · rw [h, Nat.cast_zero, div_zero]
  · rfl

namespace Autoscaled

variable {cfg : Setup} {settings : AutoscalerSettings} {s s' : Autoscaled}

/-- The load that the nodes of an evaluation have reported. -/
def load (s : Autoscaled) (idleNow allNow : Time) : Averages :=
  s.conf.mgr.registry.load (s.idleNodes idleNow) (s.allNodes idleNow allNow)

/-- An evaluation acts on the reported load: its averages are the means of the reports, and it
does not scale in under a load that is not low. -/
def ActsOnLoad (settings : AutoscalerSettings) (s : Autoscaled) : AutoscaledMove → Prop
  | .evaluate idleNow allNow now =>
    s.averages idleNow allNow = s.load idleNow allNow ∧
      (s.decision settings idleNow allNow now = some .in →
        (s.load idleNow allNow).cpuAll < settings.avgCpuLow ∧
          (s.load idleNow allNow).gpuAll < settings.avgGpuLow)
  | .manager _ => True

/-- The reported load is zero when it is evaluated. -/
def LoadIsZero (s : Autoscaled) : AutoscaledMove → Prop
  | .evaluate idleNow allNow _ => s.load idleNow allNow = ⟨0, 0, 0, 0⟩
  | .manager _ => True

instance (s : Autoscaled) : ∀ mv, Decidable (s.ActsOnLoad settings mv)
  | .manager _ => .isTrue trivial
  | .evaluate idleNow allNow now => inferInstanceAs (Decidable
      (s.averages idleNow allNow = s.load idleNow allNow ∧
        (s.decision settings idleNow allNow now = some .in →
          (s.load idleNow allNow).cpuAll < settings.avgCpuLow ∧
            (s.load idleNow allNow).gpuAll < settings.avgGpuLow)))

theorem averages_zero (idleNodes allNodes : List NodeRow) :
    NodeGauges.zero.averages idleNodes allNodes = ⟨0, 0, 0, 0⟩ := by
  have hmean : ∀ nodes : List NodeRow, gaugeAvg (fun _ => some 0) nodes = 0 := by
    intro nodes
    rw [gaugeAvg_eq_mean, mean]
    have hsum : (nodes.filterMap fun _ => some (0 : ℚ)).sum = 0 := List.sum_eq_zero (by simp)
    rw [hsum, zero_div]
  simp only [NodeGauges.averages, NodeGauges.zero, hmean]

theorem low_of_decide {pending : ℤ} {avg : Averages} {lastScaleIn now : Time}
    (h : settings.decide pending avg lastScaleIn now = some .in) :
    avg.cpuAll < settings.avgCpuLow ∧ avg.gpuAll < settings.avgGpuLow := by
  unfold AutoscalerSettings.decide at h
  split_ifs at h with hout hin
  · cases h
  · exact ⟨hin.2.1, hin.2.2.1⟩

/-- **Nothing sets the per-node gauges.** -/
theorem preserves_nodeGauges : (lts cfg settings).Preserves fun s => s.nodeGauges = .zero := by
  intro s mv s' hst hs
  cases mv with
  | manager l =>
    obtain ⟨conf, -, rfl⟩ := Option.map_eq_some_iff.1 hst
    unfold afterCall
    split
    · rfl
    · exact hs
  | evaluate =>
    obtain rfl := Option.some.inj hst
    exact hs

theorem actsOnLoad_evaluate (hs : s.nodeGauges = .zero) (mv : AutoscaledMove) :
    s.ActsOnLoad settings mv ↔ s.LoadIsZero mv := by
  cases mv with
  | manager => exact Iff.rfl
  | evaluate idleNow allNow now =>
    have havg : s.averages idleNow allNow = ⟨0, 0, 0, 0⟩ := by
      rw [averages, hs, averages_zero]
    constructor
    · rintro ⟨hload, -⟩
      exact hload.symm.trans havg
    · intro hzero
      have hload : s.averages idleNow allNow = s.load idleNow allNow := havg.trans hzero.symm
      exact ⟨hload, fun hin => hload ▸ low_of_decide hin⟩

/-- **The autoscaler acts on the reported load, exactly if that is zero.**  In a run of a manager
with its autoscaler, all evaluations average what the nodes have reported, and scale in under low
load only, if and only if at each of them the four means of the reports are zero. -/
theorem actsOnLoad_iff {reg : Registry} {tr : List (AutoscaledMove × Autoscaled)}
    (h : (lts cfg settings).Run (start reg) tr) :
    LTS.StepsMeet (ActsOnLoad settings) (start reg) tr ↔
      LTS.StepsMeet LoadIsZero (start reg) tr :=
  h.stepsMeet_congr preserves_nodeGauges (fun _ mv hs => actsOnLoad_evaluate hs mv) rfl

end Autoscaled

namespace Sample

/-- The default settings of the autoscaler. -/
def autoscaler : AutoscalerSettings := ⟨5, 80, 70, 0, 20, 10, 300⟩

/-- A node joins, reports how busy its CPU is, and the autoscaler evaluates that. -/
def evaluateOne (cpuPercent : ℚ) : List AutoscaledMove :=
  [.manager (.registerNode "node-1" "secret-1" node 1000), .manager (.runTask 0 1000),
    .manager (.sendHeartbeat ⟨"node-1", ⟨cpuPercent, 20, 0, 0⟩, "IDLE", 1001⟩ 1001),
    .evaluate 1002 1002 1002]

end Sample

namespace Autoscaled

/-- The run in which the only node reports an idle CPU. -/
theorem actsOnLoad_iff_idle :
    let tr := LTS.runOf (exec Sample.setup Sample.autoscaler) (start .empty) (Sample.evaluateOne 0)
    LTS.StepsMeet (ActsOnLoad Sample.autoscaler) (start .empty) tr ↔
      LTS.StepsMeet LoadIsZero (start .empty) tr :=
  actsOnLoad_iff (LTS.run_runOf _ _ _)

/-- The only node reports a busy CPU, and the autoscaler scales in. -/
theorem actsOnLoad_fails :
    ¬ ∀ (cfg : Setup) (settings : AutoscalerSettings) (tr : List (AutoscaledMove × Autoscaled)),
      (lts cfg settings).Run (start .empty) tr →
      LTS.StepsMeet (ActsOnLoad settings) (start .empty) tr := by
  intro hall
  have hrun := hall Sample.setup Sample.autoscaler _
    (LTS.run_runOf (exec Sample.setup Sample.autoscaler) (start .empty) (Sample.evaluateOne 95))
  exact absurd hrun (by decide +kernel)

end Autoscaled

end Dmlf
