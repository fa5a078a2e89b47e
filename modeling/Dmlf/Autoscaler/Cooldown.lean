import Dmlf.Autoscaler.Policy
import Mathlib.Tactic.Linarith

/-!
# The cooldown of the autoscaler

An evaluation that scales in calls the callback first and writes `_last_scale_in` after that.  If
the callback raises, `_run_loop` goes on with the next evaluation, and the cooldown has not begun.

* `Autoscaler.cooled_iff` : all calls `callback("in")` are more than the cooldown apart exactly if
  no evaluation scales in within the cooldown of a call that raised.
* `Autoscaled.evaluate_autoscaler` : the autoscaler of a manager, whose callback does not raise.
-/

namespace Dmlf

/-- A call `callback("in")`: what the clock of its evaluation said, and whether it raised. -/
structure ScaleIn where
  time : Time
  raised : Bool

/-- The later call comes after the cooldown of the earlier one. -/
def AutoscalerSettings.Apart (settings : AutoscalerSettings) (a b : ScaleIn) : Prop :=
  (settings.scaleInCooldownSec : ℚ) < b.time - a.time

instance (settings : AutoscalerSettings) : DecidableRel settings.Apart := fun a b =>
  inferInstanceAs (Decidable ((settings.scaleInCooldownSec : ℚ) < b.time - a.time))

/-- An `Autoscaler`, with the calls `callback("in")` that it has made, the latest last, and the last
reading of its clock. -/
structure Autoscaler where
  lastScaleIn : Time
  clock : Time
  scaleIns : List ScaleIn

/-- What one evaluation reads, and whether the callback raises if it is called. -/
structure Evaluation where
  pending : ℤ
  nodeGauges : NodeGauges
  idleNodes : List NodeRow
  allNodes : List NodeRow
  now : Time
  raises : Bool

namespace Autoscaler

/-- An autoscaler that has just been made. -/
def new (clock : Time) : Autoscaler := ⟨0, clock, []⟩

variable (settings : AutoscalerSettings)

/-- The direction in which an evaluation calls the callback, if it does. -/
def decision (s : Autoscaler) (e : Evaluation) : Option ScaleDirection :=
  settings.decide e.pending (e.nodeGauges.averages e.idleNodes e.allNodes) s.lastScaleIn e.now

/-- The callback is called, and `_last_scale_in` written if it returns. -/
def scaleIn (s : Autoscaler) (e : Evaluation) : Autoscaler where
  lastScaleIn := if e.raises then s.lastScaleIn else e.now
  clock := e.now
  scaleIns := s.scaleIns ++ [⟨e.now, e.raises⟩]

/-- `_evaluate`, inside the `try` of `_run_loop`.  The clock does not go back. -/
def evaluate (s : Autoscaler) (e : Evaluation) : Option Autoscaler :=
  if s.clock ≤ e.now then
    some (if s.decision settings e = some .in then s.scaleIn e else { s with clock := e.now })
  else none

/-- The evaluations one after the other. -/
def lts : LTS Autoscaler Evaluation := LTS.ofExec (evaluate settings)

/-- Any two calls are more than the cooldown apart. -/
def Cooled (s : Autoscaler) : Prop :=
  s.scaleIns.Pairwise settings.Apart

/-- An evaluation does not scale in within the cooldown of a call that raised. -/
def RespectsRaised (s : Autoscaler) (e : Evaluation) : Prop :=
  s.decision settings e = some .in →
    ∀ a ∈ s.scaleIns, a.raised → settings.Apart a ⟨e.now, e.raises⟩

instance (s : Autoscaler) : Decidable (s.Cooled settings) :=
  inferInstanceAs (Decidable (s.scaleIns.Pairwise _))

instance (s : Autoscaler) (e : Evaluation) : Decidable (s.RespectsRaised settings e) :=
  inferInstanceAs (Decidable (_ → ∀ a ∈ s.scaleIns, _))

/-- A call that has not raised began the cooldown, and no call is in the future. -/
structure Recorded (s : Autoscaler) : Prop where
  past : ∀ a ∈ s.scaleIns, a.time ≤ s.clock
  begun : ∀ a ∈ s.scaleIns, a.raised = false → a.time ≤ s.lastScaleIn

variable {settings} {s s' : Autoscaler} {e : Evaluation}

theorem lt_of_decision (h : s.decision settings e = some .in) :
    (settings.scaleInCooldownSec : ℚ) < e.now - s.lastScaleIn := by
  unfold decision AutoscalerSettings.decide at h
  split_ifs at h with hout hin
  · cases h
  · exact hin.2.2.2

theorem evaluate_cases (h : s.evaluate settings e = some s') :
    s.clock ≤ e.now ∧ (s.decision settings e = some .in ∧ s' = s.scaleIn e ∨
      s.decision settings e ≠ some .in ∧ s' = { s with clock := e.now }) := by
  obtain ⟨hclock, heq⟩ := Option.ite_none_right_eq_some.1 h
  obtain rfl := Option.some.inj heq
  refine ⟨hclock, ?_⟩
  split_ifs with hin
  · exact .inl ⟨hin, rfl⟩
  · exact .inr ⟨hin, rfl⟩

theorem mem_scaleIns_scaleIn {a : ScaleIn} :
    a ∈ (s.scaleIn e).scaleIns ↔ a ∈ s.scaleIns ∨ a = ⟨e.now, e.raises⟩ := by
  simp [scaleIn]

theorem recorded_step : (lts settings).Preserves Recorded := by
  intro s e s' hst h
  obtain ⟨hclock, ⟨hin, rfl⟩ | ⟨-, rfl⟩⟩ := evaluate_cases hst
  · refine ⟨fun a ha => ?_, fun a ha hraised => ?_⟩
    · rcases mem_scaleIns_scaleIn.1 ha with hold | rfl
      · exact (h.past a hold).trans hclock
      · exact le_rfl
    · rcases mem_scaleIns_scaleIn.1 ha with hold | rfl
      · -- a cooldown that has begun before does not end earlier now
        simp only [scaleIn]
        split_ifs
        · exact h.begun a hold hraised
        · exact (h.past a hold).trans hclock
      · change e.raises = false at hraised
        simp [scaleIn, hraised]
  · exact ⟨fun a ha => (h.past a ha).trans hclock, h.begun⟩

/-- A call is made after the cooldown of all earlier ones exactly if it respects those that
raised. -/
theorem apart_iff_respectsRaised (h : s.Recorded) (hin : s.decision settings e = some .in) :
    (∀ a ∈ s.scaleIns, settings.Apart a ⟨e.now, e.raises⟩) ↔ s.RespectsRaised settings e := by
  constructor
  · exact fun hall _ a ha _ => hall a ha
  · intro hrespects a ha
    cases hraised : a.raised with
    | true => exact hrespects hin a ha hraised
    | false =>
      have hlast := lt_of_decision hin
      have hbegun := h.begun a ha hraised
      change (settings.scaleInCooldownSec : ℚ) < e.now - a.time
      linarith

theorem cooled_step (hrec : s.Recorded) (h : s.Cooled settings)
    (hst : s.evaluate settings e = some s') :
    s'.Cooled settings ↔ s.RespectsRaised settings e := by
  obtain ⟨-, ⟨hin, rfl⟩ | ⟨hnot, rfl⟩⟩ := evaluate_cases hst
  · rw [← apart_iff_respectsRaised hrec hin]
    constructor
    · intro hcooled a ha
      exact (List.pairwise_append.1 hcooled).2.2 a ha _ List.mem_cons_self
    · intro hall
      refine List.pairwise_append.2 ⟨h, List.pairwise_singleton _ _, fun a ha b hb => ?_⟩
      rw [List.mem_singleton.1 hb]
      exact hall a ha
  · exact iff_of_true h fun hin => absurd hin hnot

/-- **The scale-in cooldown.**  In a run of evaluations any two calls `callback("in")` are more than
the cooldown apart, at all times, exactly if no evaluation scales in within the cooldown of a call
that raised. -/
theorem cooled_iff {clock : Time} {tr : List (Evaluation × Autoscaler)}
    (h : (lts settings).Run (new clock) tr) :
    LTS.StatesMeet (Cooled settings) (new clock) tr ↔
      LTS.StepsMeet (RespectsRaised settings) (new clock) tr :=
  h.statesMeet_iff_stepsMeet recorded_step (fun _ _ _ hrec hs hst => cooled_step hrec hs hst)
    ⟨by simp [new], by simp [new]⟩ .nil

end Autoscaler

namespace Sample

/-- An evaluation with an empty queue and no nodes, whose callback acts and then raises or not. -/
def quiet (now : Time) (raises : Bool) : Evaluation := ⟨0, .zero, [], [], now, raises⟩

end Sample

namespace Autoscaler

/-- Two evaluations whose callback raises, one after the end of the cooldown of the other. -/
theorem cooled_iff_late :
    let tr := LTS.runOf (evaluate Sample.autoscaler) (new 1000)
      [Sample.quiet 1000 true, Sample.quiet 1301 true]
    LTS.StatesMeet (Cooled Sample.autoscaler) (new 1000) tr ↔
      LTS.StepsMeet (RespectsRaised Sample.autoscaler) (new 1000) tr :=
  cooled_iff (LTS.run_runOf _ _ _)

/-- A callback that raises is called again by the next evaluation. -/
theorem cooled_fails :
    ¬ ∀ (settings : AutoscalerSettings) (clock : Time) (s : Autoscaler),
      (lts settings).Reachable (new clock) s → s.Cooled settings := by
  intro hall
  obtain ⟨s, hs, hp⟩ := LTS.exists_of_exec (evaluate Sample.autoscaler) (new 1000)
    [Sample.quiet 1000 true, Sample.quiet 1030 false]
    (fun s => decide ¬ s.Cooled Sample.autoscaler) (by decide +kernel)
  exact of_decide_eq_true hp (hall _ _ s hs)

end Autoscaler

namespace Autoscaled

variable {cfg : Setup} {settings : AutoscalerSettings} {s s' : Autoscaled}

/-- What an evaluation in the process of a manager reads. -/
def evaluation (s : Autoscaled) (idleNow allNow now : Time) : Evaluation :=
  ⟨s.conf.mgr.gauges.jobsQueued, s.nodeGauges, s.idleNodes idleNow, s.allNodes idleNow allNow, now,
    false⟩

/-- **The autoscaler of a manager** evaluates as any autoscaler, with a callback that does not
raise. -/
theorem evaluate_autoscaler {idleNow allNow now clock : Time} {scaleIns : List ScaleIn}
    (hclock : clock ≤ now) (h : s.exec cfg settings (.evaluate idleNow allNow now) = some s') :
    ∃ a', Autoscaler.evaluate settings ⟨s.lastScaleIn, clock, scaleIns⟩
        (s.evaluation idleNow allNow now) = some a' ∧ a'.lastScaleIn = s'.lastScaleIn := by
  obtain rfl := Option.some.inj h
  have hdecision : Autoscaler.decision settings ⟨s.lastScaleIn, clock, scaleIns⟩
      (s.evaluation idleNow allNow now) = s.decision settings idleNow allNow now := rfl
  refine ⟨_, if_pos hclock, ?_⟩
  rw [hdecision]
  split_ifs <;> rfl

end Autoscaled

end Dmlf
