import Dmlf.Training.Trainer
import Mathlib.Tactic.Linarith

/-!
# What a crash of a training run loses

`train` looks at the clock behind each epoch, and saves a checkpoint when the last one, or the start
of the run, is as long ago as the interval.  A crash at any time loses the epoch that is being
trained, and what has been trained since the last checkpoint.

* `Chain.checkpoint_cases` : the test behind an epoch, with or without a checkpoint.
* `Chain.loss_reachable` : the epochs that a crash loses have all been tested within one interval.
-/

namespace Dmlf

variable {σ : Type*}

/-- The last reading of the clock, and what the run that is going on has trained after each of its
epochs, with the time of the test behind the epoch. -/
structure TrainLog (σ : Type*) where
  clock : Time
  tested : List (Trained σ × Time)

namespace Chain

/-- The log after a step. -/
def log (c : Chain σ) (g : TrainLog σ) : Label → TrainLog σ
  | .start _ _ _ now _ => ⟨now, []⟩
  | .checkpoint now later =>
    match c.run with
    | some (t, .trained _) =>
      ⟨if t.CheckpointDue now then later else now, g.tested ++ [(t.trained, now)]⟩
    | _ => g
  | .trainEpoch | .finish | .crash => g

/-- The clock does not go back in a run. -/
def Ticks (x : Chain σ × TrainLog σ) : Label → Prop
  | .checkpoint now _ => x.2.clock ≤ now
  | _ => True

variable (f : ℤ → σ → σ) (init : σ)

/-- Runs of training with their log. -/
def logged : LTS (Chain σ × TrainLog σ) Label := ((lts f init).recorded log).restrict Ticks

/-- What has been trained is in the file that has been written last. -/
def Saved (c : Chain σ) (trained : Trained σ) : Prop :=
  ∃ file ∈ c.written.getLast?, trained.epochs <+: file.2.trained.epochs

/-- What holds for a trainer on rank 0 and its log. -/
structure Covered (c : Chain σ) (g : TrainLog σ) (t : DDPTrainer σ) : Prop where
  past : t.lastCheckpointTime ≤ g.clock
  trained : ∀ x ∈ g.tested, x.1.epochs <+: t.trained.epochs
  /-- What has not been saved has been tested since the last checkpoint. -/
  since : ∀ x ∈ g.tested, c.Saved x.1 ∨ t.lastCheckpointTime ≤ x.2
  /-- The last test has saved everything, or has come before the next checkpoint was due. -/
  last : (∀ x ∈ g.tested, c.Saved x.1) ∨ ∀ y ∈ g.tested.getLast?, ¬ t.CheckpointDue y.2

variable {f init} {c c' : Chain σ} {g g' : TrainLog σ} {t : DDPTrainer σ} {l : Label}

/-- **The test behind an epoch.** -/
theorem checkpoint_cases {now later : Time} (h : exec f init c (.checkpoint now later) = some c') :
    ∃ t epoch, c.run = some (t, .trained epoch) ∧
      (t.CheckpointDue now ∧ c' = ⟨some (t.saved later, .next (epoch + 1)),
          c.written ++ (t.saveCheckpoint epoch).toList⟩ ∨
        ¬ t.CheckpointDue now ∧ c' = { c with run := some (t, .next (epoch + 1)) }) := by
  simp only [exec] at h
  split at h
  · rename_i t epoch hrun
    refine ⟨t, epoch, hrun, ?_⟩
    split_ifs at h with hdue
    · exact .inl ⟨hdue, (Option.some.inj h).symm⟩
    · exact .inr ⟨hdue, (Option.some.inj h).symm⟩
  · cases h

theorem covered_new (c : Chain σ) {now : Time} (h : t.lastCheckpointTime = now) :
    Covered c ⟨now, []⟩ t where
  past := h.le
  trained := fun _ hx => absurd hx List.not_mem_nil
  since := fun _ hx => absurd hx List.not_mem_nil
  last := .inl fun _ hx => absurd hx List.not_mem_nil

theorem Covered.trainEpoch (h : Covered c g t) (hc : c'.written = c.written) (epoch : ℤ) :
    Covered c' g (t.trainEpoch f epoch) := by
  have hsaved : ∀ trained, c.Saved trained → c'.Saved trained := by
    intro trained hs
    rwa [Saved, hc]
  refine ⟨h.past, fun x hx => (h.trained x hx).trans (List.prefix_append _ _), fun x hx => ?_, ?_⟩
  · exact (h.since x hx).imp_left (hsaved _)
  · exact h.last.imp_left fun hall x hx => hsaved _ (hall x hx)

theorem Covered.save (h : Covered c g t) (now later : Time) (epoch : ℤ) (hrank : t.rank = 0) :
    Covered ⟨some (t.saved later, .next (epoch + 1)), c.written ++ (t.saveCheckpoint epoch).toList⟩
      ⟨later, g.tested ++ [(t.trained, now)]⟩ (t.saved later) := by
  have htrained : ∀ x ∈ g.tested ++ [(t.trained, now)], x.1.epochs <+: t.trained.epochs := by
    intro x hx
    rcases List.mem_append.1 hx with hold | hnew
    · exact h.trained x hold
    · obtain rfl := List.mem_singleton.1 hnew
      exact List.prefix_rfl
  have hsaved : ∀ x ∈ g.tested ++ [(t.trained, now)],
      Saved ⟨some (t.saved later, .next (epoch + 1)),
        c.written ++ (t.saveCheckpoint epoch).toList⟩ x.1 := by
    intro x hx
    refine ⟨(epoch, ⟨epoch, t.trained⟩), ?_, htrained x hx⟩
    simp [DDPTrainer.saveCheckpoint, hrank]
  have hself : t.saved later = { t with lastCheckpointTime := later } := if_pos hrank
  refine ⟨?_, ?_, fun x hx => .inl (hsaved x hx), .inl hsaved⟩
  · rw [hself]
  · rw [hself]
    exact htrained

theorem Covered.skip (h : Covered c g t) {now : Time} (hnow : g.clock ≤ now)
    (hdue : ¬ t.CheckpointDue now) (hc : c'.written = c.written) :
    Covered c' ⟨now, g.tested ++ [(t.trained, now)]⟩ t := by
  refine ⟨h.past.trans hnow, fun x hx => ?_, fun x hx => ?_, .inr fun y hy => ?_⟩
  · rcases List.mem_append.1 hx with hold | hnew
    · exact h.trained x hold
    · obtain rfl := List.mem_singleton.1 hnew
      exact List.prefix_rfl
  · rcases List.mem_append.1 hx with hold | hnew
    · refine (h.since x hold).imp_left fun hs => ?_
      rwa [Saved, hc]
    · obtain rfl := List.mem_singleton.1 hnew
      exact .inr (h.past.trans hnow)
  · obtain rfl : (t.trained, now) = y := by simpa using hy
    exact hdue

/-- The run that is going on is covered, if it is one of rank 0. -/
def RunCovered (x : Chain σ × TrainLog σ) : Prop :=
  ∀ t phase, x.1.run = some (t, phase) → t.rank = 0 → Covered x.1 x.2 t

theorem runCovered_step : (logged f init).Preserves RunCovered := by
  rintro ⟨c, g⟩ l ⟨c', g'⟩ ⟨hticks, hst, hlog⟩ h t phase hrun hrank
  obtain rfl : g' = c.log g l := hlog
  have hst : exec f init c l = some c' := hst
  cases l with
  | start epochs rank minutes now resume =>
    obtain ⟨-, -, hnew⟩ := start_step hst
    obtain ⟨rfl, rfl⟩ := Prod.mk.inj (Option.some.inj (hnew.symm.trans hrun))
    refine covered_new c' ?_
    rcases trainer_cases init c epochs rank minutes now resume with heq | ⟨file, -, heq⟩ <;>
      rw [heq] <;> rfl
  | trainEpoch =>
    obtain ⟨t₀, epoch, ht₀, -, hnew, hwritten⟩ := trainEpoch_step hst
    obtain ⟨rfl, rfl⟩ := Prod.mk.inj (Option.some.inj (hnew.symm.trans hrun))
    exact (h t₀ _ ht₀ hrank).trainEpoch hwritten epoch
  | checkpoint now later =>
    obtain ⟨t₀, epoch, ht₀, ⟨hdue, rfl⟩ | ⟨hdue, rfl⟩⟩ := checkpoint_cases hst
    · obtain ⟨rfl, rfl⟩ := Prod.mk.inj (Option.some.inj hrun)
      have hrank₀ : t₀.rank = 0 := by
        unfold DDPTrainer.saved at hrank
        split_ifs at hrank with h₀
        · exact h₀
        · exact hrank
      have hlog : c.log g (.checkpoint now later) = ⟨later, g.tested ++ [(t₀.trained, now)]⟩ := by
        have ht₀ : c.run = some (t₀, .trained epoch) := ht₀
        simp only [log, ht₀, if_pos hdue]
      rw [hlog]
      exact (h t₀ _ ht₀ hrank₀).save now later epoch hrank₀
    · obtain ⟨rfl, rfl⟩ := Prod.mk.inj (Option.some.inj hrun)
      have hlog : c.log g (.checkpoint now later) = ⟨now, g.tested ++ [(t₀.trained, now)]⟩ := by
        have ht₀ : c.run = some (t₀, .trained epoch) := ht₀
        simp only [log, ht₀, if_neg hdue]
      rw [hlog]
      exact (h t₀ _ ht₀ hrank).skip hticks hdue rfl
  | finish =>
    obtain ⟨-, -, -, -, hnone, -⟩ := finish_step hst
    cases hnone.symm.trans hrun
  | crash =>
    obtain rfl := Option.some.inj hst
    cases hrun

/-- **A crash loses the work of one interval at most**, besides the epoch that is being trained.  At
any time of any run on rank 0, with any crashes before, each epoch that the run has completed is in
the file that has been written last, or the test behind it was less than the checkpoint interval
before the last one.  The test, the save and the new `last_checkpoint_time` are one step, so no
crash falls within a save. -/
theorem loss_reachable {g₀ : TrainLog σ} (h : (logged f init).Reachable (empty, g₀) (c, g))
    {phase : TrainPhase} (hrun : c.run = some (t, phase)) (hrank : t.rank = 0) :
    ∀ x ∈ g.tested, c.Saved x.1 ∨
      ∀ y ∈ g.tested.getLast?, y.2 - x.2 < t.checkpointIntervalSeconds := by
  have hstep : (logged f init).Preserves RunCovered := runCovered_step
  have hcovered : Covered c g t := h.keeps hstep
    (fun _ _ hnone => by cases hnone) t phase hrun hrank
  intro x hx
  rcases hcovered.since x hx with hsaved | hsince
  · exact .inl hsaved
  · rcases hcovered.last with hall | hlast
    · exact .inl (hall x hx)
    · refine .inr fun y hy => ?_
      have hdue := not_le.1 (hlast y hy)
      linarith

instance (x : Chain σ × TrainLog σ) : DecidablePred (Ticks x)
  | .checkpoint now _ => inferInstanceAs (Decidable (x.2.clock ≤ now))
  | .start .. | .trainEpoch | .finish | .crash => .isTrue trivial

/-- Three epochs with a checkpoint each minute: the second test saves, and the third one does
not. -/
def thirdEpoch : List Label :=
  [.start 5 0 1 0 none, .trainEpoch, .checkpoint 30 30, .trainEpoch, .checkpoint 70 71, .trainEpoch,
    .checkpoint 100 100]

/-- The first two epochs are saved, and the third one has been tested last. -/
theorem loss_reachable_thirdEpoch :
    let x := LTS.last (empty, (⟨0, []⟩ : TrainLog ℕ)) (LTS.record log empty ⟨0, []⟩
      (LTS.runOf (exec (fun _ n => n + 1) 0) empty thirdEpoch))
    (x.1.written.length = 1 ∧ x.2.tested.map Prod.snd = [30, 70, 100]) ∧
      ∃ t phase, x.1.run = some (t, phase) ∧ ∀ y ∈ x.2.tested, x.1.Saved y.1 ∨
        ∀ z ∈ x.2.tested.getLast?, z.2 - y.2 < t.checkpointIntervalSeconds := by
  intro x
  refine ⟨by decide +kernel, ?_⟩
  have hreach : (logged (fun _ n => n + 1) 0).Reachable (empty, ⟨0, []⟩) x :=
    (((LTS.run_runOf _ _ _).record _ _).restrict (by decide +kernel)).reachable
  obtain ⟨⟨t, phase⟩, hrun, hrank⟩ := (Option.any_eq_true _ _).1
    (show x.1.run.any (fun r => decide (r.1.rank = 0)) = true by decide +kernel)
  exact ⟨t, phase, hrun, loss_reachable hreach hrun (of_decide_eq_true hrank)⟩

end Chain

end Dmlf
