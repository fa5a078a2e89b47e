import Dmlf.LTS.Basic
import Dmlf.Registry.Basic
import Mathlib.Data.List.Range

/-!
# The trainer

`DDPTrainer` (`dmlf/training/trainer.py`) trains the epochs of a range, saves a checkpoint after an
epoch when the last one is old enough, and saves a final one.  `train.py` starts it from scratch or
from a checkpoint file.  One epoch is a function of its number and of the state of the model and
the optimizer; a file is written whole or not at all.

* `Chain.exec` : runs of training one after the other, each of which may crash anywhere, and the
  files that they write.
* `Chain.written_step` : what one step writes.
-/

namespace Dmlf

variable {σ : Type*}

/-- The state of the model and the optimizer, with the epochs that it has been trained for. -/
structure Trained (σ : Type*) where
  state : σ
  /-- The numbers of the epochs, the first one in front; no part of the source. -/
  epochs : List ℤ
  deriving DecidableEq

/-- What a checkpoint file contains. -/
structure Checkpoint (σ : Type*) where
  epoch : ℤ
  trained : Trained σ
  deriving DecidableEq

/-- `DDPTrainer`, without what it logs. -/
structure DDPTrainer (σ : Type*) where
  trained : Trained σ
  epochs : ℤ
  rank : ℤ
  checkpointIntervalSeconds : ℤ
  lastCheckpointTime : Time
  currentEpoch : ℤ
  deriving DecidableEq

namespace DDPTrainer

/-- `DDPTrainer.__init__`. -/
def new (state : σ) (epochs rank checkpointIntervalMinutes : ℤ) (now : Time) : DDPTrainer σ where
  trained := ⟨state, []⟩
  epochs := epochs
  rank := rank
  checkpointIntervalSeconds := checkpointIntervalMinutes * 60
  lastCheckpointTime := now
  currentEpoch := 0

/-- `load_checkpoint`, with what is in the file, if there is one. -/
def loadCheckpoint (t : DDPTrainer σ) (file : Option (Checkpoint σ)) : DDPTrainer σ :=
  match file with
  | none => t
  | some checkpoint =>
    { t with trained := checkpoint.trained, currentEpoch := checkpoint.epoch + 1 }

/-- The file that `save_checkpoint` writes: `checkpoint_epoch_{epoch}.pt`, on rank 0 only. -/
def saveCheckpoint (t : DDPTrainer σ) (epoch : ℤ) : Option (ℤ × Checkpoint σ) :=
  if t.rank = 0 then some (epoch, ⟨epoch, t.trained⟩) else none

/-- What `save_checkpoint` changes in the trainer. -/
def saved (t : DDPTrainer σ) (now : Time) : DDPTrainer σ :=
  if t.rank = 0 then { t with lastCheckpointTime := now } else t

/-- One epoch of the loop in `train`. -/
def trainEpoch (f : ℤ → σ → σ) (t : DDPTrainer σ) (epoch : ℤ) : DDPTrainer σ :=
  { t with trained := ⟨f epoch t.trained.state, t.trained.epochs ++ [epoch]⟩ }

/-- The last checkpoint is old enough for another one. -/
def CheckpointDue (t : DDPTrainer σ) (now : Time) : Prop :=
  t.checkpointIntervalSeconds ≤ now - t.lastCheckpointTime

instance (t : DDPTrainer σ) (now : Time) : Decidable (t.CheckpointDue now) :=
  inferInstanceAs (Decidable (_ ≤ _))

end DDPTrainer

/-- Where `train` is in its loop. -/
inductive TrainPhase where
  /-- Before the epoch of that number, or behind the loop when the range ends there. -/
  | next (epoch : ℤ)
  /-- Behind the batches of that epoch. -/
  | trained (epoch : ℤ)
  deriving DecidableEq

/-- Runs of training, one after the other. -/
structure Chain (σ : Type*) where
  /-- The run that is going on. -/
  run : Option (DDPTrainer σ × TrainPhase)
  /-- The files that have been written, the latest last.  A file that has been written again may
  have been copied before. -/
  written : List (ℤ × Checkpoint σ)

namespace Chain

/-- What happens to a run. -/
inductive Label where
  /-- A run is started, from scratch or from the file that was written at that place; a file that
  does not exist is like none. -/
  | start (epochs rank checkpointIntervalMinutes : ℤ) (now : Time) (resume : Option ℕ)
  | trainEpoch
  /-- The clock is read for the test, and again when a checkpoint has been saved. -/
  | checkpoint (now later : Time)
  /-- The final checkpoint is saved, and `train` returns. -/
  | finish
  | crash
  deriving DecidableEq

/-- No run, and no file. -/
def empty : Chain σ := ⟨none, []⟩

/-- The trainer that `train.py` calls `train` of. -/
def trainer (init : σ) (c : Chain σ) (epochs rank checkpointIntervalMinutes : ℤ) (now : Time)
    (resume : Option ℕ) : DDPTrainer σ :=
  match resume with
  | none => .new init epochs rank checkpointIntervalMinutes now
  | some place =>
    (DDPTrainer.new init epochs rank checkpointIntervalMinutes now).loadCheckpoint
      (c.written[place]?.map Prod.snd)

variable (f : ℤ → σ → σ) (init : σ)

/-- One step of a run. -/
def exec (c : Chain σ) : Label → Option (Chain σ)
  | .start epochs rank minutes now resume =>
    match c.run with
    | none =>
      let t := c.trainer init epochs rank minutes now resume
      some { c with run := some (t, .next t.currentEpoch) }
    | some _ => none
  | .trainEpoch =>
    match c.run with
    | some (t, .next epoch) =>
      if epoch < t.epochs then some { c with run := some (t.trainEpoch f epoch, .trained epoch) }
      else none
    | _ => none
  | .checkpoint now later =>
    match c.run with
    | some (t, .trained epoch) =>
      if t.CheckpointDue now then
        some ⟨some (t.saved later, .next (epoch + 1)), c.written ++ (t.saveCheckpoint epoch).toList⟩
      else some { c with run := some (t, .next (epoch + 1)) }
    | _ => none
  | .finish =>
    match c.run with
    | some (t, .next epoch) =>
      if epoch < t.epochs then none
      else some ⟨none, c.written ++ (t.saveCheckpoint (t.epochs - 1)).toList⟩
    | _ => none
  | .crash => some { c with run := none }

/-- The runs of training, with crashes anywhere. -/
def lts : LTS (Chain σ) Label := LTS.ofExec (exec f init)

variable {f : ℤ → σ → σ} {init : σ} {c c' : Chain σ} {l : Label}

/-! ### What a step can do -/

theorem trainer_cases (init : σ) (c : Chain σ) (epochs rank minutes : ℤ) (now : Time)
    (resume : Option ℕ) :
    c.trainer init epochs rank minutes now resume = .new init epochs rank minutes now ∨
      ∃ file ∈ c.written, c.trainer init epochs rank minutes now resume =
        (DDPTrainer.new init epochs rank minutes now).loadCheckpoint (some file.2) := by
  cases resume with
  | none => exact .inl rfl
  | some place =>
    cases hfile : c.written[place]? with
    | none => exact .inl (by rw [trainer, hfile]; rfl)
    | some file => exact .inr ⟨file, List.mem_of_getElem? hfile, by rw [trainer, hfile]; rfl⟩

theorem start_step {epochs rank minutes : ℤ} {now : Time} {resume : Option ℕ}
    (h : exec f init c (.start epochs rank minutes now resume) = some c') :
    c.run = none ∧ c'.written = c.written ∧
      c'.run = some (c.trainer init epochs rank minutes now resume,
        .next (c.trainer init epochs rank minutes now resume).currentEpoch) := by
  simp only [exec] at h
  split at h
  · rename_i hrun
    obtain rfl := Option.some.inj h
    exact ⟨hrun, rfl, rfl⟩
  · cases h

theorem trainEpoch_step (h : exec f init c .trainEpoch = some c') :
    ∃ t epoch, c.run = some (t, .next epoch) ∧ epoch < t.epochs ∧
      c'.run = some (t.trainEpoch f epoch, .trained epoch) ∧ c'.written = c.written := by
  simp only [exec] at h
  split at h
  · rename_i t epoch hrun
    obtain ⟨hlt, heq⟩ := Option.ite_none_right_eq_some.1 h
    obtain rfl := Option.some.inj heq
    exact ⟨t, epoch, hrun, hlt, rfl, rfl⟩
  · cases h

/-- A time-triggered checkpoint changes nothing in the trainer but the time of the last one. -/
theorem checkpoint_step {now later : Time} (h : exec f init c (.checkpoint now later) = some c') :
    ∃ t epoch, c.run = some (t, .trained epoch) ∧
      (∃ t', c'.run = some (t', .next (epoch + 1)) ∧ t'.trained = t.trained ∧
        t'.epochs = t.epochs ∧ t'.rank = t.rank ∧ t'.currentEpoch = t.currentEpoch) ∧
      (c'.written = c.written ∨ c'.written = c.written ++ (t.saveCheckpoint epoch).toList) := by
  simp only [exec] at h
  split at h
  · rename_i t epoch hrun
    refine ⟨t, epoch, hrun, ?_⟩
    split_ifs at h
    · obtain rfl := Option.some.inj h
      refine ⟨⟨t.saved later, rfl, ?_⟩, .inr rfl⟩
      unfold DDPTrainer.saved
      split <;> exact ⟨rfl, rfl, rfl, rfl⟩
    · obtain rfl := Option.some.inj h
      exact ⟨⟨t, rfl, rfl, rfl, rfl, rfl⟩, .inl rfl⟩
  · cases h

theorem finish_step (h : exec f init c .finish = some c') :
    ∃ t epoch, c.run = some (t, .next epoch) ∧ t.epochs ≤ epoch ∧ c'.run = none ∧
      c'.written = c.written ++ (t.saveCheckpoint (t.epochs - 1)).toList := by
  simp only [exec] at h
  split at h
  · rename_i t epoch hrun
    obtain ⟨hnot, heq⟩ := Option.ite_none_left_eq_some.1 h
    obtain rfl := Option.some.inj heq
    exact ⟨t, epoch, hrun, not_lt.1 hnot, rfl, rfl⟩
  · cases h

end Chain

namespace DDPTrainer

theorem mem_saveCheckpoint {t : DDPTrainer σ} {epoch : ℤ} {file : ℤ × Checkpoint σ} :
    file ∈ (t.saveCheckpoint epoch).toList ↔ t.rank = 0 ∧ file = (epoch, ⟨epoch, t.trained⟩) := by
  unfold saveCheckpoint
  split_ifs with hrank <;> simp [hrank]

end DDPTrainer

end Dmlf
