import Dmlf.Training.Trainer

/-!
# Resumed training

A run that resumes from a checkpoint goes on with the epoch behind it.

* `Chain.finish_uninterrupted` : with one number of epochs for all runs, a run that completes has
  trained what one uninterrupted run trains, whatever crashed before.
* `Chain.labelled_iff` : with a number of epochs for each run, every file has the state of its own
  epoch exactly if no run completes that has resumed behind its own last epoch.
-/

namespace Dmlf

variable {σ : Type*} {f : ℤ → σ → σ} {init : σ}

variable (f) (init) in
/-- What one uninterrupted run has trained after its first `n` epochs. -/
def uninterrupted : ℕ → Trained σ
  | 0 => ⟨init, []⟩
  | n + 1 => ⟨f n (uninterrupted n).state, (uninterrupted n).epochs ++ [(n : ℤ)]⟩

theorem epochs_uninterrupted (n : ℕ) :
    (uninterrupted f init n).epochs = (List.range n).map fun epoch : ℕ => (epoch : ℤ) := by
  induction n with
  | zero => rfl
  | succ n ih => rw [uninterrupted, ih, List.range_succ, List.map_append]; rfl

theorem state_uninterrupted (n : ℕ) :
    (uninterrupted f init n).state =
      (List.range n).foldl (fun state (epoch : ℕ) => f epoch state) init := by
  induction n with
  | zero => rfl
  | succ n ih => rw [uninterrupted, ih, List.range_succ, List.foldl_append]; rfl

namespace Chain

variable {c c' : Chain σ} {l : Label} {E : ℕ}

/-! ### Runs with the same number of epochs -/

/-- The steps of runs with `E` epochs. -/
def Epochs (E : ℕ) : Label → Prop
  | .start epochs _ _ _ _ => epochs = E
  | _ => True

instance (E : ℕ) : DecidablePred (Epochs E) := fun l =>
  match l with
  | .start epochs _ _ _ _ => inferInstanceAs (Decidable (epochs = E))
  | .trainEpoch | .checkpoint _ _ | .finish | .crash => .isTrue trivial

variable (f init E) in
/-- The file is the checkpoint of an uninterrupted run after one of its epochs, or before the
first one. -/
def FileOk (file : ℤ × Checkpoint σ) : Prop :=
  file.2.epoch = file.1 ∧
    ∃ n ≤ E, file.1 + 1 = (n : ℕ) ∧ file.2.trained = uninterrupted f init n

variable (f init E) in
/-- The trainer has trained what an uninterrupted run has trained at that place of the loop. -/
def PhaseOk (t : DDPTrainer σ) : TrainPhase → Prop
  | .next epoch => ∃ n ≤ E, epoch = (n : ℕ) ∧ t.trained = uninterrupted f init n
  | .trained epoch => ∃ n < E, epoch = (n : ℕ) ∧ t.trained = uninterrupted f init (n + 1)

variable (f init E) in
/-- All files, and the run that is going on, are as in an uninterrupted run. -/
structure Faithful (c : Chain σ) : Prop where
  written : ∀ file ∈ c.written, FileOk f init E file
  run : ∀ t phase, c.run = some (t, phase) → t.epochs = E ∧ PhaseOk f init E t phase

theorem faithful_empty : Faithful f init E empty where
  written := by simp [empty]
  run := by simp [empty]

/-- A run that is started is at a place that an uninterrupted run passes. -/
theorem faithful_start (h : c.Faithful f init E) (rank minutes : ℤ) (now : Time)
    (resume : Option ℕ) :
    (c.trainer init E rank minutes now resume).epochs = E ∧
      PhaseOk f init E (c.trainer init E rank minutes now resume)
        (.next (c.trainer init E rank minutes now resume).currentEpoch) := by
  rcases trainer_cases init c E rank minutes now resume with heq | ⟨file, hfile, heq⟩
  · rw [heq]
    exact ⟨rfl, 0, Nat.zero_le _, rfl, rfl⟩
  · obtain ⟨hepoch, n, hn, hnext, htrained⟩ := h.written file hfile
    rw [heq]
    exact ⟨rfl, n, hn, by rw [← hnext, ← hepoch]; rfl, htrained⟩

theorem faithful_append {t : DDPTrainer σ} {epoch : ℤ} {n : ℕ}
    (h : ∀ file ∈ c.written, FileOk f init E file) (hn : n ≤ E) (hepoch : epoch + 1 = n)
    (htrained : t.trained = uninterrupted f init n) :
    ∀ file ∈ c.written ++ (t.saveCheckpoint epoch).toList, FileOk f init E file := by
  intro file hfile
  rcases List.mem_append.1 hfile with hold | hnew
  · exact h file hold
  · obtain ⟨-, rfl⟩ := DDPTrainer.mem_saveCheckpoint.1 hnew
    exact ⟨rfl, n, hn, hepoch, htrained⟩

/-- **No step leaves what an uninterrupted run does.** -/
theorem faithful_step :
    ((lts f init).restrict fun _ l => Epochs E l).Preserves (Faithful f init E) := by
  rintro c l c' ⟨hE, hst⟩ h
  cases l with
  | start epochs rank minutes now resume =>
    obtain rfl : epochs = E := hE
    obtain ⟨-, hwritten, hrun⟩ := start_step hst
    refine ⟨hwritten ▸ h.written, fun t phase ht => ?_⟩
    obtain ⟨rfl, rfl⟩ := Prod.mk.inj (Option.some.inj (hrun.symm.trans ht))
    exact faithful_start h rank minutes now resume
  | trainEpoch =>
    obtain ⟨t, epoch, ht, hlt, hrun, hwritten⟩ := trainEpoch_step hst
    obtain ⟨hepochs, n, hn, rfl, htrained⟩ := h.run t _ ht
    refine ⟨hwritten ▸ h.written, fun t' phase ht' => ?_⟩
    obtain ⟨rfl, rfl⟩ := Prod.mk.inj (Option.some.inj (hrun.symm.trans ht'))
    refine ⟨hepochs, n, ?_, rfl, ?_⟩
    · rw [hepochs] at hlt
      exact_mod_cast hlt
    · rw [DDPTrainer.trainEpoch, htrained]
      rfl
  | checkpoint now later =>
    obtain ⟨t, epoch, ht, ⟨t', hrun, htrained', hepochs', -, -⟩, hwritten⟩ := checkpoint_step hst
    obtain ⟨hepochs, n, hn, rfl, htrained⟩ := h.run t _ ht
    refine ⟨?_, fun t'' phase ht'' => ?_⟩
    · rcases hwritten with heq | heq
      · exact heq ▸ h.written
      · exact heq ▸ faithful_append h.written hn rfl htrained
    · obtain ⟨rfl, rfl⟩ := Prod.mk.inj (Option.some.inj (hrun.symm.trans ht''))
      exact ⟨hepochs'.trans hepochs, n + 1, hn, rfl, htrained'.trans htrained⟩
  | finish =>
    obtain ⟨t, epoch, ht, hle, hrun, hwritten⟩ := finish_step hst
    obtain ⟨hepochs, n, hn, rfl, htrained⟩ := h.run t _ ht
    refine ⟨?_, fun t' phase ht' => ?_⟩
    · obtain rfl : n = E := le_antisymm hn (by rw [hepochs] at hle; exact_mod_cast hle)
      exact hwritten ▸ faithful_append h.written le_rfl (by omega) htrained
    · rw [hrun] at ht'
      cases ht'
  | crash =>
    obtain rfl := Option.some.inj hst
    exact ⟨h.written, fun t phase ht => by cases ht⟩

/-- **Training goes on where it was.**  Let all runs have `E` epochs, each started from scratch or
from a file written before, and crashing anywhere.  A run that completes has trained what one
uninterrupted run trains, all its epochs once and in order, and on rank 0 its final checkpoint is
that. -/
theorem finish_uninterrupted
    (h : ((lts f init).restrict fun _ l => Epochs E l).Reachable empty c)
    (hst : exec f init c .finish = some c') :
    ∃ t epoch, c.run = some (t, .next epoch) ∧ t.trained = uninterrupted f init E ∧
      t.trained.state = (List.range E).foldl (fun state (epoch : ℕ) => f epoch state) init ∧
      t.trained.epochs = ((List.range E).map fun epoch : ℕ => (epoch : ℤ)) ∧
      (t.rank = 0 → c'.written = c.written ++ [((E : ℤ) - 1, ⟨(E : ℤ) - 1, t.trained⟩)]) := by
  have hok : c.Faithful f init E := h.keeps faithful_step faithful_empty
  obtain ⟨t, epoch, ht, hle, -, hwritten⟩ := finish_step hst
  obtain ⟨hepochs, n, hn, rfl, htrained⟩ := hok.run t _ ht
  obtain rfl : n = E := le_antisymm hn (by rw [hepochs] at hle; exact_mod_cast hle)
  refine ⟨t, n, ht, htrained, ?_, ?_, fun hrank => ?_⟩
  · rw [htrained, state_uninterrupted]
  · rw [htrained, epochs_uninterrupted]
  · rw [hwritten, DDPTrainer.saveCheckpoint, if_pos hrank, hepochs]
    rfl

/-- A run of three epochs that crashes in its second one, after a checkpoint of the first. -/
def crashed : List Label :=
  [.start 3 0 5 0 none, .trainEpoch, .checkpoint 300 301, .trainEpoch, .crash,
    .start 3 0 5 310 (some 0), .trainEpoch, .checkpoint 320 320, .trainEpoch, .checkpoint 330 330]

/-- The epochs by their numbers, as a state. -/
abbrev count (epoch : ℤ) (state : List ℤ) : List ℤ := epoch :: state

theorem finish_uninterrupted_crashed :
    ∃ c c' : Chain (List ℤ), exec count [] c .finish = some c' ∧
      ∃ t epoch, c.run = some (t, .next epoch) ∧ t.trained = uninterrupted count [] 3 ∧
        t.trained.state = (List.range 3).foldl (fun state (epoch : ℕ) => count epoch state) [] ∧
        t.trained.epochs = ((List.range 3).map fun epoch : ℕ => (epoch : ℤ)) ∧
        (t.rank = 0 → c'.written = c.written ++ [(((3 : ℕ) : ℤ) - 1,
          ⟨((3 : ℕ) : ℤ) - 1, t.trained⟩)]) := by
  obtain ⟨c, hc, hsome⟩ := LTS.exists_of_exec_restrict (exec count []) (fun _ l => Epochs 3 l)
    empty crashed (fun c => (exec count [] c .finish).isSome) (by decide +kernel)
  obtain ⟨c', hc'⟩ := Option.isSome_iff_exists.1 hsome
  exact ⟨c, c', hc', finish_uninterrupted hc hc'⟩

/-! ### Runs with different numbers of epochs -/

/-- Every file has the state after the epoch in its name, which is also the one inside. -/
def Labelled (c : Chain σ) : Prop :=
  ∀ file ∈ c.written, file.2.epoch = file.1 ∧ (file.2.trained.epochs.length : ℤ) = file.1 + 1

instance (c : Chain σ) : Decidable c.Labelled :=
  inferInstanceAs (Decidable (∀ file ∈ c.written, _))

/-- A run of rank 0 completes only if it started at an epoch up to its number of epochs. -/
def StartsInRange (c : Chain σ) : Label → Prop
  | .finish => ∀ r ∈ c.run, r.1.rank = 0 → r.1.currentEpoch ≤ r.1.epochs
  | _ => True

instance (c : Chain σ) : DecidablePred c.StartsInRange := fun l =>
  match l with
  | .finish => inferInstanceAs (Decidable (∀ r ∈ c.run, _))
  | .start _ _ _ _ _ | .trainEpoch | .checkpoint _ _ | .crash => .isTrue trivial

/-- Where the loop is, between the epoch that it started at and the number of epochs. -/
def Located (t : DDPTrainer σ) : TrainPhase → Prop
  | .next epoch => t.currentEpoch ≤ epoch ∧ (epoch ≤ t.epochs ∨ epoch = t.currentEpoch)
  | .trained epoch => t.currentEpoch ≤ epoch ∧ epoch < t.epochs

/-- The state has been trained for as many epochs as the loop says. -/
def Counted (t : DDPTrainer σ) : TrainPhase → Prop
  | .next epoch => (t.trained.epochs.length : ℤ) = epoch
  | .trained epoch => (t.trained.epochs.length : ℤ) = epoch + 1

/-- The loop is in its range, and its state is counted right as long as the files are. -/
def Consistent (c : Chain σ) : Prop :=
  ∀ t phase, c.run = some (t, phase) → Located t phase ∧ (c.Labelled → Counted t phase)

theorem labelled_of_subset (hwritten : c.written ⊆ c'.written) (h : c'.Labelled) : c.Labelled :=
  fun file hfile => h file (hwritten hfile)

theorem labelled_append_iff {t : DDPTrainer σ} {epoch : ℤ} (h : c.Labelled)
    (hwritten : c'.written = c.written ++ (t.saveCheckpoint epoch).toList) :
    c'.Labelled ↔ (t.rank = 0 → (t.trained.epochs.length : ℤ) = epoch + 1) := by
  constructor
  · intro h' hrank
    refine (h' (epoch, ⟨epoch, t.trained⟩) ?_).2
    rw [hwritten]
    exact List.mem_append_right _ (DDPTrainer.mem_saveCheckpoint.2 ⟨hrank, rfl⟩)
  · intro hlen file hfile
    rw [hwritten] at hfile
    rcases List.mem_append.1 hfile with hold | hnew
    · exact h file hold
    · obtain ⟨hrank, rfl⟩ := DDPTrainer.mem_saveCheckpoint.1 hnew
      exact ⟨rfl, hlen hrank⟩

theorem consistent_step : (lts f init).Preserves Consistent := by
  intro c l c' hst h t' phase' ht'
  cases l with
  | start epochs rank minutes now resume =>
    obtain ⟨-, hwritten, hrun⟩ := start_step hst
    obtain ⟨rfl, rfl⟩ := Prod.mk.inj (Option.some.inj (hrun.symm.trans ht'))
    refine ⟨⟨le_rfl, .inr rfl⟩, fun hlabelled => ?_⟩
    rcases trainer_cases init c epochs rank minutes now resume with heq | ⟨file, hfile, heq⟩
    · rw [heq]
      rfl
    · obtain ⟨hepoch, hlen⟩ := hlabelled file (hwritten ▸ hfile)
      rw [heq]
      exact hlen.trans (by rw [← hepoch]; rfl)
  | trainEpoch =>
    obtain ⟨t, epoch, ht, hlt, hrun, hwritten⟩ := trainEpoch_step hst
    obtain ⟨rfl, rfl⟩ := Prod.mk.inj (Option.some.inj (hrun.symm.trans ht'))
    obtain ⟨⟨hge, -⟩, hcounted⟩ := h t _ ht
    refine ⟨⟨hge, hlt⟩, fun hlabelled => ?_⟩
    have hlen : (t.trained.epochs.length : ℤ) = epoch :=
      hcounted (labelled_of_subset (fun _ hfile => hwritten ▸ hfile) hlabelled)
    simp [Counted, DDPTrainer.trainEpoch, hlen]
  | checkpoint now later =>
    obtain ⟨t, epoch, ht, ⟨t'', hrun, htrained, hepochs, -, hcurrent⟩, hwritten⟩ :=
      checkpoint_step hst
    obtain ⟨rfl, rfl⟩ := Prod.mk.inj (Option.some.inj (hrun.symm.trans ht'))
    obtain ⟨⟨hge, hlt⟩, hcounted⟩ := h t _ ht
    refine ⟨⟨by rw [hcurrent]; omega, .inl (by rw [hepochs]; exact hlt)⟩, fun hlabelled => ?_⟩
    have hold : c.Labelled := by
      rcases hwritten with heq | heq
      · exact labelled_of_subset (fun _ hfile => heq ▸ hfile) hlabelled
      · exact labelled_of_subset (heq ▸ List.subset_append_left _ _) hlabelled
    have hlen : (t.trained.epochs.length : ℤ) = epoch + 1 := hcounted hold
    exact (congrArg (fun s : Trained σ => (s.epochs.length : ℤ)) htrained).trans hlen
  | finish =>
    obtain ⟨-, -, -, -, hrun, -⟩ := finish_step hst
    rw [hrun] at ht'
    cases ht'
  | crash =>
    obtain rfl := Option.some.inj hst
    cases ht'

/-- A step keeps the files labelled right exactly if it does not complete a run out of its range. -/
theorem labelled_step (hcons : c.Consistent) (h : c.Labelled)
    (hst : exec f init c l = some c') : c'.Labelled ↔ c.StartsInRange l := by
  cases l with
  | start epochs rank minutes now resume =>
    obtain ⟨-, hwritten, -⟩ := start_step hst
    exact iff_of_true (fun file hfile => h file (hwritten ▸ hfile)) trivial
  | trainEpoch =>
    obtain ⟨-, -, -, -, -, hwritten⟩ := trainEpoch_step hst
    exact iff_of_true (fun file hfile => h file (hwritten ▸ hfile)) trivial
  | checkpoint now later =>
    obtain ⟨t, epoch, ht, -, hwritten | hwritten⟩ := checkpoint_step hst
    · exact iff_of_true (fun file hfile => h file (hwritten ▸ hfile)) trivial
    · have hlen := (hcons t _ ht).2 h
      exact iff_of_true ((labelled_append_iff h hwritten).2 fun _ => hlen) trivial
  | finish =>
    obtain ⟨t, epoch, ht, hle, -, hwritten⟩ := finish_step hst
    obtain ⟨⟨hge, hlocated⟩, hcounted⟩ := hcons t _ ht
    have hlen : (t.trained.epochs.length : ℤ) = epoch := hcounted h
    simp only [labelled_append_iff h hwritten, StartsInRange, ht, Option.mem_some_iff, forall_eq',
      hlen]
    refine forall_congr' fun _ => ⟨fun heq => ?_, fun hcurrent => ?_⟩
    · omega
    · rcases hlocated with hupto | heq <;> omega
  | crash =>
    obtain rfl := Option.some.inj hst
    exact iff_of_true h trivial

/-- **No file is written with the state of another epoch**, in the runs of training in which no run
of rank 0 completes that started behind its own last epoch, and in no others. -/
theorem labelled_iff {tr : List (Label × Chain σ)} (h : (lts f init).Run empty tr) :
    LTS.StatesMeet Labelled empty tr ↔ LTS.StepsMeet StartsInRange empty tr :=
  h.statesMeet_iff_stepsMeet consistent_step
    (fun _ _ _ hcons hlabelled hst => labelled_step hcons hlabelled hst)
    (fun t phase ht => by cases ht) (by simp [Labelled, empty])

/-- A run of two epochs, and one of a single epoch that resumes from its final checkpoint. -/
def shortened : List Label :=
  [.start 2 0 5 0 none, .trainEpoch, .checkpoint 60 60, .trainEpoch, .checkpoint 120 120, .finish,
    .start 1 0 5 200 (some 0), .finish]

theorem labelled_iff_shortened :
    LTS.StatesMeet Labelled empty (LTS.runOf (exec count []) empty shortened) ↔
      LTS.StepsMeet StartsInRange empty (LTS.runOf (exec count []) empty shortened) :=
  labelled_iff (LTS.run_runOf _ _ _)

/-- The second run writes the state of two epochs as the checkpoint of the first epoch. -/
theorem labelled_fails :
    ¬ ∀ c : Chain (List ℤ), (lts count []).Reachable empty c → c.Labelled := by
  intro hall
  obtain ⟨c, hc, hp⟩ := LTS.exists_of_exec (exec count []) empty shortened
    (fun c => decide ¬ c.Labelled) (by decide +kernel)
  exact of_decide_eq_true hp (hall c hc)

end Chain

end Dmlf
