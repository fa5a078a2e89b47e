import Mathlib.Data.List.Basic
import Mathlib.Order.WellFounded

/-!
# Transition systems and what their runs keep

One component can be several transition systems: with its calls one by one, with its handlers
atomic, or with its environment around it.  What holds in every state they reach is derived
here, once, from what one step does:

* `LTS.Reachable.keeps` : what every step preserves holds in every reachable state.
* `LTS.restrict` : the steps that meet a guard; its runs are the runs of the system all of
  whose steps meet the guard.
* `LTS.Run.statesMeet_iff_stepsMeet` : when one step keeps a property exactly if it meets a
  guard, a run keeps the property in all its states exactly if all its steps meet the guard.
* `LTS.exists_reachable_of_decreasing` : what can always be brought nearer can be reached.
* `LTS.Run.log` : what a run adds to a list that every step adds to.
* `LTS.recorded` : the system with a history variable, which all its runs have.
* `LTS.Projection` : a system whose steps are steps of another one, or leave its state alone.
* `LTS.Projection.run` : its runs are runs of the other one.
-/

namespace Dmlf

/-- Steps between states in `S`, each with a label in `L`. -/
structure LTS (S L : Type*) where
  /-- The label `l` may take the first state to the second. -/
  step : S → L → S → Prop

namespace LTS

variable {S L T M : Type*} {A : LTS S L} {B : LTS T M}

variable (A) in
/-- The states that a run from `s₀` ends in. -/
inductive Reachable (s₀ : S) : S → Prop
  | start : Reachable s₀ s₀
  | next {s : S} (l : L) {s' : S} : Reachable s₀ s → A.step s l s' → Reachable s₀ s'

variable (A) in
/-- No step leaves `I`. -/
def Preserves (I : S → Prop) : Prop := ∀ ⦃s l s'⦄, A.step s l s' → I s → I s'

theorem Reachable.keeps {I : S → Prop} {s₀ s : S} (h : A.Reachable s₀ s)
    (hI : A.Preserves I) (hs₀ : I s₀) : I s := by
  induction h with
  | start => exact hs₀
  | next l _ hl ih => exact hI hl ih

theorem preserves_reachable (s₀ : S) : A.Preserves (A.Reachable s₀) :=
  fun _ l _ hl h => h.next l hl

theorem Reachable.append {s₀ s s' : S} (h : A.Reachable s₀ s) (h' : A.Reachable s s') :
    A.Reachable s₀ s' :=
  h'.keeps (preserves_reachable s₀) h

/-! ### Executable systems -/

/-- The system of a partial successor function. -/
def ofExec (f : S → L → Option S) : LTS S L := ⟨fun s l s' => f s l = some s'⟩

/-- Perform a list of labels in order; `none` when one of them is not enabled. -/
def exec (f : S → L → Option S) : S → List L → Option S
  | s, [] => some s
  | s, l :: ls => (f s l).bind fun s' => exec f s' ls

theorem Reachable.of_exec {f : S → L → Option S} {s s' : S} (l : L) (h : f s l = some s') :
    (ofExec f).Reachable s s' :=
  start.next l h

theorem reachable_of_exec {f : S → L → Option S} {s s' : S} {ls : List L}
    (h : exec f s ls = some s') : (ofExec f).Reachable s s' := by
  induction ls generalizing s with
  | nil =>
    obtain rfl := Option.some.inj h
    exact .start
  | cons l ls ih =>
    obtain ⟨t, ht, hrest⟩ := Option.bind_eq_some_iff.1 h
    exact (Reachable.of_exec l ht).append (ih hrest)

/-- A list of labels whose final state passes the test `p` reaches a state that passes it. -/
theorem exists_of_exec (f : S → L → Option S) (s : S) (ls : List L) (p : S → Bool)
    (h : (exec f s ls).any p = true) : ∃ s', (ofExec f).Reachable s s' ∧ p s' = true := by
  obtain ⟨s', hs', hp⟩ := (Option.any_eq_true_iff_get _ _).1 h |> fun ⟨hi, hp⟩ =>
    (⟨_, (Option.some_get hi).symm, hp⟩ : ∃ s', exec f s ls = some s' ∧ p s' = true)
  exact ⟨s', reachable_of_exec hs', hp⟩

/-! ### Guarded steps -/

variable (A) in
/-- The steps of `A` that meet the guard `G` in the state they start from. -/
def restrict (G : S → L → Prop) : LTS S L := ⟨fun s l s' => G s l ∧ A.step s l s'⟩

theorem exists_of_exec_restrict (f : S → L → Option S) (G : S → L → Prop)
    [∀ s l, Decidable (G s l)] (s : S) (ls : List L) (p : S → Bool)
    (h : (exec (fun s l => if G s l then f s l else none) s ls).any p = true) :
    ∃ s', ((ofExec f).restrict G).Reachable s s' ∧ p s' = true := by
  obtain ⟨s', hs', hp⟩ := exists_of_exec _ s ls p h
  refine ⟨s', hs'.keeps (fun s l t hst ih => ih.next l ?_) .start, hp⟩
  obtain ⟨hG, hf⟩ := Option.ite_none_right_eq_some.1 hst
  exact ⟨hG, hf⟩

/-! ### Progress -/

/-- **Progress.**  If some run leads from every state with `I` and without `P` to a state with `I`
and a smaller measure, then some run leads to a state with `P`. -/
theorem exists_reachable_of_decreasing {α : Type*} [LT α] [WellFoundedLT α] {I P : S → Prop}
    (μ : S → α)
    (hprogress : ∀ s, I s → ¬ P s → ∃ s', A.Reachable s s' ∧ I s' ∧ μ s' < μ s)
    {s : S} (hs : I s) : ∃ s', A.Reachable s s' ∧ I s' ∧ P s' := by
  induction hμ : μ s using WellFoundedLT.induction generalizing s with
  | ind a ih =>
    by_cases hP : P s
    · exact ⟨s, .start, hs, hP⟩
    · obtain ⟨t, hst, ht, hlt⟩ := hprogress s hs hP
      obtain ⟨s', hts', hs', hP'⟩ := ih (μ t) (hμ ▸ hlt) ht rfl
      exact ⟨s', hst.append hts', hs', hP'⟩

/-! ### Runs with their states -/

variable (A) in
/-- `Run s tr` : from `s` the labels of `tr` may be performed in order, each leading to the
state next to it. -/
inductive Run : S → List (L × S) → Prop
  | nil (s : S) : Run s []
  | cons {s s' : S} {l : L} {tr : List (L × S)} :
      A.step s l s' → Run s' tr → Run s ((l, s') :: tr)

/-- Every step of the run meets the guard `G`. -/
def StepsMeet (G : S → L → Prop) : S → List (L × S) → Prop
  | _, [] => True
  | s, (l, s') :: tr => G s l ∧ StepsMeet G s' tr

/-- Every state of the run, the first one included, meets `I`. -/
def StatesMeet (I : S → Prop) : S → List (L × S) → Prop
  | s, [] => I s
  | s, (_, s') :: tr => I s ∧ StatesMeet I s' tr

theorem StatesMeet.head {I : S → Prop} {s : S} {tr : List (L × S)} (h : StatesMeet I s tr) :
    I s := by
  cases tr with
  | nil => exact h
  | cons e tr => exact h.1

instance StepsMeet.decidable {G : S → L → Prop} [∀ s l, Decidable (G s l)] :
    ∀ (s : S) (tr : List (L × S)), Decidable (StepsMeet G s tr)
  | _, [] => .isTrue trivial
  | s, (l, s') :: tr =>
    @instDecidableAnd (G s l) (StepsMeet G s' tr) _ (StepsMeet.decidable s' tr)

instance StatesMeet.decidable {I : S → Prop} [DecidablePred I] :
    ∀ (s : S) (tr : List (L × S)), Decidable (StatesMeet I s tr)
  | s, [] => inferInstanceAs (Decidable (I s))
  | s, (_, s') :: tr => @instDecidableAnd (I s) (StatesMeet I s' tr) _ (StatesMeet.decidable s' tr)

theorem Run.restrict {G : S → L → Prop} {s : S} {tr : List (L × S)} (h : A.Run s tr)
    (hG : StepsMeet G s tr) : (A.restrict G).Run s tr := by
  induction h with
  | nil s => exact .nil s
  | cons hst _ ih => exact .cons ⟨hG.1, hst⟩ (ih hG.2)

theorem Run.statesMeet_imp {K I J : S → Prop} (hK : A.Preserves K)
    (hJ : ∀ s, K s → I s → J s) {s : S} {tr : List (L × S)} (h : A.Run s tr) (hs : K s)
    (hI : StatesMeet I s tr) : StatesMeet J s tr := by
  induction h with
  | nil s => exact hJ s hs hI
  | cons hst _ ih => exact ⟨hJ _ hs hI.1, ih (hK hst hs) hI.2⟩

/-- What lasts from one state with `I` to the next one lasts in a run whose states all meet `I`. -/
theorem Run.statesMeet_and {K I J : S → Prop} (hK : A.Preserves K)
    (hJ : ∀ s l s', K s → I s → J s → A.step s l s' → I s' → J s') {s : S} {tr : List (L × S)}
    (h : A.Run s tr) (hs : K s) (hj : J s) (hI : StatesMeet I s tr) :
    StatesMeet (fun s => I s ∧ J s) s tr := by
  induction h with
  | nil s => exact ⟨hI, hj⟩
  | cons hst _ ih =>
    exact ⟨⟨hI.1, hj⟩, ih (hK hst hs) (hJ _ _ _ hs hI.1 hj hst hI.2.head) hI.2⟩

/-- Two guards that agree under the invariant `K` are met by the same runs that start with it. -/
theorem Run.stepsMeet_congr {K : S → Prop} {G G' : S → L → Prop} (hK : A.Preserves K)
    (hG : ∀ s l, K s → (G s l ↔ G' s l)) {s : S} {tr : List (L × S)} (h : A.Run s tr) (hs : K s) :
    StepsMeet G s tr ↔ StepsMeet G' s tr := by
  induction h with
  | nil s => exact Iff.rfl
  | cons hst _ ih => exact and_congr (hG _ _ hs) (ih (hK hst hs))

/-- **Exact guards.**  Let `K` be an invariant of the system.  If from every state with `K` and
`I` a step leads to a state with `I` exactly when it meets `G`, then a run that starts with `K`
and `I` keeps `I` in all its states exactly when all its steps meet `G`. -/
theorem Run.statesMeet_iff_stepsMeet {K I : S → Prop} {G : S → L → Prop}
    (hK : A.Preserves K)
    (hI : ∀ s l s', K s → I s → A.step s l s' → (I s' ↔ G s l))
    {s : S} {tr : List (L × S)} (h : A.Run s tr) (hs : K s) (h₀ : I s) :
    StatesMeet I s tr ↔ StepsMeet G s tr := by
  induction h with
  | nil s => exact ⟨fun _ => trivial, fun _ => h₀⟩
  | @cons s s' l tr hst _ ih =>
    -- the next state meets `I` on both sides, so the rest of the run starts where `ih` needs it
    have hs' := hK hst hs
    constructor
    · rintro ⟨_, hrest⟩
      have hI' : I s' := hrest.head
      exact ⟨(hI s l s' hs h₀ hst).1 hI', (ih hs' hI').1 hrest⟩
    · rintro ⟨hG, hrest⟩
      have hI' : I s' := (hI s l s' hs h₀ hst).2 hG
      exact ⟨h₀, (ih hs' hI').2 hrest⟩

/-- The run of a list of labels of an executable system. -/
def runOf (f : S → L → Option S) : S → List L → List (L × S)
  | _, [] => []
  | s, l :: ls =>
    match f s l with
    | none => []
    | some s' => (l, s') :: runOf f s' ls

theorem run_runOf (f : S → L → Option S) (s : S) (ls : List L) :
    (ofExec f).Run s (runOf f s ls) := by
  induction ls generalizing s with
  | nil => exact .nil s
  | cons l ls ih =>
    unfold runOf
    cases h : f s l with
    | none => exact .nil s
    | some s' => exact .cons h (ih s')

/-- The last state of a run. -/
def last : S → List (L × S) → S
  | s, [] => s
  | _, (_, s') :: tr => last s' tr

theorem Run.stepsMeet {K : S → Prop} (hK : A.Preserves K) {s : S} {tr : List (L × S)}
    (h : A.Run s tr) (hs : K s) : StepsMeet (fun s _ => K s) s tr := by
  induction h with
  | nil s => exact trivial
  | cons hst _ ih => exact ⟨hs, ih (hK hst hs)⟩

theorem Run.reachable {s : S} {tr : List (L × S)} (h : A.Run s tr) : A.Reachable s (last s tr) := by
  induction h with
  | nil s => exact .start
  | @cons s s' l tr hst _ ih => exact (Reachable.start.next l hst).append ih

/-- **A log.**  If every step adds what it does to the end of a list, the list grows by what the run
does. -/
theorem Run.log {β : Type*} {f : S → List β} {out : L → Option β}
    (hstep : ∀ s l s', A.step s l s' → f s' = f s ++ (out l).toList) {s : S} {tr : List (L × S)}
    (h : A.Run s tr) : f (last s tr) = f s ++ tr.filterMap fun x => out x.1 := by
  induction h with
  | nil s => exact (List.append_nil _).symm
  | @cons s s' l tr hst _ ih =>
    rw [last, ih, hstep s l s' hst, List.append_assoc]
    cases hout : out l <;> simp [hout]

/-! ### History variables -/

variable {H : Type*}

variable (A) in
/-- The system `A` with a history, which every step extends as `upd` says. -/
def recorded (upd : S → H → L → H) : LTS (S × H) L :=
  ⟨fun s l s' => A.step s.1 l s'.1 ∧ s'.2 = upd s.1 s.2 l⟩

/-- A run with its history. -/
def record (upd : S → H → L → H) : S → H → List (L × S) → List (L × (S × H))
  | _, _, [] => []
  | s, h, (l, s') :: tr => (l, (s', upd s h l)) :: record upd s' (upd s h l) tr

theorem Run.record {s : S} {tr : List (L × S)} (h : A.Run s tr) (upd : S → H → L → H) (h₀ : H) :
    (A.recorded upd).Run (s, h₀) (LTS.record upd s h₀ tr) := by
  induction h generalizing h₀ with
  | nil s => exact .nil _
  | cons hst _ ih => exact .cons ⟨hst, rfl⟩ (ih _)

theorem Reachable.exists_record {s₀ s : S} (h : A.Reachable s₀ s) (upd : S → H → L → H) (h₀ : H) :
    ∃ h', (A.recorded upd).Reachable (s₀, h₀) (s, h') := by
  induction h with
  | start => exact ⟨h₀, .start⟩
  | next l _ hst ih =>
    obtain ⟨h', ih⟩ := ih
    exact ⟨_, ih.next l ⟨hst, rfl⟩⟩

theorem stepsMeet_record {G : S → L → Prop} (upd : S → H → L → H) (s : S) (h₀ : H)
    (tr : List (L × S)) :
    StepsMeet (fun s l => G s.1 l) (s, h₀) (LTS.record upd s h₀ tr) ↔ StepsMeet G s tr := by
  induction tr generalizing s h₀ with
  | nil => exact Iff.rfl
  | cons e tr ih => exact and_congr_right fun _ => ih _ _

/-! ### Projections -/

/-- `π` sends every step of `A` to the step of `B` with the label `lab` gives it, and leaves
the state of `B` alone where `lab` gives none. -/
structure Projection (A : LTS S L) (B : LTS T M) (π : S → T) (lab : S → L → Option M) : Prop where
  quiet : ∀ {s l s'}, A.step s l s' → lab s l = none → π s' = π s
  step : ∀ {s l s' m}, A.step s l s' → lab s l = some m → B.step (π s) m (π s')

/-- A guard on the labels of `B`, read on the steps of `A`. -/
def Lift (π : S → T) (lab : S → L → Option M) (G : T → M → Prop) (s : S) (l : L) : Prop :=
  ∀ m, lab s l = some m → G (π s) m

instance {π : S → T} {lab : S → L → Option M} {G : T → M → Prop} [∀ t m, Decidable (G t m)]
    (s : S) (l : L) : Decidable (Lift π lab G s l) :=
  inferInstanceAs (Decidable (∀ m ∈ lab s l, G (π s) m))

namespace Projection

variable {π : S → T} {lab : S → L → Option M}

theorem restrict (P : Projection A B π lab) (G : T → M → Prop) :
    Projection (A.restrict (Lift π lab G)) (B.restrict G) π lab where
  quiet := fun hst hl => P.quiet hst.2 hl
  step := fun hst hl => ⟨hst.1 _ hl, P.step hst.2 hl⟩

theorem preserves (P : Projection A B π lab) {K : T → Prop} (hK : B.Preserves K) :
    A.Preserves fun s => K (π s) := by
  intro s l s' hst hs
  cases hl : lab s l with
  | none => rwa [P.quiet hst hl]
  | some m => exact hK (P.step hst hl) hs

variable (π lab) in
/-- What a run of `A` is in `B`: its steps that are steps of `B`, with the states they lead to. -/
def trace : S → List (L × S) → List (M × T)
  | _, [] => []
  | s, (l, s') :: tr => (lab s l).toList.map (fun m => (m, π s')) ++ trace s' tr

/-- **Runs project to runs**, and end in the projection of the state they end in. -/
theorem run (P : Projection A B π lab) {s : S} {tr : List (L × S)} (h : A.Run s tr) :
    B.Run (π s) (trace π lab s tr) ∧ last (π s) (trace π lab s tr) = π (last s tr) := by
  induction h with
  | nil s => exact ⟨.nil _, rfl⟩
  | @cons s s' l tr hst _ ih =>
    simp only [trace, last]
    cases hl : lab s l with
    | none =>
      rw [← P.quiet hst hl]
      exact ih
    | some m => exact ⟨.cons (P.step hst hl) ih.1, ih.2⟩

theorem exact_step (P : Projection A B π lab) {K I : T → Prop} {G : T → M → Prop}
    (hI : ∀ t m t', K t → I t → B.step t m t' → (I t' ↔ G t m)) (s : S) (l : L) (s' : S)
    (hs : K (π s)) (h : I (π s)) (hst : A.step s l s') : I (π s') ↔ Lift π lab G s l := by
  cases hl : lab s l with
  | none => simp [Lift, hl, P.quiet hst hl, h]
  | some m => simpa [Lift, hl] using hI _ _ _ hs h (P.step hst hl)

end Projection

end LTS

end Dmlf
