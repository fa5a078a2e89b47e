import Dmlf.Ledger.Basic

/-!
# Uses that are under way

A use of a work item may go on after its item has been retried, so two uses of one item may be
under way at a time.  What is left of them is told from outside, by a predicate `work` on items and
numbers of uses, from which anything may vanish at any time.

* `Ledger.soleUse_step` : all that is left of an item belongs to its latest use, as long as no
  item is retried before its last use is over and its ticket is spent.
-/

namespace Dmlf

namespace Ledger

variable {κ ω : Type*} {L : Ledger κ ω} {work work' : κ → ℕ → Prop}

/-- Nothing is left of an earlier use, and nothing at all of an item that is about to be used. -/
structure SoleUse (L : Ledger κ ω) (work : κ → ℕ → Prop) : Prop where
  latest : ∀ k d, work k d → d = L.used k
  known : ∀ k d, work k d → ∃ it, L.item k = some it
  spent : ∀ k d, work k d → k ∉ L.tickets
  active : ∀ k d, work k d → ¬ L.Waiting k
  issued : ∀ k ∈ L.tickets, ∃ it, L.item k = some it
  single : L.tickets.Nodup

/-- An item is retried when its last use is over and its ticket spent. -/
def RetriesOver (L : Ledger κ ω) (work : κ → ℕ → Prop) : Act κ ω → Prop
  | .retry k _ => k ∉ L.tickets ∧ ∀ d, ¬ work k d
  | _ => True

theorem SoleUse.mono (h : L.SoleUse work) (hw : ∀ k d, work' k d → work k d) :
    L.SoleUse work' where
  latest := fun k d hd => h.latest k d (hw k d hd)
  known := fun k d hd => h.known k d (hw k d hd)
  spent := fun k d hd => h.spent k d (hw k d hd)
  active := fun k d hd => h.active k d (hw k d hd)
  issued := h.issued
  single := h.single

variable [DecidableEq κ]

theorem soleUse_submit (h : L.SoleUse work) {k : κ} {limit : ℤ} (hk : L.item k = none) :
    (L.apply (.submit k limit)).SoleUse work := by
  have hne : ∀ {k' it}, L.item k' = some it → k' ≠ k := by
    rintro k' it hit rfl
    rw [hk] at hit
    cases hit
  have hitem : ∀ {k'}, k' ≠ k → (L.apply (.submit k limit)).item k' = L.item k' := fun hk' => by
    simp only [apply, if_neg hk']
  refine ⟨h.latest, fun k' d hd => ?_, fun k' d hd => ?_, fun k' d hd => ?_, fun k' hk' => ?_, ?_⟩
  · obtain ⟨it, hit⟩ := h.known k' d hd
    exact ⟨it, by rw [hitem (hne hit), hit]⟩
  · obtain ⟨it, hit⟩ := h.known k' d hd
    simpa [apply, hne hit] using h.spent k' d hd
  · obtain ⟨it, hit⟩ := h.known k' d hd
    rw [Waiting, hitem (hne hit)]
    exact h.active k' d hd
  · rcases Multiset.mem_cons.1 hk' with rfl | hk'
    · exact ⟨⟨.waiting, 0, limit⟩, by simp [apply]⟩
    · obtain ⟨it, hit⟩ := h.issued k' hk'
      exact ⟨it, by rw [hitem (hne hit), hit]⟩
  · refine Multiset.nodup_cons.2 ⟨fun hmem => ?_, h.single⟩
    obtain ⟨it, hit⟩ := h.issued k hmem
    exact hne hit rfl

/-- A retry issues the only ticket of an item of which nothing is left. -/
theorem soleUse_retry (h : L.SoleUse work) {k : κ} {r : ℤ} (ha : ∃ it, L.item k = some it)
    (hk : k ∉ L.tickets) (hidle : ∀ d, ¬ work k d) : (L.apply (.retry k r)).SoleUse work := by
  have hne : ∀ {k' d}, work k' d → k' ≠ k := by
    rintro k' d hd rfl
    exact hidle d hd
  have hitem : ∀ {k'}, k' ≠ k → (L.apply (.retry k r)).item k' = L.item k' := fun hk' => by
    simp only [apply, if_neg hk']
  refine ⟨h.latest, fun k' d hd => ?_, fun k' d hd => ?_, fun k' d hd => ?_, fun k' hk' => ?_, ?_⟩
  · rw [hitem (hne hd)]
    exact h.known k' d hd
  · simpa [apply, hne hd] using h.spent k' d hd
  · rw [Waiting, hitem (hne hd)]
    exact h.active k' d hd
  · by_cases hkk : k' = k
    · obtain ⟨it, hit⟩ := ha
      exact ⟨_, by simp only [apply, if_pos hkk, hit]; rfl⟩
    · rw [hitem hkk]
      exact h.issued k' ((Multiset.mem_cons.1 hk').resolve_left hkk)
  · exact Multiset.nodup_cons.2 ⟨hk, h.single⟩

theorem exists_setPhase {k k' : κ} {p : Phase ω} (h : ∃ it, L.item k' = some it) :
    ∃ it, L.setPhase k p k' = some it := by
  obtain ⟨it, hit⟩ := h
  refine Option.isSome_iff_exists.1 ?_
  rw [isSome_setPhase, hit]
  rfl

/-- A use starts with its ticket, so nothing of the earlier ones is left. -/
theorem soleUse_use (h : L.SoleUse work) {k : κ} (hmem : k ∈ L.tickets)
    (hw : ∀ k' d, work' k' d → work k' d ∨ k' = k ∧ d = L.used k + 1) :
    (L.apply (.use k)).SoleUse work' := by
  have hold : ∀ {k' d}, work' k' d → k' ≠ k → work k' d := fun hd hne =>
    (hw _ _ hd).resolve_right fun heq => hne heq.1
  have hnew : ∀ {d}, work' k d → d = L.used k + 1 := fun hd =>
    ((hw _ _ hd).resolve_left fun hd' => h.spent k _ hd' hmem).2
  -- what is left of `k` is new, since its ticket was still there; the rest is as before
  refine ⟨fun k' d hd => ?_, fun k' d hd => exists_setPhase ?_, fun k' d hd => ?_,
    fun k' d hd => ?_, fun k' hk' => exists_setPhase (h.issued k' (Multiset.mem_of_mem_erase hk')),
    h.single.erase k⟩
  · by_cases hk : k' = k
    · subst hk
      simpa [apply] using hnew hd
    · simpa [apply, hk] using h.latest k' d (hold hd hk)
  · by_cases hk : k' = k
    · exact hk ▸ h.issued k hmem
    · exact h.known k' d (hold hd hk)
  · by_cases hk : k' = k
    · rw [hk]
      exact h.single.notMem_erase
    · intro hk'
      exact h.spent k' d (hold hd hk) (Multiset.mem_of_mem_erase hk')
  · intro hwait
    obtain ⟨hk, hwait⟩ := waiting_use.1 hwait
    exact h.active k' d (hold hd hk) hwait

/-- **One action leaves nothing of an earlier use**, if it retries no item before its last use is
over.  A new use is the one that the action starts. -/
theorem soleUse_step (h : L.SoleUse work) {a : Act κ ω} (ha : L.Enabled a)
    (hR : L.RetriesOver work a)
    (hw : ∀ k d, work' k d → work k d ∨ a = .use k ∧ d = L.used k + 1) :
    (L.apply a).SoleUse work' := by
  have hmono : (∀ k, a ≠ .use k) → ∀ k d, work' k d → work k d := fun hne k d hd =>
    (hw k d hd).resolve_right fun heq => hne k heq.1
  cases a with
  | submit k limit => exact soleUse_submit (h.mono (hmono fun _ heq => by cases heq)) ha
  | retry k r =>
    obtain ⟨it, hit, -⟩ := ha
    have hle := hmono fun _ heq => by cases heq
    exact soleUse_retry (h.mono hle) ⟨it, hit⟩ hR.1 fun d hd => hR.2 d (hle k d hd)
  | use k =>
    refine soleUse_use h ha.2 fun k' d hd => (hw k' d hd).imp_right ?_
    rintro ⟨heq, hd⟩
    obtain rfl := Act.use.inj heq
    exact ⟨rfl, hd⟩
  | close k o =>
    have h' := h.mono (hmono fun _ heq => by cases heq)
    refine ⟨h'.latest, fun k' d hd => exists_setPhase (h'.known k' d hd), h'.spent,
      fun k' d hd hwait => ?_, fun k' hk' => exists_setPhase (h'.issued k' hk'), h'.single⟩
    exact h'.active k' d hd (waiting_close.1 hwait).2
  | restart ts =>
    have h' := h.mono (hmono fun _ heq => by cases heq)
    refine ⟨h'.latest, h'.known, fun k' d hd hmem => ?_, h'.active, fun k' hk' => ?_, ha.1⟩
    · -- the crash issues tickets for waiting items only, of which nothing is left
      exact h'.active k' d hd ((ha.2 k').1 hmem)
    · obtain ⟨it, hit, -⟩ := (ha.2 k').1 hk'
      exact ⟨it, hit⟩
  | idle => exact h.mono (hmono fun _ heq => by cases heq)

end Ledger

end Dmlf
