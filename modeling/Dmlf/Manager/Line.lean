import Dmlf.Manager.Outgoing

/-!
# The line of queue entries

The scheduler works on one entry at a time: the one that it holds, and then the ones in the queue.
A requeue puts the entry back where it was taken from, so the line does not change with it.

* `Conf.line` : the entries in the order in which the scheduler comes to them.
* `Conf.lineEffect` : a call appends an entry to the queue, dispatches the first one in line, or
  leaves the line as it is.
* `Conf.pendingEffect` : the jobs whose rows are inserted, but which are not appended yet.
* `Conf.submitted_step` : the submissions that the history records.
-/

namespace Dmlf

/-- The entry of a submission: an entry that was read from the table has a `created_at`. -/
def JobDict.Fresh (job : JobDict) : Prop := job.createdAt = none

instance : DecidablePred JobDict.Fresh := fun job =>
  inferInstanceAs (Decidable (job.createdAt = none))

namespace Task

/-- The job whose row is inserted, but not yet appended. -/
def submitting : Task → Option String
  | .submitAppend job => some job.jobId
  | _ => none

/-- The job that the scheduler has popped, and not yet put back or dispatched. -/
def holds : Task → Option JobDict
  | .schedSelect job | .schedRequeue job | .schedReserve job _ _ => some job
  | _ => none

/-- The entry that the next call appends. -/
def appends : Task → Option JobDict
  | .submitAppend job | .retryAppend job | .monAppend _ _ job => some job
  | _ => none

theorem isScheduler_of_holds {t : Task} {job : JobDict} (h : t.holds = some job) :
    t.isScheduler = true := by
  cases t <;> first | rfl | cases h

theorem mem_dicts_of_holds {t : Task} {job : JobDict} (h : t.holds = some job) :
    job ∈ t.dicts := by
  cases t with
  | schedSelect | schedRequeue | schedReserve =>
    obtain rfl := Option.some.inj h
    exact List.mem_singleton_self _
  | registerQueue | submitAppend | retrySetIdle | retryWrite | retryAppend | failWrite
    | closedSetIdle | schedSend | monJobs | monLoop | monAppend | monCount => cases h

theorem holds_of_not_scheduler {t : Task} (h : t.isScheduler = false) : t.holds = none := by
  cases ht : t.holds with
  | none => rfl
  | some job => rw [isScheduler_of_holds ht] at h; cases h

/-- What a task has still to append: the entry of a submission is fresh, that of a retry is not. -/
def Stamps : Task → Prop
  | .submitAppend job => job.Fresh
  | .retryAppend job | .monAppend _ _ job => ¬ job.Fresh
  | _ => True

theorem stamps_step {cfg : Setup} {now : Time} {m : Manager} {t t' : Task}
    (ht : (t.step cfg now m).2 = some t') : t'.Stamps := by
  cases next_of_step ht with
  | retryAppend | lost => exact Option.some_ne_none _
  | retryWrite | failed | tooFew | selected | reserved | started | sent | monLoop | passed | marked
    | appended => trivial

theorem queue_step_of_holds_none (cfg : Setup) (now : Time) (m : Manager) {t : Task}
    (h : t.holds = none) :
    (t.step cfg now m).1.queue = (t.appends.map (appendSorted m.queue)).getD m.queue ∧
      (t.step cfg now m).2.bind holds = none := by
  constructor
  · rw [queue_step]
    cases t with
    | schedSelect | schedRequeue | schedReserve => cases h
    | registerQueue | submitAppend | retrySetIdle | retryWrite | retryAppend | failWrite
      | closedSetIdle | schedSend | monJobs | monLoop | monAppend | monCount => rfl
  · cases hnext : (t.step cfg now m).2 with
    | none => rfl
    | some t' =>
      cases next_of_step hnext with
      | tooFew | selected | reserved | started => cases h
      | retryWrite | retryAppend | failed | sent | monLoop | lost | passed | marked | appended =>
        rfl

theorem submitting_step {cfg : Setup} {now : Time} {m : Manager} {t t' : Task}
    (ht : (t.step cfg now m).2 = some t') : t'.submitting = none := by
  cases next_of_step ht <;> rfl

theorem submitted_step (cfg : Setup) (now : Time) (m : Manager) (t : Task) (j : String) :
    Event.submitted j ∈ (t.step cfg now m).1.history ↔ Event.submitted j ∈ m.history := by
  have hother : ∀ e, e ≠ Event.submitted j →
      (Event.submitted j ∈ m.history ++ [e] ↔ Event.submitted j ∈ m.history) := by
    intro e he
    rw [List.mem_append, List.mem_singleton, or_iff_left he.symm]
  cases writes_step cfg now m t with
  | none _ hh | fail _ _ _ hh => rw [hh]
  | retry job _ hh =>
    rw [hh]
    exact hother _ Event.noConfusion
  | start job nodes _ _ _ hh =>
    rw [hh]
    exact hother _ Event.noConfusion

end Task

namespace Conf

variable {cfg : Setup} {c c' : Conf} {l : Label}

/-- The entry that the scheduler holds. -/
def held (c : Conf) : List JobDict := c.tasks.filterMap Task.holds

/-- The entries in the order in which the scheduler comes to them. -/
def line (c : Conf) : List JobDict := c.held ++ c.mgr.queue

/-- The jobs that are still being submitted. -/
def pending (c : Conf) : List String := c.tasks.filterMap Task.submitting

/-- The entry that a call appends. -/
def appends (c : Conf) : Label → Option JobDict
  | .runTask i _ => c.tasks[i]?.bind Task.appends
  | _ => none

/-- The job that `submit_job` appends in a call. -/
def submits (c : Conf) : Label → Option String
  | .runTask i _ => c.tasks[i]?.bind Task.submitting
  | _ => none

theorem filterMap_resume {α : Type*} (f : Task → Option α) (c : Conf) {i : ℕ} {t : Task}
    (hi : c.tasks[i]? = some t) (next : Manager × Option Task) : ∃ l₁ l₂,
      c.tasks.filterMap f = l₁ ++ (f t).toList ++ l₂ ∧
        (c.resume i next).tasks.filterMap f = l₁ ++ l₂ ++ (next.2.bind f).toList := by
  obtain ⟨hlt, rfl⟩ := List.getElem?_eq_some_iff.1 hi
  refine ⟨(c.tasks.take i).filterMap f, (c.tasks.drop (i + 1)).filterMap f, ?_, ?_⟩
  · have hsplit : c.tasks = c.tasks.take i ++ c.tasks[i] :: c.tasks.drop (i + 1) := by
      rw [List.getElem_cons_drop, List.take_append_drop]
    conv_lhs => rw [hsplit]
    rw [List.filterMap_append, List.filterMap_cons]
    cases f c.tasks[i] <;> simp
  · simp only [resume, List.eraseIdx_eq_take_drop_succ, List.filterMap_append]
    cases next.2 with
    | none => rfl
    | some t' =>
      cases h : f t' <;> simp [h]

theorem length_held_le (h : c.OneScheduler) : c.held.length ≤ 1 := by
  rw [held, List.length_filterMap_eq_countP]
  refine (List.countP_mono_left fun t _ ht => ?_).trans h
  obtain ⟨job, hjob⟩ := Option.isSome_iff_exists.1 ht
  exact Task.isScheduler_of_holds hjob

/-- What a call does to the line. -/
inductive LineEffect (c : Conf) (l : Label) (c' : Conf) : Prop
  | same : c.starts l = none → c.appends l = none → c'.line = c.line → LineEffect c l c'
  | append (d : JobDict) : c.starts l = none → c.appends l = some d → c'.held = c.held →
      c'.mgr.queue = appendSorted c.mgr.queue d → LineEffect c l c'
  | dispatch (x : JobDict × List NodeRow) : c.starts l = some x → c.appends l = none →
      c.line = x.1 :: c'.line → LineEffect c l c'

theorem held_spawn (c : Conf) (m : Manager) (t : Option Task) :
    (c.spawn (m, t)).held = c.held ++ (t.bind Task.holds).toList := by
  rw [held, held, spawn, List.filterMap_append]
  cases t with
  | none => rfl
  | some t => cases h : t.holds <;> simp [h]

theorem lineEffect_of_holds (hone : c.OneScheduler) {i : ℕ} {now : Time} {t : Task}
    (hi : c.tasks[i]? = some t) {job : JobDict} (ht : t.holds = some job) :
    LineEffect c (.runTask i now) (c.resume i (t.step cfg now c.mgr)) := by
  obtain ⟨l₁, l₂, hheld, hheld'⟩ :=
    filterMap_resume Task.holds c hi (t.step cfg now c.mgr)
  -- no other task holds a job
  have hlen := length_held_le hone
  rw [held, hheld, ht, Option.toList_some, List.length_append, List.length_append,
    List.length_singleton] at hlen
  obtain rfl : l₁ = [] := List.length_eq_zero_iff.1 (by omega)
  obtain rfl : l₂ = [] := List.length_eq_zero_iff.1 (by omega)
  rw [ht] at hheld
  have hline : c.line = job :: c.mgr.queue := by rw [line, held, hheld]; rfl
  have hstarts : c.starts (.runTask i now) = t.starts := by rw [starts, hi]; rfl
  have happends : c.appends (.runTask i now) = t.appends := by rw [appends, hi]; rfl
  have hline' : (c.resume i (t.step cfg now c.mgr)).line =
      ((t.step cfg now c.mgr).2.bind Task.holds).toList ++ (t.step cfg now c.mgr).1.queue := by
    rw [line, held, hheld']
    rfl
  cases t with
  | schedSelect job =>
    obtain rfl := Option.some.inj ht
    refine .same hstarts happends ?_
    rw [hline', hline]
    simp only [Task.step]
    split_ifs <;> rfl
  | schedRequeue job =>
    obtain rfl := Option.some.inj ht
    exact .same hstarts happends (by rw [hline', hline]; rfl)
  | schedReserve job nodes todo =>
    obtain rfl := Option.some.inj ht
    cases todo with
    | nil => exact .dispatch (job, nodes) hstarts happends (by rw [hline', hline]; rfl)
    | cons node todo => exact .same hstarts happends (by rw [hline', hline]; rfl)
  | _ => cases ht

/-- **What a call does to the line**: it appends an entry, dispatches the first one, or leaves the
line as it is. -/
theorem lineEffect (hone : c.OneScheduler) (hst : exec cfg c l = some c') (hl : l ≠ .restart) :
    LineEffect c l c' := by
  cases call hst with
  | @first l m t hbegun =>
    have hstarts : c.starts l = none := by cases hbegun <;> rfl
    have happends : c.appends l = none := by cases hbegun <;> rfl
    refine .same hstarts happends ?_
    rw [line, held_spawn, line]
    cases hbegun with
    | @popJob now job queue hno hq =>
      -- the top entry of the queue comes into the hands of the scheduler
      have hheld : c.held = [] := List.filterMap_eq_nil_iff.2 fun t ht =>
        Task.holds_of_not_scheduler (by simpa using List.any_eq_false.1 hno t ht)
      rw [hheld, hq]
      rfl
    | registerNode | sendHeartbeat | listenForCommands | takeCommand | reportIgnored | reportRetry
      | reportFail | reportCompleted | submitJob | noJob | noneOffline | someOffline | probe =>
      exact congrArg (· ++ c.mgr.queue) (List.append_nil _)
  | restart => exact absurd rfl hl
  | @next i now t hi =>
    cases ht : t.holds with
    | some job => exact lineEffect_of_holds hone hi ht
    | none =>
      obtain ⟨l₁, l₂, hheld, hheld'⟩ :=
        filterMap_resume Task.holds c hi (t.step cfg now c.mgr)
      obtain ⟨hq, hnone⟩ := Task.queue_step_of_holds_none cfg now c.mgr ht
      rw [ht, Option.toList_none, List.append_nil] at hheld
      rw [hnone, Option.toList_none, List.append_nil, ← hheld] at hheld'
      have hstarts : c.starts (.runTask i now) = none := by
        rw [starts, hi]
        cases hs : t.starts with
        | none => exact hs
        | some x => rw [Task.eq_of_starts hs] at ht; cases ht
      have happends : c.appends (.runTask i now) = t.appends := by rw [appends, hi]; rfl
      cases ha : t.appends with
      | none =>
        rw [ha] at hq happends
        refine .same hstarts happends ?_
        rw [line, held, hheld']
        exact congrArg (c.held ++ ·) hq
      | some d =>
        rw [ha] at hq happends
        exact .append d hstarts happends hheld' hq

/-- What a call does to the jobs that are being submitted. -/
inductive PendingEffect (c : Conf) (l : Label) (c' : Conf) : Prop
  | same : c.submits l = none → (∀ j req now, l ≠ .submitJob j req now) →
      c'.pending = c.pending → PendingEffect c l c'
  | insert (j : String) (req : JobSubmitRequest) (now : Time) : l = .submitJob j req now →
      c.submits l = none → c'.pending = c.pending ++ [j] → PendingEffect c l c'
  | append (j : String) : c.submits l = some j → (∀ j req now, l ≠ .submitJob j req now) →
      c.pending.Perm (j :: c'.pending) → PendingEffect c l c'

theorem pendingEffect (hst : exec cfg c l = some c') (hl : l ≠ .restart) :
    PendingEffect c l c' := by
  cases call hst with
  | @first l m t hbegun =>
    cases hbegun with
    | @submitJob jobId req now =>
      refine .insert jobId req now rfl rfl ?_
      rw [pending, spawn, List.filterMap_append]
      rfl
    | registerNode | reportRetry | reportFail | reportCompleted | popJob | noneOffline
      | someOffline =>
      refine .same rfl (by rintro _ _ _ ⟨⟩) ?_
      rw [pending, spawn, List.filterMap_append]
      exact List.append_nil _
    | sendHeartbeat | listenForCommands | takeCommand | reportIgnored | noJob | probe =>
      refine .same rfl (by rintro _ _ _ ⟨⟩) ?_
      rw [pending, spawn, List.filterMap_append]
      exact List.append_nil _
  | restart => exact absurd rfl hl
  | @next i now t hi =>
    obtain ⟨l₁, l₂, hp, hp'⟩ := filterMap_resume Task.submitting c hi (t.step cfg now c.mgr)
    have hnone : (t.step cfg now c.mgr).2.bind Task.submitting = none := by
      cases ht : (t.step cfg now c.mgr).2 with
      | none => rfl
      | some t' => exact Task.submitting_step ht
    rw [hnone, Option.toList_none, List.append_nil] at hp'
    have hsubmits : c.submits (.runTask i now) = t.submitting := by rw [submits, hi]; rfl
    cases ht : t.submitting with
    | none =>
      rw [ht, Option.toList_none, List.append_nil] at hp
      exact .same (hsubmits.trans ht) (by rintro _ _ _ ⟨⟩) (hp'.trans hp.symm)
    | some j =>
      rw [ht, Option.toList_some] at hp
      refine .append j (hsubmits.trans ht) (by rintro _ _ _ ⟨⟩) ?_
      rw [pending, pending, hp, hp', List.append_assoc, List.singleton_append]
      exact List.perm_middle

theorem submitted_step (hst : exec cfg c l = some c') (j : String) :
    Event.submitted j ∈ c'.mgr.history ↔
      Event.submitted j ∈ c.mgr.history ∨ ∃ req now, l = .submitJob j req now := by
  cases call hst with
  | first hbegun =>
    cases hbegun with
    | @submitJob jobId req now =>
      rw [show (c.spawn _).mgr.history = c.mgr.history ++ [.submitted jobId] from rfl,
        List.mem_append, List.mem_singleton, Event.submitted.injEq]
      refine or_congr_right ⟨?_, ?_⟩
      · rintro rfl
        exact ⟨req, now, rfl⟩
      · rintro ⟨_, _, ⟨⟩⟩
        rfl
    | registerNode | sendHeartbeat | listenForCommands | takeCommand | reportIgnored | reportRetry
      | reportFail | reportCompleted | noJob | popJob | noneOffline | someOffline | probe =>
      exact (or_iff_left (by rintro ⟨_, _, ⟨⟩⟩)).symm
  | restart => exact (or_iff_left (by rintro ⟨_, _, ⟨⟩⟩)).symm
  | next =>
    refine (Task.submitted_step ..).trans (or_iff_left ?_).symm
    rintro ⟨_, _, ⟨⟩⟩

end Conf

end Dmlf
