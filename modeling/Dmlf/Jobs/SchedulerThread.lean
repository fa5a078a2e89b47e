import Dmlf.Loop.Basic
import Dmlf.Manager.Outgoing

/-!
# The scheduler thread

`BaseScheduler` (`dmlf/manager/schedulers/base.py`) runs its passes in a thread that can be stopped
and started again.  A stop whose `join` times out leaves a thread behind that is still at its pass.
Here any number of threads may be at their passes at the same time; that there is never more than
one is what `Conf.fine` assumes.

* `HostedManager.refines_fine` : the manager with its scheduler thread, stopped and started at any
  time, does what the interleaved manager may do.
* `HostedManager.stopped_run` : once the scheduler has been stopped and its pass is over, no job is
  dispatched, also not after a `start` that finds the old thread alive.
-/

namespace Dmlf

/-- A manager and the threads of its scheduler. -/
structure HostedManager where
  conf : Conf
  scheduler : Loops

/-- What happens to a manager with a scheduler thread. -/
inductive HostLabel where
  /-- `scheduler.start()`. -/
  | start
  /-- `scheduler.stop()`. -/
  | stop
  /-- Thread `i` goes on in its loop. -/
  | loop (i : ℕ) (now : Time)
  /-- A call of a handler, of the monitor, or of a pass that has begun. -/
  | call (l : Label)

namespace HostedManager

variable (cfg : Setup)

/-- A manager that has just been started, before `scheduler.start()`. -/
def serve (registry : Registry) : HostedManager := ⟨.start registry, .new⟩

/-- The next point of thread `i`.  Behind its second look at the event it begins a pass, whatever
other threads do; and it goes on when a pass is over. -/
def loop (x : HostedManager) (i : ℕ) : Option HostedManager :=
  match x.scheduler.threads[i]? with
  | none | some .done => none
  | some .awake =>
    let scheduler := x.scheduler.move i (LoopPoint.next x.scheduler.stopped .awake)
    if x.scheduler.stopped then some ⟨x.conf, scheduler⟩
    else some ⟨x.conf.spawn x.conf.mgr.beginSchedulerPass, scheduler⟩
  | some .working =>
    -- there are fewer passes with calls left than threads at a pass
    if x.conf.tasks.countP Task.isScheduler < x.scheduler.working then
      some { x with scheduler := x.scheduler.move i .top }
    else none
  | some p => some { x with scheduler := x.scheduler.move i (p.next x.scheduler.stopped) }

/-- One step.  A new process starts its scheduler anew. -/
def exec (x : HostedManager) : HostLabel → Option HostedManager
  | .start => some { x with scheduler := x.scheduler.start }
  | .stop => some { x with scheduler := x.scheduler.stop }
  | .loop i _ => x.loop i
  | .call (.schedulerPass _) => none
  | .call .restart => (x.conf.exec cfg .restart).map fun conf => ⟨conf, .new⟩
  | .call l => (x.conf.exec cfg l).map fun conf => { x with conf }

/-- The manager with its scheduler thread as a transition system. -/
def lts : LTS HostedManager HostLabel := LTS.ofExec (exec cfg)

/-- One thread at most is alive, and every pass with calls left is that of a thread. -/
structure Sound (x : HostedManager) : Prop where
  single : x.scheduler.Single
  passes : x.conf.tasks.countP Task.isScheduler ≤ x.scheduler.working

variable {cfg} {x x' : HostedManager} {l : Label} {i : ℕ} {now : Time}

theorem sound_serve (registry : Registry) : (serve registry).Sound where
  single := Loops.single_new
  passes := Nat.le_refl 0

theorem countP_call {c c' : Conf} (hst : c.exec cfg l = some c')
    (hl : ∀ now, l ≠ .schedulerPass now) :
    c'.tasks.countP Task.isScheduler ≤ c.tasks.countP Task.isScheduler := by
  cases Conf.call hst with
  | first hbegun =>
    cases hbegun with
    | noJob | popJob => exact absurd rfl (hl _)
    | registerNode | sendHeartbeat | listenForCommands | takeCommand | reportIgnored | reportRetry
      | reportFail | reportCompleted | submitJob | noneOffline | someOffline | probe =>
      simp [Conf.spawn, Task.isScheduler]
  | restart => exact Nat.zero_le _
  | @next i now t hi =>
    rw [Conf.countP_eraseIdx Task.isScheduler c hi]
    simp only [Conf.resume, List.countP_append]
    cases hn : (t.step cfg now c.mgr).2 with
    | none => simp
    | some t' =>
      rw [Option.toList_some, List.countP_singleton, Task.isScheduler_step (by rw [hn]; rfl)]

/-- What thread `i` can do. -/
inductive LoopEffect (x : HostedManager) (i : ℕ) : HostedManager → Prop
  | move (p : LoopPoint) : x.scheduler.threads[i]? = some p → p ≠ .done → p ≠ .working →
      p.next x.scheduler.stopped ≠ .working →
      LoopEffect x i { x with scheduler := x.scheduler.move i (p.next x.scheduler.stopped) }
  | begin : x.scheduler.threads[i]? = some .awake → x.scheduler.stopped = false →
      LoopEffect x i ⟨x.conf.spawn x.conf.mgr.beginSchedulerPass, x.scheduler.move i .working⟩
  | finish : x.scheduler.threads[i]? = some .working →
      x.conf.tasks.countP Task.isScheduler < x.scheduler.working →
      LoopEffect x i { x with scheduler := x.scheduler.move i .top }

theorem loopEffect (h : x.loop i = some x') : LoopEffect x i x' := by
  unfold loop at h
  split at h
  · cases h
  · cases h
  · rename_i hi
    dsimp only at h
    split_ifs at h with hstop
    · obtain rfl := Option.some.inj h
      exact .move .awake hi (by decide) (by decide) (by simp [LoopPoint.next, hstop])
    · obtain rfl := Option.some.inj h
      have hstop : x.scheduler.stopped = false := by simpa using hstop
      rw [hstop]
      exact .begin hi hstop
  · rename_i hi
    obtain ⟨hlt, h⟩ := Option.ite_none_right_eq_some.1 h
    obtain rfl := Option.some.inj h
    exact .finish hi hlt
  · rename_i p hdone hawake hworking hi
    obtain rfl := Option.some.inj h
    refine .move p hi hdone hworking ?_
    cases p with
    | top | asleep => cases x.scheduler.stopped <;> decide
    | awake => exact (hawake rfl).elim
    | working => exact (hworking rfl).elim
    | done => exact (hdone rfl).elim

theorem call_eq (h : exec cfg x (.call l) = some x') :
    (∀ now, l ≠ .schedulerPass now) ∧ ∃ c, x.conf.exec cfg l = some c ∧
      (l = .restart ∧ x' = ⟨c, .new⟩ ∨ l ≠ .restart ∧ x' = { x with conf := c }) := by
  cases l with
  | schedulerPass => cases h
  | restart =>
    simp only [exec] at h
    obtain ⟨c, hc, rfl⟩ := Option.map_eq_some_iff.1 h
    exact ⟨by rintro _ ⟨⟩, c, hc, .inl ⟨rfl, rfl⟩⟩
  | registerNode | sendHeartbeat | listenForCommands | takeCommand | reportJobStatus | submitJob
    | monitorPass | probe | runTask =>
    simp only [exec] at h
    obtain ⟨c, hc, rfl⟩ := Option.map_eq_some_iff.1 h
    exact ⟨by rintro _ ⟨⟩, c, hc, .inr ⟨by rintro ⟨⟩, rfl⟩⟩

/-- A thread that looks at the event finds no pass with calls left. -/
theorem Sound.countP_eq_zero (h : x.Sound) (hi : x.scheduler.threads[i]? = some .awake) :
    x.conf.tasks.countP Task.isScheduler = 0 := by
  have hzero := h.single.working_eq_zero hi (by decide) (by decide)
  have hle := h.passes
  omega

theorem countP_beginSchedulerPass (c : Conf) :
    (c.spawn c.mgr.beginSchedulerPass).tasks.countP Task.isScheduler ≤
      c.tasks.countP Task.isScheduler + 1 := by
  rw [Conf.spawn, List.countP_append]
  have hle : (c.mgr.beginSchedulerPass.2.toList.countP Task.isScheduler) ≤ 1 :=
    List.countP_le_length.trans (by cases c.mgr.beginSchedulerPass.2 <;> simp)
  omega

theorem Sound.loop (h : x.Sound) (hst : x.loop i = some x') : x'.Sound := by
  have hpasses := h.passes
  cases loopEffect hst with
  | move p hi hdone hworking hnext =>
    refine ⟨h.single.move (Loops.isAlive_of_getElem? hi hdone) _, ?_⟩
    have hcount := Loops.working_move (q := p.next x.scheduler.stopped) hi
    rw [if_neg hworking, if_neg hnext] at hcount
    dsimp only
    omega
  | begin hi hstop =>
    refine ⟨h.single.move (Loops.isAlive_of_getElem? hi (by decide)) _, ?_⟩
    have hcount := Loops.working_move (q := .working) hi
    have hzero := h.countP_eq_zero hi
    have hle := countP_beginSchedulerPass x.conf
    simp only [reduceCtorEq, if_false, if_true] at hcount
    dsimp only
    omega
  | finish hi hlt =>
    refine ⟨h.single.move (Loops.isAlive_of_getElem? hi (by decide)) _, ?_⟩
    have hcount := Loops.working_move (q := .top) hi
    simp only [reduceCtorEq, if_false, if_true] at hcount
    dsimp only
    omega

theorem Sound.step {a : HostLabel} (h : x.Sound) (hst : exec cfg x a = some x') :
    x'.Sound ∧ (x'.conf = x.conf ∨ ∃ l, x.conf.exec cfg l = some x'.conf) := by
  cases a with
  | start =>
    obtain rfl := Option.some.inj hst
    exact ⟨⟨h.single.start, (Loops.working_start x.scheduler).symm ▸ h.passes⟩, .inl rfl⟩
  | stop =>
    obtain rfl := Option.some.inj hst
    exact ⟨⟨h.single.stop, h.passes⟩, .inl rfl⟩
  | loop i now =>
    refine ⟨h.loop hst, ?_⟩
    cases loopEffect hst with
    | move | finish => exact .inl rfl
    | begin hi hstop =>
      -- the guard of the interleaved manager is met
      have hno : ¬ x.conf.tasks.any Task.isScheduler = true := by
        have hzero := List.countP_eq_zero.1 (h.countP_eq_zero hi)
        simpa using hzero
      exact .inr ⟨.schedulerPass now, if_neg hno⟩
  | call l =>
    obtain ⟨hl, c, hc, ⟨rfl, rfl⟩ | ⟨-, rfl⟩⟩ := call_eq hst
    · obtain rfl := Option.some.inj hc
      exact ⟨⟨Loops.single_new, Nat.le_refl 0⟩, .inr ⟨.restart, rfl⟩⟩
    · exact ⟨⟨h.single, (countP_call hc hl).trans h.passes⟩, .inr ⟨l, hc⟩⟩

/-- **The interleaved manager is what runs**: whenever the scheduler is stopped and started, one
thread of it is alive at most, and no call is made that `Conf.fine` does not allow. -/
theorem refines_fine {registry : Registry} (h : (lts cfg).Reachable (serve registry) x) :
    (Conf.fine cfg).Reachable (.start registry) x.conf ∧
      ∀ i k, x.scheduler.isAlive i = true → x.scheduler.isAlive k = true → i = k := by
  have hkeep := h.keeps (I := fun x => x.Sound ∧ (Conf.fine cfg).Reachable (.start registry) x.conf)
    (fun x a x' hst ⟨hx, hreach⟩ => by
      obtain ⟨hx', hsame | ⟨l, hl⟩⟩ := hx.step hst
      · exact ⟨hx', hsame ▸ hreach⟩
      · exact ⟨hx', hreach.next l hl⟩)
    ⟨sound_serve registry, .start⟩
  exact ⟨hkeep.2, fun i k => hkeep.1.single.unique⟩

namespace Sample

/-- The scheduler's thread dispatches a job for two nodes.  After its pass it is stopped. -/
def hosted : List HostLabel :=
  [.start, .loop 0 100, .loop 0 102] ++ (Dmlf.Sample.dispatchTwo.take 6).map .call ++
    .loop 0 102 :: List.replicate 7 (.call (.runTask 0 102)) ++ [.loop 0 103, .stop]

end Sample

/-- A job runs on two nodes, and the thread has not seen yet that it is to stop. -/
theorem refines_fine_hosted : ∃ x, (lts Dmlf.Sample.setup).Reachable (serve .empty) x ∧
    ((x.conf.mgr.registry.getJobs .running).length = 1 ∧ x.scheduler.stopped = true ∧
      x.scheduler.isAlive 0 = true) ∧
    (Conf.fine Dmlf.Sample.setup).Reachable (.start .empty) x.conf ∧
    ∀ i k, x.scheduler.isAlive i = true → x.scheduler.isAlive k = true → i = k := by
  obtain ⟨x, hreach, hx⟩ := LTS.exists_of_exec (exec Dmlf.Sample.setup) (serve .empty) Sample.hosted
    (fun x => decide ((x.conf.mgr.registry.getJobs .running).length = 1 ∧
      x.scheduler.stopped = true ∧ x.scheduler.isAlive 0 = true)) (by decide +kernel)
  exact ⟨x, hreach, of_decide_eq_true hx, refines_fine hreach⟩

/-! ### A scheduler that has been stopped -/

/-- The process is not restarted, and `start` is called while the old thread is alive only. -/
def Undisturbed (x : HostedManager) : HostLabel → Prop
  | .start => x.scheduler.current.any x.scheduler.isAlive = true
  | .call l => l ≠ .restart
  | _ => True

instance (a : HostLabel) : Decidable (x.Undisturbed a) :=
  match a with
  | .start => inferInstanceAs (Decidable (_ = _))
  | .call .restart => isFalse fun h => h rfl
  | .call (.registerNode ..) | .call (.sendHeartbeat ..) | .call (.listenForCommands _)
  | .call (.takeCommand _) | .call (.reportJobStatus ..) | .call (.submitJob ..)
  | .call (.schedulerPass _) | .call (.monitorPass _) | .call (.probe _) | .call (.runTask ..) =>
    isTrue Label.noConfusion
  | .stop | .loop .. => isTrue trivial

/-- The scheduler is stopped, and none of its threads is at a pass. -/
structure Stopped (x : HostedManager) : Prop where
  sound : x.Sound
  stopped : x.scheduler.stopped = true
  idle : x.scheduler.working = 0

theorem Stopped.starts_eq_none (h : x.Stopped) (l : Label) : x.conf.starts l = none := by
  cases l with
  | runTask i now =>
    simp only [Conf.starts]
    cases hi : x.conf.tasks[i]? with
    | none => rfl
    | some t =>
      cases ht : t.starts with
      | none => simpa using ht
      | some y =>
        have hle := h.sound.passes
        rw [h.idle] at hle
        have hno := List.countP_eq_zero.1 (Nat.le_zero.1 hle) t (List.mem_of_getElem? hi)
        rw [Task.eq_of_starts ht] at hno
        exact absurd rfl hno
  | registerNode | sendHeartbeat | listenForCommands | takeCommand | reportJobStatus | submitJob
    | schedulerPass | monitorPass | probe | restart => rfl

theorem Stopped.step {a : HostLabel} (h : x.Stopped) (ha : x.Undisturbed a)
    (hst : exec cfg x a = some x') : x'.Stopped ∧
      ∀ j, dispatchesIn x'.conf.mgr.history j = dispatchesIn x.conf.mgr.history j := by
  have hsound := (h.sound.step hst).1
  cases a with
  | start =>
    obtain rfl := Option.some.inj hst
    have hstart : x.scheduler.start = x.scheduler := if_pos ha
    refine ⟨⟨hsound, ?_, ?_⟩, fun _ => rfl⟩
    · rw [hstart, h.stopped]
    · rw [hstart, h.idle]
  | stop =>
    obtain rfl := Option.some.inj hst
    exact ⟨⟨hsound, rfl, h.idle⟩, fun _ => rfl⟩
  | loop i now =>
    cases loopEffect hst with
    | move p hi hdone hworking hnext =>
      have hcount := Loops.working_move (q := p.next x.scheduler.stopped) hi
      rw [if_neg hworking, if_neg hnext, h.idle] at hcount
      exact ⟨⟨hsound, h.stopped, hcount⟩, fun _ => rfl⟩
    | begin hi hstop => cases hstop.symm.trans h.stopped
    | finish hi hlt =>
      rw [h.idle] at hlt
      exact absurd hlt (Nat.not_lt_zero _)
  | call l =>
    obtain ⟨-, c, hc, ⟨rfl, -⟩ | ⟨-, rfl⟩⟩ := call_eq hst
    · exact absurd rfl ha
    · exact ⟨⟨hsound, h.stopped, h.idle⟩,
        (Conf.running_step_of_quiet hc (h.starts_eq_none l)).2⟩

/-- **Nothing is dispatched by a scheduler that has been stopped**, once its pass is over, whatever
else happens, and also after a `start` that has come too early: while the old thread is alive,
`start` leaves the event set. -/
theorem stopped_run {registry : Registry} (h : (lts cfg).Reachable (serve registry) x)
    (hstop : x.scheduler.stopped = true) (hidle : x.scheduler.working = 0)
    (hrun : ((lts cfg).restrict Undisturbed).Reachable x x') (j : String) :
    dispatchesIn x'.conf.mgr.history j = dispatchesIn x.conf.mgr.history j := by
  have hsound : x.Sound := h.keeps (fun _ _ _ hst hx => (hx.step hst).1) (sound_serve registry)
  have hkeep := hrun.keeps (I := fun x' => x'.Stopped ∧
      dispatchesIn x'.conf.mgr.history j = dispatchesIn x.conf.mgr.history j)
    (fun y a y' hst ⟨hy, hcount⟩ => by
      obtain ⟨hy', hsame⟩ := hy.step hst.1 hst.2
      exact ⟨hy', (hsame j).trans hcount⟩)
    ⟨⟨hsound, hstop, hidle⟩, rfl⟩
  exact hkeep.2

/-- The scheduler is started again while the old thread is alive; a job that is submitted then stays
in the queue. -/
theorem stopped_run_startedEarly : ∃ x x', (lts Dmlf.Sample.setup).Reachable (serve .empty) x ∧
    ((lts Dmlf.Sample.setup).restrict Undisturbed).Reachable x x' ∧
    (x'.scheduler.stopped = true ∧ x'.conf.mgr.queue.length = 1) ∧
    dispatchesIn x'.conf.mgr.history "job-2" = dispatchesIn x.conf.mgr.history "job-2" := by
  obtain ⟨x, hreach, hx⟩ := LTS.exists_of_exec (exec Dmlf.Sample.setup) (serve .empty) Sample.hosted
    (fun x => decide ((x.scheduler.stopped = true ∧ x.scheduler.working = 0) ∧
      (LTS.exec (fun x a => if x.Undisturbed a then exec Dmlf.Sample.setup x a else none) x
        [.start, .call (.submitJob "job-2" (Dmlf.Sample.job 1 1) 104), .call (.runTask 0 104),
          .loop 0 104]).any (fun x' => decide (x'.scheduler.stopped = true ∧
          x'.conf.mgr.queue.length = 1)) = true)) (by decide +kernel)
  obtain ⟨⟨hstop, hidle⟩, hlater⟩ := of_decide_eq_true hx
  obtain ⟨x', hrun, hx'⟩ := LTS.exists_of_exec_restrict _ _ x _ _ hlater
  exact ⟨x, x', hreach, hrun, of_decide_eq_true hx', stopped_run hreach hstop hidle hrun "job-2"⟩

end HostedManager

end Dmlf
