import Dmlf.Agent.Session

/-!
# The launcher and its processes

`stop_current_job` sends a signal, waits two seconds for the log thread, and forgets the process,
dead or alive; meanwhile processes exit and log threads go on.  Here it has two steps, with anything
that is not done by the listener between them.

* `LauncherRun.exec` : the calls of the listener, the exits of the processes and the steps of their
  log threads, in any order.
* `LauncherRun.reports_belong` : every process gets one report, about itself, in the runs in which
  the log threads look at `self.current_process` while it is theirs.
* `LauncherRun.atMostOne_iff` : at most one process is alive in exactly the runs in which no process
  is launched while one that has been given up is still alive.
-/

namespace Dmlf

/-- The next step of the log thread looks at `self.current_process`, to read its output or to wait
for it. -/
def LogThread.looks : LogThread → Bool
  | .starting | .reading _ => true
  | .waiting _ | .finished => false

/-- A report, with the number of the process whose log thread has sent it. -/
structure LogReport where
  thread : ℕ
  jobId : String
  status : String
  deriving DecidableEq

/-- A launcher at work. -/
structure LauncherRun where
  launcher : JobLauncher
  /-- `stop_current_job` has sent its signal and waits for the log thread. -/
  stopping : Bool
  /-- Auxiliary: the reports that have been sent so far. -/
  reports : List LogReport

/-- What happens to a launcher. -/
inductive LauncherMove where
  | launchTorchrun (command : Command)
  /-- `stop_current_job` up to the wait. -/
  | stopCurrentJob
  /-- The log thread has ended, or the two seconds are over. -/
  | joined
  | exit (k : ℕ) (code : ℤ)
  | logStep (k : ℕ)

namespace LauncherRun

/-- A launcher that has not started anything. -/
def start : LauncherRun := ⟨.new, false, []⟩

variable (s : LauncherRun)

/-- One move.  There is one listener, so nothing is launched while it waits. -/
def exec : LauncherMove → Option LauncherRun
  | .launchTorchrun command =>
    if s.stopping then none else some { s with launcher := s.launcher.launchTorchrun command }
  | .stopCurrentJob => if s.stopping then none else some { s with stopping := s.launcher.isBusy }
  | .joined =>
    if s.stopping then
      some { s with launcher := { s.launcher with currentProcess := none }, stopping := false }
    else none
  | .exit k code => (s.launcher.exit k code).map fun launcher => { s with launcher }
  | .logStep k =>
    s.launcher.processes[k]?.bind fun p =>
      (s.launcher.logStep k).map fun (launcher, status) =>
        { s with
          launcher
          reports := s.reports ++
            (status.map fun status => ⟨k, p.command.jobPayload.jobId, status⟩).toList }

/-- A launcher as a transition system. -/
def lts : LTS LauncherRun LauncherMove := LTS.ofExec exec

variable {s} {s' : LauncherRun} {mv : LauncherMove} {k : ℕ} {p : Process}

theorem exit_eq {code : ℤ} (hst : s.exec (.exit k code) = some s') : ∃ p,
    s.launcher.processes[k]? = some p ∧ p.exitCode.isNone ∧
      s' = { s with launcher := s.launcher.setProcess k { p with exitCode := some code } } := by
  obtain ⟨launcher, hexit, rfl⟩ := Option.map_eq_some_iff.1 hst
  obtain ⟨p, hp, halive, rfl⟩ := JobLauncher.eq_of_exit hexit
  exact ⟨p, hp, halive, rfl⟩

/-! ### Reports -/

/-- The status that is reported for an exit code. -/
def statusOf (exitCode : ℤ) : String := if exitCode = 0 then "completed" else "failed"

/-- The reports that the log thread of process `k` has sent. -/
def reportsOf (s : LauncherRun) (k : ℕ) : List LogReport :=
  s.reports.filter fun r => r.thread = k

/-- Every report belongs to its job, and every process gets one. -/
structure ReportsBelong (s : LauncherRun) : Prop where
  /-- A report names the job of its process, which has exited, and says `completed` exactly if that
  was with code 0. -/
  status : ∀ r ∈ s.reports, ∃ p code, s.launcher.processes[r.thread]? = some p ∧
    r.jobId = p.command.jobPayload.jobId ∧ p.exitCode = some code ∧
    r.status = statusOf code ∧ (r.status = "completed" ↔ code = 0)
  /-- A log thread that has ended has sent one report, and any other one none. -/
  once : ∀ k p, s.launcher.processes[k]? = some p →
    (s.reportsOf k).length = if p.logThread = .finished then 1 else 0
  /-- The log thread of a process that has exited does not wait for another one. -/
  progress : ∀ k p, s.launcher.processes[k]? = some p → p.exitCode.isSome →
    p.logThread ≠ .finished → (s.exec (.logStep k)).isSome

/-- When a log thread looks at `self.current_process`, it finds its own process. -/
def LooksAtOwn (s : LauncherRun) : LauncherMove → Prop
  | .logStep k => ∀ p ∈ s.launcher.processes[k]?, p.logThread.looks →
      s.launcher.currentProcess = some k
  | _ => True

instance (s : LauncherRun) : DecidablePred s.LooksAtOwn := fun mv =>
  match mv with
  | .logStep k => inferInstanceAs (Decidable (∀ p ∈ s.launcher.processes[k]?, _))
  | .launchTorchrun _ | .stopCurrentJob | .joined | .exit _ _ => .isTrue trivial

/-- What a log thread has done so far, if it has found its own process. -/
def ThreadOwn (k : ℕ) (p : Process) (reports : List LogReport) : Prop :=
  match p.logThread with
  | .starting => reports = []
  | .reading i | .waiting i => i = k ∧ reports = []
  | .finished => ∃ code, p.exitCode = some code ∧
      reports = [⟨k, p.command.jobPayload.jobId, statusOf code⟩]

/-- All log threads have found their own processes. -/
structure Own (s : LauncherRun) : Prop where
  threads : ∀ k p, s.launcher.processes[k]? = some p → ThreadOwn k p (s.reportsOf k)
  reports : ∀ r ∈ s.reports, r.thread < s.launcher.processes.length

theorem own_start : start.Own where
  threads := by
    intro k p hp
    cases hp
  reports := by simp [start]

theorem statusOf_eq_completed {code : ℤ} : statusOf code = "completed" ↔ code = 0 := by
  unfold statusOf
  split_ifs with h <;> simp [h]

theorem Own.reportsBelong (h : s.Own) : s.ReportsBelong where
  status := by
    intro r hr
    obtain ⟨p, hp⟩ : ∃ p, s.launcher.processes[r.thread]? = some p :=
      ⟨_, List.getElem?_eq_getElem (h.reports r hr)⟩
    have hmem : r ∈ s.reportsOf r.thread := List.mem_filter.2 ⟨hr, by simp⟩
    have hthread := h.threads r.thread p hp
    unfold ThreadOwn at hthread
    split at hthread
    · rw [hthread] at hmem
      cases hmem
    · rw [hthread.2] at hmem
      cases hmem
    · rw [hthread.2] at hmem
      cases hmem
    · obtain ⟨code, hcode, heq⟩ := hthread
      rw [heq] at hmem
      rw [List.mem_singleton.1 hmem] at hp ⊢
      exact ⟨p, code, hp, rfl, hcode, rfl, statusOf_eq_completed⟩
  once := by
    intro k p hp
    have hthread := h.threads k p hp
    unfold ThreadOwn at hthread
    split at hthread
    · simp [*]
    · simp [*]
    · simp [*]
    · obtain ⟨code, -, heq⟩ := hthread
      simp [*]
  progress := by
    intro k p hp hexit hthread
    have hown := h.threads k p hp
    simp only [exec, JobLauncher.logStep, hp, Option.bind_some, Option.isSome_map]
    unfold ThreadOwn at hown
    cases hlog : p.logThread with
    | starting => rfl
    | reading i => rfl
    | waiting i =>
      rw [hlog] at hown
      obtain rfl := hown.1
      simp only [hp, Option.bind_some, Option.isSome_map]
      exact hexit
    | finished => exact absurd hlog hthread

theorem Own.set (h : s.Own) (hk : s.launcher.processes[k]? = some p) (q : Process)
    (new : List LogReport) (hnew : ∀ r ∈ new, r.thread = k)
    (hq : ThreadOwn k q (s.reportsOf k ++ new)) :
    Own { s with launcher := s.launcher.setProcess k q, reports := s.reports ++ new } where
  threads := by
    intro j q' hq'
    rw [JobLauncher.getElem?_setProcess hk] at hq'
    rw [reportsOf, List.filter_append]
    split_ifs at hq' with hj
    · obtain rfl := Option.some.inj hq'
      have hall : new.filter (fun r => r.thread = j) = new :=
        List.filter_eq_self.2 fun r hr => by simp [hnew r hr, hj]
      rw [hall, hj]
      exact hq
    · have hnone : new.filter (fun r => r.thread = j) = [] :=
        List.filter_eq_nil_iff.2 fun r hr => by simp [hnew r hr, Ne.symm hj]
      rw [hnone, List.append_nil]
      exact h.threads j q' hq'
  reports := by
    intro r hr
    rw [JobLauncher.setProcess, List.length_set]
    rcases List.mem_append.1 hr with hold | hr
    · exact h.reports r hold
    · rw [hnew r hr]
      exact (List.getElem?_eq_some_iff.1 hk).1

theorem own_launch (h : s.Own) (command : Command) :
    Own { s with launcher := s.launcher.launchTorchrun command } := by
  refine ⟨fun k p hp => ?_, fun r hr => ?_⟩
  · rcases JobLauncher.getElem?_launchTorchrun hp with hold | ⟨-, rfl, rfl⟩
    · exact h.threads k p hold
    · -- the new process has no report yet
      refine List.filter_eq_nil_iff.2 fun r hr => ?_
      simpa using (h.reports r hr).ne
  · refine (h.reports r hr).trans_le ?_
    dsimp only [JobLauncher.launchTorchrun]
    split_ifs
    · exact le_rfl
    · simp

/-- Log threads that look while `self.current_process` is theirs find their own processes. -/
theorem own_step : (lts.restrict LooksAtOwn).Preserves Own := by
  rintro s mv s' ⟨hG, hst⟩ h
  cases mv with
  | launchTorchrun command =>
    obtain ⟨-, heq⟩ := Option.ite_none_left_eq_some.1 hst
    obtain rfl := Option.some.inj heq
    exact own_launch h command
  | stopCurrentJob =>
    obtain ⟨-, heq⟩ := Option.ite_none_left_eq_some.1 hst
    obtain rfl := Option.some.inj heq
    exact ⟨h.threads, h.reports⟩
  | joined =>
    obtain ⟨-, heq⟩ := Option.ite_none_right_eq_some.1 hst
    obtain rfl := Option.some.inj heq
    exact ⟨h.threads, h.reports⟩
  | exit k code =>
    obtain ⟨p, hp, halive, rfl⟩ := exit_eq hst
    have hown := h.threads k p hp
    have hq : ThreadOwn k { p with exitCode := some code } (s.reportsOf k ++ []) := by
      rw [List.append_nil]
      unfold ThreadOwn at hown ⊢
      cases hlog : p.logThread with
      | finished =>
        -- a log thread ends after its process only
        rw [hlog] at hown
        obtain ⟨code', hcode, -⟩ := hown
        simp [hcode] at halive
      | starting | reading | waiting => simpa [hlog] using hown
    simpa using h.set hp _ [] (by simp) hq
  | logStep k =>
    obtain ⟨p, hp, hst⟩ := Option.bind_eq_some_iff.1 hst
    obtain ⟨⟨launcher, status⟩, hlog, rfl⟩ := Option.map_eq_some_iff.1 hst
    have hown := h.threads k p hp
    have hcur := hG p hp
    simp only [JobLauncher.logStep, hp, Option.bind_some] at hlog
    cases hthread : p.logThread with
    | starting =>
      rw [hcur (by rw [hthread]; rfl), hthread] at hlog
      obtain ⟨rfl, rfl⟩ := Prod.mk.inj (Option.some.inj hlog)
      rw [ThreadOwn, hthread] at hown
      exact h.set hp _ [] (by simp) ⟨rfl, by rw [hown]; rfl⟩
    | reading i =>
      rw [hcur (by rw [hthread]; rfl), hthread] at hlog
      obtain ⟨rfl, rfl⟩ := Prod.mk.inj (Option.some.inj hlog)
      rw [ThreadOwn, hthread] at hown
      exact h.set hp _ [] (by simp) ⟨rfl, by rw [hown.2]; rfl⟩
    | waiting i =>
      rw [ThreadOwn, hthread] at hown
      obtain ⟨rfl, hnone⟩ := hown
      simp only [hthread, hp, Option.bind_some] at hlog
      obtain ⟨code, hcode, heq⟩ := Option.map_eq_some_iff.1 hlog
      obtain ⟨rfl, rfl⟩ := Prod.mk.inj heq
      exact h.set hp _ _ (by simp) ⟨code, hcode, by rw [hnone]; rfl⟩
    | finished =>
      rw [hthread] at hlog
      cases hlog

/-- **Reported status belongs to the reported job** in all runs in which the log threads look at
`self.current_process` only while it is theirs. -/
theorem reports_belong (h : (lts.restrict LooksAtOwn).Reachable start s) : s.ReportsBelong :=
  (h.keeps own_step own_start).reportsBelong

theorem not_reportsBelong_of_none (h : s.Own) (hk : s.launcher.processes[k]? = some p)
    (hlooks : p.logThread.looks) (hcur : s.launcher.currentProcess = none)
    (hst : s.exec (.logStep k) = some s') : ¬ s'.ReportsBelong := by
  intro hbelong
  have hown := h.threads k p hk
  have hboth : s' = { s with
      launcher := s.launcher.setProcess k { p with logThread := .finished }
      reports := s.reports ++ [] } ∧ s.reportsOf k = [] := by
    simp only [exec, JobLauncher.logStep, hk, hcur, Option.bind_some] at hst
    cases hthread : p.logThread with
    | starting =>
      rw [hthread] at hst
      rw [ThreadOwn, hthread] at hown
      exact ⟨(Option.some.inj hst).symm, hown⟩
    | reading i =>
      rw [hthread] at hst
      rw [ThreadOwn, hthread] at hown
      exact ⟨(Option.some.inj hst).symm, hown.2⟩
    | waiting => simp [hthread, LogThread.looks] at hlooks
    | finished => simp [hthread, LogThread.looks] at hlooks
  obtain ⟨hs', hnone⟩ := hboth
  have honce := hbelong.once k { p with logThread := .finished }
    (by rw [hs', JobLauncher.getElem?_setProcess hk, if_pos rfl])
  rw [hs', reportsOf, List.append_nil] at honce
  change (s.reportsOf k).length = 1 at honce
  rw [hnone] at honce
  cases honce

/-- A process exits and is reported. -/
def reported : List LauncherMove :=
  [.launchTorchrun (Sample.launch "job-1"), .logStep 0, .exit 0 0, .logStep 0, .logStep 0]

theorem reports_belong_reported :
    ∃ s : LauncherRun, s.reports = [⟨0, "job-1", "completed"⟩] ∧ s.ReportsBelong := by
  obtain ⟨s, hs, hp⟩ := LTS.exists_of_exec_restrict exec LooksAtOwn start reported
    (fun s => s.reports = [⟨0, "job-1", "completed"⟩]) (by decide +kernel)
  exact ⟨s, of_decide_eq_true hp, reports_belong hs⟩

/-- The first process exits with code 0, and another job is launched before its log thread waits. -/
def overtaken : List LauncherMove :=
  [.launchTorchrun (Sample.launch "job-1"), .logStep 0, .exit 0 0,
    .launchTorchrun (Sample.launch "job-2"), .logStep 0, .exit 1 1, .logStep 0]

/-- The first job is reported as failed, with the exit code of the second. -/
theorem reports_belong_fails :
    ¬ ∀ s : LauncherRun, lts.Reachable start s → s.ReportsBelong := by
  intro hall
  obtain ⟨s, hs, hp⟩ := LTS.exists_of_exec exec start overtaken
    (fun s => s.reports = [⟨0, "job-1", "failed"⟩] ∧
      (s.launcher.processes[0]?.map Process.exitCode) = some (some 0)) (by decide +kernel)
  obtain ⟨hreports, hexit⟩ := of_decide_eq_true hp
  obtain ⟨p, code, hk, -, hcode, hstatus, -⟩ := (hall s hs).status ⟨0, "job-1", "failed"⟩
    (by rw [hreports]; exact List.mem_singleton.2 rfl)
  obtain ⟨p', hp', hzero⟩ := Option.map_eq_some_iff.1 hexit
  obtain rfl := Option.some.inj (hk.symm.trans hp')
  obtain rfl := Option.some.inj (hcode.symm.trans hzero)
  exact absurd hstatus (by decide)

/-! ### Processes -/

/-- The number of processes that have not exited. -/
def alive (s : LauncherRun) : ℕ := s.launcher.processes.countP fun p => p.exitCode.isNone

/-- At most one process is alive. -/
def AtMostOne (s : LauncherRun) : Prop := s.alive ≤ 1

/-- A launch that finds no live current process does not find one alive that has been given up. -/
def NoneGivenUp (s : LauncherRun) : LauncherMove → Prop
  | .launchTorchrun _ => s.launcher.isBusy = false →
      ∀ p ∈ s.launcher.processes, p.exitCode ≠ none
  | _ => True

/-- The wait of a stop ends after the process. -/
def StopsInTime (s : LauncherRun) : LauncherMove → Prop
  | .joined => s.launcher.isBusy = false
  | _ => True

instance : DecidablePred AtMostOne := fun s => inferInstanceAs (Decidable (s.alive ≤ 1))

theorem alive_eq_zero_iff : s.alive = 0 ↔ ∀ p ∈ s.launcher.processes, p.exitCode ≠ none := by
  simp [alive, List.countP_eq_zero]

theorem alive_setProcess (hk : s.launcher.processes[k]? = some p) (q : Process)
    (reports : List LogReport) :
    alive { s with launcher := s.launcher.setProcess k q, reports } +
        (if p.exitCode.isNone then 1 else 0) =
      s.alive + if q.exitCode.isNone then 1 else 0 := by
  obtain ⟨hlt, heq⟩ := List.getElem?_eq_some_iff.1 hk
  have hpos : p.exitCode.isNone → 0 < s.alive := fun hp =>
    List.countP_pos_iff.2 ⟨p, List.mem_of_getElem? hk, hp⟩
  simp only [alive, JobLauncher.setProcess, List.countP_set hlt, heq] at hpos ⊢
  by_cases hp : p.exitCode.isNone
  · have hpos := hpos hp
    rw [if_pos hp]
    omega
  · rw [if_neg hp]
    rfl

theorem alive_launch (s : LauncherRun) (command : Command) :
    alive { s with launcher := s.launcher.launchTorchrun command } =
      s.alive + if s.launcher.isBusy then 0 else 1 := by
  unfold JobLauncher.launchTorchrun alive
  split_ifs
  · rfl
  · simp

theorem logStep_eq (hst : s.exec (.logStep k) = some s') : ∃ p thread reports,
    s.launcher.processes[k]? = some p ∧ s' = { s with
      launcher := s.launcher.setProcess k { p with logThread := thread }
      reports } := by
  obtain ⟨_, -, hst⟩ := Option.bind_eq_some_iff.1 hst
  obtain ⟨⟨launcher, status⟩, hlog, rfl⟩ := Option.map_eq_some_iff.1 hst
  obtain ⟨p, thread, hp, rfl⟩ := JobLauncher.eq_of_logStep hlog
  exact ⟨p, thread, _, hp, rfl⟩

theorem alive_le (hmv : ∀ command, mv ≠ .launchTorchrun command) (hst : s.exec mv = some s') :
    s'.alive ≤ s.alive := by
  cases mv with
  | launchTorchrun command => exact absurd rfl (hmv command)
  | stopCurrentJob =>
    obtain ⟨-, heq⟩ := Option.ite_none_left_eq_some.1 hst
    obtain rfl := Option.some.inj heq
    exact le_rfl
  | joined =>
    obtain ⟨-, heq⟩ := Option.ite_none_right_eq_some.1 hst
    obtain rfl := Option.some.inj heq
    exact le_rfl
  | exit k code =>
    obtain ⟨p, hp, halive, rfl⟩ := exit_eq hst
    have hcount := alive_setProcess hp { p with exitCode := some code } s.reports
    rw [if_pos halive] at hcount
    change alive _ + 1 = s.alive + 0 at hcount
    omega
  | logStep k =>
    obtain ⟨p, thread, reports, hp, rfl⟩ := logStep_eq hst
    have hcount := alive_setProcess hp { p with logThread := thread } reports
    exact (Nat.add_right_cancel hcount).le

/-- A step keeps at most one process alive exactly if it launches none next to a live one. -/
theorem atMostOne_step (h : s.AtMostOne) (hst : s.exec mv = some s') :
    s'.AtMostOne ↔ s.NoneGivenUp mv := by
  by_cases hlaunch : ∃ command, mv = .launchTorchrun command
  · obtain ⟨command, rfl⟩ := hlaunch
    obtain ⟨-, heq⟩ := Option.ite_none_left_eq_some.1 hst
    obtain rfl := Option.some.inj heq
    rw [AtMostOne, alive_launch, NoneGivenUp, ← alive_eq_zero_iff]
    rw [AtMostOne] at h
    cases hbusy : s.launcher.isBusy with
    | true => exact iff_of_true h (by simp)
    | false =>
      simp only [Bool.false_eq_true, if_false, true_imp_iff]
      omega
  · have hmv : ∀ command, mv ≠ .launchTorchrun command := fun command heq =>
      hlaunch ⟨command, heq⟩
    refine iff_of_true ((alive_le hmv hst).trans h) ?_
    cases mv with
    | launchTorchrun command => exact absurd rfl (hmv command)
    | stopCurrentJob | joined | exit | logStep => trivial

/-- **At most one job process is alive**, at all times, in exactly the runs in which no process is
launched while one that has been given up is still alive. -/
theorem atMostOne_iff {tr : List (LauncherMove × LauncherRun)} (h : lts.Run start tr) :
    LTS.StatesMeet AtMostOne start tr ↔ LTS.StepsMeet NoneGivenUp start tr :=
  h.statesMeet_iff_stepsMeet (K := fun _ => True) (fun _ _ _ _ _ => trivial)
    (fun _ _ _ _ hs hst => atMostOne_step hs hst) trivial (Nat.zero_le 1)

/-- The current process is the only one that may be alive. -/
def Covered (s : LauncherRun) : Prop :=
  ∀ k p, s.launcher.processes[k]? = some p → p.exitCode = none →
    s.launcher.currentProcess = some k

theorem Covered.none_alive (h : s.Covered) (hbusy : s.launcher.isBusy = false) {k : ℕ} {p : Process}
    (hk : s.launcher.processes[k]? = some p) : p.exitCode ≠ none := by
  intro halive
  have hlive : s.launcher.isBusy = true := by
    rw [JobLauncher.isBusy, h k p hk halive]
    simp [hk, halive]
  rw [hlive] at hbusy
  cases hbusy

theorem Covered.set (h : s.Covered) (hk : s.launcher.processes[k]? = some p) {q : Process}
    (hq : q.exitCode = none → p.exitCode = none) (reports : List LogReport) :
    Covered { s with launcher := s.launcher.setProcess k q, reports } := by
  intro j r hr halive
  rw [JobLauncher.getElem?_setProcess hk] at hr
  split_ifs at hr with hj
  · obtain rfl := Option.some.inj hr
    rw [hj]
    exact h k p hk (hq halive)
  · exact h j r hr halive

theorem covered_step : (lts.restrict StopsInTime).Preserves Covered := by
  rintro s mv s' ⟨hG, hst⟩ h
  cases mv with
  | launchTorchrun command =>
    obtain ⟨-, heq⟩ := Option.ite_none_left_eq_some.1 hst
    obtain rfl := Option.some.inj heq
    intro k p hp halive
    rcases JobLauncher.getElem?_launchTorchrun hp with hold | ⟨hidle, rfl, -⟩
    · -- a launch next to a live process changes nothing
      have hbusy : s.launcher.isBusy = true := by
        rw [← Bool.not_eq_false]
        exact fun hidle => h.none_alive hidle hold halive
      simpa [JobLauncher.launchTorchrun, hbusy] using h k p hold halive
    · simp [JobLauncher.launchTorchrun, hidle]
  | stopCurrentJob =>
    obtain ⟨-, heq⟩ := Option.ite_none_left_eq_some.1 hst
    obtain rfl := Option.some.inj heq
    exact h
  | joined =>
    obtain ⟨-, heq⟩ := Option.ite_none_right_eq_some.1 hst
    obtain rfl := Option.some.inj heq
    exact fun k p hp halive => absurd halive (h.none_alive hG hp)
  | exit k code =>
    obtain ⟨p, hp, -, rfl⟩ := exit_eq hst
    exact h.set hp (by rintro ⟨⟩) s.reports
  | logStep k =>
    obtain ⟨p, thread, reports, hp, rfl⟩ := logStep_eq hst
    exact h.set (q := { p with logThread := thread }) hp id reports

/-- **At most one process is alive** if every process that is told to stop does so in time. -/
theorem atMostOne_of_stopsInTime (h : (lts.restrict StopsInTime).Reachable start s) :
    s.AtMostOne := by
  have hboth : s.Covered ∧ s.AtMostOne := by
    refine h.keeps (I := fun s => s.Covered ∧ s.AtMostOne) ?_ ⟨?_, Nat.zero_le 1⟩
    · rintro s mv s' hst ⟨hcov, hone⟩
      refine ⟨covered_step hst hcov, (atMostOne_step hone hst.2).2 ?_⟩
      cases mv with
      | launchTorchrun command =>
        intro hbusy p hp
        obtain ⟨k, hk⟩ := List.mem_iff_getElem?.1 hp
        exact hcov.none_alive hbusy hk
      | stopCurrentJob | joined | exit | logStep => trivial
    · intro k p hp
      cases hp
  exact hboth.2

/-- A job that is stopped survives the two seconds, and another one is launched. -/
def survived : List LauncherMove :=
  [.launchTorchrun (Sample.launch "job-1"), .logStep 0, .stopCurrentJob, .joined,
    .launchTorchrun (Sample.launch "job-2")]

theorem atMostOne_iff_survived :
    LTS.StatesMeet AtMostOne start (LTS.runOf exec start survived) ↔
      LTS.StepsMeet NoneGivenUp start (LTS.runOf exec start survived) :=
  atMostOne_iff (LTS.run_runOf _ _ _)

/-- Two processes are alive. -/
theorem atMostOne_fails :
    ¬ ∀ s : LauncherRun, lts.Reachable start s → s.AtMostOne := by
  intro hall
  obtain ⟨s, hs, hp⟩ := LTS.exists_of_exec exec start survived
    (fun s => decide ¬ s.AtMostOne) (by decide +kernel)
  exact of_decide_eq_true hp (hall s hs)

end LauncherRun

end Dmlf
