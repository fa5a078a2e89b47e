import Dmlf.Agent.Basic
import Dmlf.Manager.Tasks

/-!
# An agent and its command stream

An agent by itself, in front of any manager: a `Session` yields it any commands, breaks its stream
and lets it connect again, while its processes exit and its log threads report, in any order.
`NodeAgent.start` opens a new stream after each break.

* `JobLauncher.isBusy_*` : when the launcher has a live process.
* `Session.truthful_iff` : the status tells the truth exactly as long as no process ends by itself
  and no stream breaks or is opened again at the wrong time.
-/

namespace Dmlf

/-! ### The launcher has a live process -/

namespace JobLauncher

variable {launcher launcher' : JobLauncher}

theorem isBusy_launchTorchrun (launcher : JobLauncher) (command : Command) :
    (launcher.launchTorchrun command).isBusy = true := by
  unfold launchTorchrun
  split_ifs with hbusy
  · exact hbusy
  · simp [isBusy]

theorem isBusy_stopCurrentJob (launcher : JobLauncher) :
    launcher.stopCurrentJob.isBusy = false := by
  unfold stopCurrentJob
  split_ifs with hbusy
  · rfl
  · simpa using hbusy

theorem isBusy_setProcess {k : ℕ} {p q : Process} (hk : launcher.processes[k]? = some p)
    (hq : q.exitCode = p.exitCode) : (launcher.setProcess k q).isBusy = launcher.isBusy := by
  unfold isBusy setProcess
  cases launcher.currentProcess with
  | none => rfl
  | some i =>
    simp only [Option.any_some, List.getElem?_set]
    split_ifs with hi hlt
    · subst hi
      simp [hk, hq]
    · subst hi
      simp [List.getElem?_eq_none (not_lt.1 hlt)]
    · rfl

theorem isBusy_exit {k : ℕ} {code : ℤ} (h : launcher.exit k code = some launcher') :
    launcher'.isBusy = (launcher.isBusy && launcher.currentProcess != some k) ∧
      (launcher.currentProcess = some k → launcher.isBusy = true) := by
  obtain ⟨p, hp, halive, rfl⟩ := eq_of_exit h
  obtain ⟨hlt, -⟩ := List.getElem?_eq_some_iff.1 hp
  refine ⟨?_, fun hk => by simp [isBusy, hk, hp, halive]⟩
  unfold isBusy setProcess
  cases hcur : launcher.currentProcess with
  | none => rfl
  | some i =>
    by_cases hi : k = i
    · subst hi
      simp [hlt]
    · have hne : (some i != some k) = true := by simpa using Ne.symm hi
      simp [List.getElem?_set_ne hi, hne]

theorem isBusy_logStep {k : ℕ} {status : Option String}
    (h : launcher.logStep k = some (launcher', status)) : launcher'.isBusy = launcher.isBusy := by
  obtain ⟨p, thread, hp, rfl⟩ := eq_of_logStep h
  exact isBusy_setProcess hp rfl

end JobLauncher

/-! ### Sessions -/

/-- An agent with the state of its stream. -/
structure Session where
  agent : Agent
  isOpen : Bool
  /-- Auxiliary: the ids of the commands that the streams have yielded so far. -/
  yielded : List CommandId
  /-- Auxiliary: the `LAUNCH_JOB` commands that the agent has handled so far. -/
  taken : List Command
  /-- Auxiliary: the reports that the agent has sent so far. -/
  reports : List Report

/-- What happens to an agent. -/
inductive SessionMove where
  | connect
  | yield (command : Command)
  | receive
  | disconnect
  | exit (k : ℕ) (code : ℤ)
  | logStep (k : ℕ)

namespace Session

/-- An agent that has just registered. -/
def start : Session := ⟨.new, false, [], [], []⟩

variable (nodeId : String) (s : Session)

/-- The `LAUNCH_JOB` command that the agent takes next. -/
def nextLaunch : Option Command :=
  s.agent.stream.head?.filter fun command => command.type = .launchJob

/-- One move.  Every command has an id of its own. -/
def exec : SessionMove → Option Session
  | .connect => if s.isOpen then none else some { s with isOpen := true }
  | .yield command =>
    if s.isOpen = true ∧ command.commandId ∉ s.yielded then
      some { s with
        agent := { s.agent with stream := s.agent.stream ++ [command] }
        yielded := s.yielded ++ [command.commandId] }
    else none
  | .receive =>
    s.agent.receive.map fun agent =>
      { s with agent, taken := s.taken ++ s.nextLaunch.toList }
  -- also when the attempt to open a stream fails
  | .disconnect => some { s with agent := s.agent.disconnect, isOpen := false }
  | .exit k code => (s.agent.exit k code).map fun agent => { s with agent }
  | .logStep k =>
    (s.agent.logStep nodeId k).map fun (agent, report) =>
      { s with agent, reports := s.reports ++ report.toList }

/-- An agent and its streams as a transition system. -/
def lts : LTS Session SessionMove := LTS.ofExec (exec nodeId)

/-! ### The status -/

/-- The status is `TRAINING` exactly if the launcher has a live process, and `IDLE` if it has none
and the stream is open. -/
def Truthful (s : Session) : Prop :=
  (s.agent.status = "TRAINING" ↔ s.agent.launcher.isBusy = true) ∧
    (s.agent.launcher.isBusy = false → s.isOpen = true → s.agent.status = "IDLE")

/-- The status keeps pace with the move: it is no exit of the current process, no break under a
live process, and no connection after a break. -/
def KeepsPace (s : Session) : SessionMove → Prop
  | .connect => s.agent.launcher.isBusy = false → s.agent.status = "IDLE"
  | .disconnect => s.agent.launcher.isBusy = false
  | .exit k _ => s.agent.launcher.currentProcess ≠ some k
  | .yield _ | .receive | .logStep _ => True

variable {nodeId} {s s' : Session}

theorem truthful_start : start.Truthful := ⟨by decide, fun _ h => absurd h (by decide)⟩

theorem Truthful.congr (h : s.Truthful) (hs : s'.agent.status = s.agent.status)
    (hb : s'.agent.launcher.isBusy = s.agent.launcher.isBusy) (ho : s'.isOpen = s.isOpen) :
    s'.Truthful := by
  unfold Truthful
  rw [hs, hb, ho]
  exact h

theorem truthful_receive (h : s.Truthful) (hst : exec nodeId s .receive = some s') :
    s'.Truthful := by
  obtain ⟨agent, hagent, rfl⟩ := Option.map_eq_some_iff.1 hst
  unfold Agent.receive at hagent
  split at hagent
  · cases hagent
  · rename_i command stream hstream
    obtain rfl := Option.some.inj hagent
    cases htype : command.type with
    | launchJob =>
      have hbusy := JobLauncher.isBusy_launchTorchrun s.agent.launcher command
      exact ⟨iff_of_true rfl hbusy, fun hidle => by simp [hbusy] at hidle⟩
    | stopJob =>
      have hidle := JobLauncher.isBusy_stopCurrentJob s.agent.launcher
      have hne : "IDLE" ≠ "TRAINING" := by decide
      exact ⟨iff_of_false hne (by simp [hidle]), fun _ _ => rfl⟩
    | unknown => exact h.congr rfl rfl rfl

/-- From a truthful status a move leads to a truthful one exactly if the status keeps pace. -/
theorem truthful_step {mv : SessionMove} (h : s.Truthful) (hst : exec nodeId s mv = some s') :
    s'.Truthful ↔ s.KeepsPace mv := by
  cases mv with
  | connect =>
    obtain ⟨-, hs'⟩ := Option.ite_none_left_eq_some.1 hst
    obtain rfl := Option.some.inj hs'
    exact ⟨fun h' hidle => h'.2 hidle rfl, fun hpace => ⟨h.1, fun hidle _ => hpace hidle⟩⟩
  | yield command =>
    obtain ⟨-, hs'⟩ := Option.ite_none_right_eq_some.1 hst
    obtain rfl := Option.some.inj hs'
    exact iff_of_true (h.congr rfl rfl rfl) trivial
  | receive => exact iff_of_true (truthful_receive h hst) trivial
  | disconnect =>
    obtain rfl := Option.some.inj hst
    have hne : "OFFLINE" ≠ "TRAINING" := by decide
    constructor
    · intro h'
      exact Bool.eq_false_iff.2 (mt h'.1.2 hne)
    · intro hidle
      have hbusy : ¬ s.agent.launcher.isBusy = true := by
        rw [show s.agent.launcher.isBusy = false from hidle]
        exact Bool.false_ne_true
      exact ⟨iff_of_false hne hbusy, fun _ hopen => absurd hopen Bool.false_ne_true⟩
  | exit k code =>
    obtain ⟨agent, hagent, rfl⟩ := Option.map_eq_some_iff.1 hst
    obtain ⟨launcher, hlauncher, rfl⟩ := Option.map_eq_some_iff.1 hagent
    obtain ⟨hbusy', hbusy⟩ := JobLauncher.isBusy_exit hlauncher
    by_cases hk : s.agent.launcher.currentProcess = some k
    · -- the status is still `TRAINING`
      have htraining := h.1.2 (hbusy hk)
      refine iff_of_false (fun h' => ?_) fun hpace => hpace hk
      have := h'.1.1 htraining
      simp [hbusy', hk] at this
    · refine iff_of_true (h.congr rfl ?_ rfl) hk
      simp [hbusy', hk]
  | logStep k =>
    obtain ⟨⟨agent, report⟩, hlog, rfl⟩ := Option.map_eq_some_iff.1 hst
    obtain ⟨p, launcher, status, -, hlauncher, rfl, rfl⟩ := Agent.eq_of_logStep hlog
    exact iff_of_true (h.congr rfl (JobLauncher.isBusy_logStep hlauncher) rfl) trivial

/-- **The status tells the truth, exactly if it keeps pace.**  In all states of a run of an agent,
the status is `TRAINING` if and only if the launcher has a live process, and `IDLE` if it has none
while the stream is open, exactly if no current process exits, no stream breaks under a live
process, and no stream is opened after a break. -/
theorem truthful_iff {tr : List (SessionMove × Session)} (h : (lts nodeId).Run start tr) :
    LTS.StatesMeet Truthful start tr ↔ LTS.StepsMeet KeepsPace start tr :=
  h.statesMeet_iff_stepsMeet (K := fun _ => True) (fun _ _ _ _ _ => trivial)
    (fun _ _ _ _ hI hst => truthful_step hI hst) trivial truthful_start

end Session

namespace Sample

/-- An agent connects and launches a job. -/
def launchOne : List SessionMove := [.connect, .yield (launch "job-1"), .receive]

end Sample

namespace Session

/-- The run in which a job is launched. -/
theorem truthful_iff_launch :
    LTS.StatesMeet Truthful start (LTS.runOf (exec "node-1") start Sample.launchOne) ↔
      LTS.StepsMeet KeepsPace start (LTS.runOf (exec "node-1") start Sample.launchOne) :=
  truthful_iff (LTS.run_runOf _ _ _)

/-- A job is launched and completes: the agent goes on with `TRAINING`. -/
theorem truthful_fails :
    ¬ ∀ (nodeId : String) (s : Session), (lts nodeId).Reachable start s → s.Truthful := by
  intro hall
  obtain ⟨s, hs, hp⟩ := LTS.exists_of_exec (exec "node-1") start
    (Sample.launchOne ++ [.logStep 0, .exit 0 0, .logStep 0, .logStep 0])
    (fun s => s.agent.status = "TRAINING" && !s.agent.launcher.isBusy)
    (by decide +kernel)
  obtain ⟨hstatus, hidle⟩ := (Bool.and_eq_true _ _).mp hp
  have hbusy := (hall _ s hs).1.1 (of_decide_eq_true hstatus)
  simp [hbusy] at hidle

end Session

end Dmlf
