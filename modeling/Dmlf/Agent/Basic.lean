import Dmlf.Manager.Basic

/-!
# The node agent

`NodeAgent` (`dmlf/agent/agent.py`) takes commands from its stream, one after the other, and
tells its heartbeats what it does in `status`; its `JobLauncher` (`dmlf/agent/launcher.py`) starts
the processes.  A log thread reads the output of a process, waits for it and reports its job.

Processes are numbered in the order of their start.  The log threads look up
`self.current_process` when they need it, so a log thread may read or wait for another process
than the one it was started for.
-/

namespace Dmlf

/-- Where `log_generator` is. -/
inductive LogThread where
  /-- Before the first look at `self.current_process`. -/
  | starting
  /-- Reading the output of process `k`. -/
  | reading (k : ℕ)
  /-- Waiting for the exit of process `k`. -/
  | waiting (k : ℕ)
  /-- Done, with or without a report. -/
  | finished
  deriving DecidableEq

/-- A `torchrun` process and its log thread. -/
structure Process where
  /-- The command that started it. -/
  command : Command
  /-- `poll()`: `None` as long as the process is alive. -/
  exitCode : Option ℤ
  logThread : LogThread

/-- `JobLauncher`, with all the processes it has started. -/
structure JobLauncher where
  processes : List Process
  currentProcess : Option ℕ

namespace JobLauncher

variable (launcher : JobLauncher)

/-- A launcher that has not started anything. -/
def new : JobLauncher := ⟨[], none⟩

/-- `self.current_process and self.current_process.poll() is None`. -/
def isBusy : Bool :=
  launcher.currentProcess.any fun k =>
    launcher.processes[k]?.any fun p => p.exitCode.isNone

/-- `launch_torchrun`: start a process, unless one is running. -/
def launchTorchrun (command : Command) : JobLauncher :=
  if launcher.isBusy then launcher
  else
    { processes := launcher.processes ++ [⟨command, none, .starting⟩]
      currentProcess := some launcher.processes.length }

/-- `stop_current_job`: signal the process, which may take its time, and forget it. -/
def stopCurrentJob : JobLauncher :=
  if launcher.isBusy then { launcher with currentProcess := none } else launcher

/-- Overwrite process `k`. -/
def setProcess (k : ℕ) (p : Process) : JobLauncher :=
  { launcher with processes := launcher.processes.set k p }

/-- Process `k` exits. -/
def exit (k : ℕ) (code : ℤ) : Option JobLauncher :=
  launcher.processes[k]?.bind fun p =>
    if p.exitCode.isNone then some (launcher.setProcess k { p with exitCode := some code })
    else none

/-- The next move of the log thread of process `k`, and the status it reports, if any.  The
output may end at any time.  Without a current process the generator raises an error. -/
def logStep (k : ℕ) : Option (JobLauncher × Option String) :=
  launcher.processes[k]?.bind fun p =>
    match p.logThread with
    | .starting =>
      some (launcher.setProcess k
        { p with logThread := (launcher.currentProcess.map .reading).getD .finished }, none)
    | .reading _ =>
      some (launcher.setProcess k
        { p with logThread := (launcher.currentProcess.map .waiting).getD .finished }, none)
    | .waiting i =>
      (launcher.processes[i]?.bind Process.exitCode).map fun exitCode =>
        (launcher.setProcess k { p with logThread := .finished },
          some (if exitCode = 0 then "completed" else "failed"))
    | .finished => none

variable {launcher} {launcher' : JobLauncher} {k : ℕ} {p q : Process}

theorem getElem?_setProcess (hk : launcher.processes[k]? = some p) (j : ℕ) :
    (launcher.setProcess k q).processes[j]? =
      if j = k then some q else launcher.processes[j]? := by
  obtain ⟨hlt, -⟩ := List.getElem?_eq_some_iff.1 hk
  rw [setProcess, List.getElem?_set]
  by_cases hj : k = j
  · subst hj
    simp [hlt]
  · simp [hj, Ne.symm hj]

theorem getElem?_launchTorchrun {command : Command}
    (h : (launcher.launchTorchrun command).processes[k]? = some p) :
    launcher.processes[k]? = some p ∨
      launcher.isBusy = false ∧ k = launcher.processes.length ∧ p = ⟨command, none, .starting⟩ := by
  unfold launchTorchrun at h
  split_ifs at h with hbusy
  · exact .inl h
  · rcases lt_trichotomy k launcher.processes.length with hlt | rfl | hgt
    · rw [List.getElem?_append_left hlt] at h
      exact .inl h
    · rw [List.getElem?_concat_length] at h
      exact .inr ⟨by simpa using hbusy, rfl, (Option.some.inj h).symm⟩
    · rw [List.getElem?_eq_none (by simp; omega)] at h
      cases h

theorem eq_of_exit {code : ℤ} (h : launcher.exit k code = some launcher') : ∃ p,
    launcher.processes[k]? = some p ∧ p.exitCode.isNone ∧
      launcher' = launcher.setProcess k { p with exitCode := some code } := by
  obtain ⟨p, hp, h⟩ := Option.bind_eq_some_iff.1 h
  obtain ⟨halive, h⟩ := Option.ite_none_right_eq_some.1 h
  exact ⟨p, hp, halive, (Option.some.inj h).symm⟩

theorem eq_of_logStep {status : Option String}
    (h : launcher.logStep k = some (launcher', status)) : ∃ p thread,
    launcher.processes[k]? = some p ∧
      launcher' = launcher.setProcess k { p with logThread := thread } := by
  obtain ⟨p, hp, h⟩ := Option.bind_eq_some_iff.1 h
  split at h
  · exact ⟨p, _, hp, (Prod.mk.inj (Option.some.inj h)).1.symm⟩
  · exact ⟨p, _, hp, (Prod.mk.inj (Option.some.inj h)).1.symm⟩
  · obtain ⟨code, -, heq⟩ := Option.map_eq_some_iff.1 h
    exact ⟨p, _, hp, (Prod.mk.inj heq).1.symm⟩
  · cases h

end JobLauncher

/-- A report on its way to the manager, with the command whose process it is about. -/
structure Report where
  origin : CommandId
  request : JobStatusRequest

/-- `NodeAgent`, with the commands its stream has yielded and it has not yet taken. -/
structure Agent where
  status : String
  launcher : JobLauncher
  stream : List Command

namespace Agent

variable (agent : Agent)

/-- An agent that has just registered. -/
def new : Agent := ⟨"IDLE", .new, []⟩

/-- `listen_for_commands`: take the next command. -/
def receive : Option Agent :=
  match agent.stream with
  | [] => none
  | command :: stream =>
    some <| match command.type with
      -- the status changes whether or not a process is started
      | .launchJob =>
        { status := "TRAINING", launcher := agent.launcher.launchTorchrun command, stream }
      | .stopJob => { status := "IDLE", launcher := agent.launcher.stopCurrentJob, stream }
      | .unknown => { agent with stream }

/-- The stream breaks, and what it carried is lost. -/
def disconnect : Agent := { agent with status := "OFFLINE", stream := [] }

/-- Process `k` exits. -/
def exit (k : ℕ) (code : ℤ) : Option Agent :=
  (agent.launcher.exit k code).map fun launcher => { agent with launcher }

/-- The log thread of process `k` makes a move, its last one being a report. -/
def logStep (nodeId : String) (k : ℕ) : Option (Agent × Option Report) :=
  agent.launcher.processes[k]?.bind fun p =>
    (agent.launcher.logStep k).map fun (launcher, status) =>
      ({ agent with launcher },
        status.map fun status =>
          ⟨p.command.commandId, ⟨nodeId, p.command.jobPayload.jobId, status⟩⟩)

variable {agent}

theorem eq_of_logStep {agent' : Agent} {nodeId : String} {k : ℕ} {report : Option Report}
    (h : agent.logStep nodeId k = some (agent', report)) : ∃ p launcher status,
    agent.launcher.processes[k]? = some p ∧
      agent.launcher.logStep k = some (launcher, status) ∧ agent' = { agent with launcher } ∧
      report = status.map fun status =>
        ⟨p.command.commandId, ⟨nodeId, p.command.jobPayload.jobId, status⟩⟩ := by
  obtain ⟨p, hp, h⟩ := Option.bind_eq_some_iff.1 h
  obtain ⟨⟨launcher, status⟩, hlog, heq⟩ := Option.map_eq_some_iff.1 h
  obtain ⟨rfl, rfl⟩ := Prod.mk.inj heq
  exact ⟨p, launcher, status, hp, hlog, rfl, rfl⟩

end Agent

end Dmlf
