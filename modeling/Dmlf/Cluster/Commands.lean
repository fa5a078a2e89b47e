import Dmlf.Agent.Launches
import Dmlf.Cluster.Basic
import Dmlf.Manager.Effects

/-!
# The commands in a cluster

A command goes from a queue of the manager to a stream, and from there to the process that is
started for it; a report goes back to the command of its process.  This is so however fine the calls
of the manager are.

* `World.mem_commandsAt_step` : an agent has no command that its node has not had before.
* `World.forall_commandsAt_step` : a property of all commands, one move later.
* `World.mem_reports_step` : a report is about a process of its node.
-/

namespace Dmlf

namespace Agent

variable {agent agent' : Agent}

theorem started_receive (h : agent.receive = some agent') :
    ∃ command, agent.stream = command :: agent'.stream ∧
      (agent'.launcher.started = agent.launcher.started ∨
        agent'.launcher.started = agent.launcher.started ++ [command]) := by
  unfold receive at h
  split at h
  · cases h
  · rename_i command stream hs
    obtain rfl := Option.some.inj h
    refine ⟨command, ?_⟩
    cases command.type with
    | unknown => exact ⟨hs, .inl rfl⟩
    | stopJob => exact ⟨hs, .inl (JobLauncher.started_stopCurrentJob _)⟩
    | launchJob =>
      refine ⟨hs, ?_⟩
      rw [JobLauncher.started_launchTorchrun]
      split_ifs
      · exact .inl rfl
      · exact .inr rfl

theorem started_exit {k : ℕ} {code : ℤ} (h : agent.exit k code = some agent') :
    agent'.launcher.started = agent.launcher.started := by
  obtain ⟨launcher, hlauncher, rfl⟩ := Option.map_eq_some_iff.1 h
  exact JobLauncher.started_exit hlauncher

theorem started_logStep {nodeId : String} {k : ℕ} {report : Option Report}
    (h : agent.logStep nodeId k = some (agent', report)) :
    agent'.launcher.started = agent.launcher.started := by
  obtain ⟨p, launcher, status, -, hlog, rfl, -⟩ := eq_of_logStep h
  exact JobLauncher.started_logStep hlog

theorem stream_exit {k : ℕ} {code : ℤ} (h : agent.exit k code = some agent') :
    agent'.stream = agent.stream := by
  obtain ⟨launcher, -, rfl⟩ := Option.map_eq_some_iff.1 h
  rfl

theorem stream_logStep {nodeId : String} {k : ℕ} {report : Option Report}
    (h : agent.logStep nodeId k = some (agent', report)) : agent'.stream = agent.stream := by
  obtain ⟨p, launcher, status, -, -, rfl, -⟩ := eq_of_logStep h
  rfl

/-- The commands that an agent has on its stream, or has started processes for. -/
def commands (agent : Agent) : List Command := agent.stream ++ agent.launcher.started

theorem commands_receive (h : agent.receive = some agent') :
    agent'.commands ⊆ agent.commands := by
  obtain ⟨taken, hstream, hstarted⟩ := started_receive h
  intro command hc
  rw [commands, List.mem_append] at hc
  rw [commands, hstream]
  rcases hc with hc | hc
  · exact List.mem_append_left _ (List.mem_cons_of_mem _ hc)
  · rcases hstarted with hsame | hnew
    · exact List.mem_append_right _ (hsame ▸ hc)
    · rw [hnew, List.mem_append, List.mem_singleton] at hc
      rcases hc with hc | rfl
      · exact List.mem_append_right _ hc
      · exact List.mem_append_left _ List.mem_cons_self

theorem commands_exit {k : ℕ} {code : ℤ} (h : agent.exit k code = some agent') :
    agent'.commands = agent.commands := by
  rw [commands, commands, stream_exit h, started_exit h]

theorem commands_logStep {nodeId : String} {k : ℕ} {report : Option Report}
    (h : agent.logStep nodeId k = some (agent', report)) : agent'.commands = agent.commands := by
  rw [commands, commands, stream_logStep h, started_logStep h]

theorem mem_commands_of_logStep {nodeId : String} {k : ℕ} {report : Report}
    (h : agent.logStep nodeId k = some (agent', some report)) :
    ∃ command ∈ agent.commands, report.origin = command.commandId ∧
      report.request.jobId = command.jobPayload.jobId ∧ report.request.nodeId = nodeId := by
  obtain ⟨p, launcher, status, hp, -, -, heq⟩ := eq_of_logStep h
  obtain ⟨s, -, rfl⟩ := Option.map_eq_some_iff.1 heq.symm
  exact ⟨p.command, List.mem_append_right _ (List.mem_map_of_mem (List.mem_of_getElem? hp)), rfl,
    rfl, rfl⟩

end Agent

namespace World

variable {X : Type} {sys : ManagerSystem X} {w w' : World X} {mv : Move} {n : String}
  {command : Command}

/-- The commands that are queued for a node, or that its agent has. -/
def commandsAt (mgr : X → Manager) (w : World X) (n : String) : List Command :=
  ((mgr w.manager).commandQueues n).getD [] ++ ((w.agents n).map Agent.commands).getD []

theorem mem_commandsAt_of_queued {q : List Command}
    (hq : (sys.mgr w.manager).commandQueues n = some q) (hc : command ∈ q) :
    command ∈ w.commandsAt sys.mgr n :=
  List.mem_append_left _ (by rwa [hq])

theorem mem_commandsAt_of_agent {agent : Agent} (ha : w.agents n = some agent)
    (hc : command ∈ agent.commands) : command ∈ w.commandsAt sys.mgr n :=
  List.mem_append_right _ (by rwa [ha])

theorem mem_commandsAt_of_setAgent {nodeId : String} {agent agent' agent'' : Agent}
    (ha : w.agents nodeId = some agent) (hsub : agent'.commands ⊆ agent.commands)
    (ha'' : (w.setAgent nodeId agent').agents n = some agent'') (hc : command ∈ agent''.commands) :
    command ∈ w.commandsAt sys.mgr n := by
  simp only [setAgent] at ha''
  split_ifs at ha'' with hn
  · subst hn
    obtain rfl := Option.some.inj ha''
    exact mem_commandsAt_of_agent ha (hsub hc)
  · exact mem_commandsAt_of_agent ha'' hc

theorem mem_commandsAt_step (hst : (lts sys).step w mv w') {agent' : Agent}
    (ha' : w'.agents n = some agent') (hc : command ∈ agent'.commands) :
    command ∈ w.commandsAt sys.mgr n := by
  cases effect _ hst with
  | manager | buildHeartbeat | deliverHeartbeat | listen | deliverReport =>
    exact mem_commandsAt_of_agent ha' hc
  | @join nodeId nodeSecret req now x =>
    simp only [setAgent] at ha'
    split_ifs at ha' with hn
    · obtain rfl := Option.some.inj ha'
      cases hc
    · exact mem_commandsAt_of_agent ha' hc
  | @takeCommand nodeId agent taken m x ha htake =>
    simp only [setAgent] at ha'
    split_ifs at ha' with hn
    · subst hn
      obtain rfl := Option.some.inj ha'
      obtain ⟨rest, hq, -⟩ := Manager.takeCommand_eq_some htake
      simp only [Agent.commands, List.mem_append, List.mem_singleton] at hc
      rcases hc with (hc | rfl) | hc
      · exact mem_commandsAt_of_agent ha (List.mem_append_left _ hc)
      · exact mem_commandsAt_of_queued hq List.mem_cons_self
      · exact mem_commandsAt_of_agent ha (List.mem_append_right _ hc)
    · exact mem_commandsAt_of_agent ha' hc
  | receive ha hrec => exact mem_commandsAt_of_setAgent ha (Agent.commands_receive hrec) ha' hc
  | disconnect ha => exact mem_commandsAt_of_setAgent ha (List.subset_append_right _ _) ha' hc
  | exit ha hexit =>
    exact mem_commandsAt_of_setAgent ha (fun _ h => Agent.commands_exit hexit ▸ h) ha' hc
  | logStep ha hlog =>
    exact mem_commandsAt_of_setAgent ha (fun _ h => Agent.commands_logStep hlog ▸ h) ha' hc

/-- **A property of all commands** holds after a move if the move keeps it, and the commands that
the manager puts into the queues have it. -/
theorem forall_commandsAt_step {P Q : Command → Prop} (hst : (lts sys).step w mv w')
    (hkeep : ∀ command, P command → Q command)
    (hnew : ∀ l, label w mv = some l → ∀ n q,
      (sys.mgr w'.manager).commandQueues n = some q → ∀ command ∈ q,
        (∃ q', (sys.mgr w.manager).commandQueues n = some q' ∧ command ∈ q') ∨ Q command)
    (h : ∀ n, ∀ command ∈ w.commandsAt sys.mgr n, P command) :
    ∀ n, ∀ command ∈ w'.commandsAt sys.mgr n, Q command := by
  intro n command hc
  rcases List.mem_append.1 hc with hc | hc
  · cases hq : (sys.mgr w'.manager).commandQueues n with
    | none => rw [hq] at hc; cases hc
    | some q =>
      rw [hq] at hc
      have hc : command ∈ q := hc
      cases hl : label w mv with
      | none =>
        have hsame : w'.manager = w.manager := (projection sys).quiet hst hl
        exact hkeep command (h n command (mem_commandsAt_of_queued (hsame ▸ hq) hc))
      | some l =>
        rcases hnew l hl n q hq command hc with ⟨q', hq', hc'⟩ | hQ
        · exact hkeep command (h n command (mem_commandsAt_of_queued hq' hc'))
        · exact hQ
  · cases ha : w'.agents n with
    | none => rw [ha] at hc; cases hc
    | some agent =>
      rw [ha] at hc
      exact hkeep command (h n command (mem_commandsAt_step hst ha hc))

/-- **A report** that is under way or has been handled was so before the move, or is about a process
of its node. -/
theorem mem_reports_step (sys : ManagerSystem X) (hst : (lts sys).step w mv w') {report : Report}
    (h : report ∈ w'.reports ∨ report ∈ w'.handled) :
    (report ∈ w.reports ∨ report ∈ w.handled) ∨
      ∃ n, ∃ command ∈ w.commandsAt sys.mgr n, report.origin = command.commandId ∧
        report.request.jobId = command.jobPayload.jobId ∧ report.request.nodeId = n := by
  cases effect _ hst with
  | manager | join | buildHeartbeat | deliverHeartbeat | listen | takeCommand | receive | disconnect
    | exit => exact .inl h
  | @logStep nodeId k agent agent' new ha hlog =>
    rcases h with h | h
    · rcases List.mem_append.1 h with h | h
      · exact .inl (.inl h)
      · obtain rfl : new = some report := Option.mem_toList.1 h
        obtain ⟨command, hc, hreport⟩ := Agent.mem_commands_of_logStep hlog
        exact .inr ⟨nodeId, command, mem_commandsAt_of_agent ha hc, hreport⟩
    · exact .inl (.inr h)
  | @deliverReport i now delivered x hi =>
    refine .inl ?_
    rcases h with h | h
    · exact .inl (List.mem_of_mem_eraseIdx h)
    · rcases List.mem_append.1 h with h | h
      · exact .inr h
      · obtain rfl := List.mem_singleton.1 h
        exact .inl (List.mem_of_getElem? hi)

end World

end Dmlf
