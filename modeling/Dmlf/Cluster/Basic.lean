import Dmlf.Manager.Tasks
import Dmlf.Agent.Basic

/-!
# The cluster

A `World` is a manager with its agents and the messages between them: heartbeats and reports that
are under way, and the command streams.  Messages may take any time, overtake each other and never
arrive; agents may stop moving at any time, and so may their processes.

The manager of a world is either taken call by call or handler by handler, so a world is built
over a `ManagerSystem`; `World.projection` says that a move of the world is a step of its manager
or leaves the manager alone.
-/

namespace Dmlf

/-- The steps of a manager, at some granularity. -/
structure ManagerSystem (X : Type) where
  mgr : X → Manager
  exec : X → Label → Option X

/-- The manager call by call. -/
def ManagerSystem.fine (cfg : Setup) : ManagerSystem Conf := ⟨Conf.mgr, Conf.exec cfg⟩

/-- The manager handler by handler. -/
def ManagerSystem.serial (cfg : Setup) : ManagerSystem Manager := ⟨id, Manager.perform cfg⟩

/-- What needs no message from an agent. -/
def Label.isInternal : Label → Bool
  | .submitJob _ _ _ | .schedulerPass _ | .monitorPass _ | .probe _ | .restart
  | .runTask _ _ => true
  | _ => false

/-- A manager, its agents by node id, and the messages under way. -/
structure World (X : Type) where
  manager : X
  agents : String → Option Agent
  heartbeats : List HeartbeatRequest
  reports : List Report
  /-- Auxiliary: the reports that the manager has handled so far. -/
  handled : List Report

/-- The moves of a world. -/
inductive Move where
  | manager (l : Label)
  | join (nodeId nodeSecret : String) (req : RegistrationRequest) (now : Time)
  | buildHeartbeat (nodeId : String) (metrics : Metrics) (sendTimestamp : Time)
  | deliverHeartbeat (i : ℕ) (now : Time)
  | listen (nodeId : String)
  | takeCommand (nodeId : String)
  | receive (nodeId : String)
  | disconnect (nodeId : String)
  | exit (nodeId : String) (k : ℕ) (code : ℤ)
  | logStep (nodeId : String) (k : ℕ)
  | deliverReport (i : ℕ) (now : Time)

namespace World

variable {X : Type}

/-- A manager without agents. -/
def start (x : X) : World X := ⟨x, fun _ => none, [], [], []⟩

/-- Overwrite the agent of node `nodeId`. -/
def setAgent (w : World X) (nodeId : String) (agent : Agent) : World X :=
  { w with agents := fun n => if n = nodeId then some agent else w.agents n }

variable (sys : ManagerSystem X)

/-- One move.  A heartbeat carries the status that its agent has when it is built. -/
def exec (w : World X) : Move → Option (World X)
  | .manager l =>
    if l.isInternal then (sys.exec w.manager l).map fun manager => { w with manager } else none
  | .join nodeId nodeSecret req now =>
    (sys.exec w.manager (.registerNode nodeId nodeSecret req now)).map fun manager =>
      { w with manager }.setAgent nodeId .new
  | .buildHeartbeat nodeId metrics sendTimestamp =>
    (w.agents nodeId).map fun agent =>
      { w with heartbeats := w.heartbeats ++ [⟨nodeId, metrics, agent.status, sendTimestamp⟩] }
  | .deliverHeartbeat i now =>
    w.heartbeats[i]?.bind fun req =>
      (sys.exec w.manager (.sendHeartbeat req now)).map fun manager =>
        { w with manager, heartbeats := w.heartbeats.eraseIdx i }
  | .listen nodeId =>
    (w.agents nodeId).bind fun _ =>
      (sys.exec w.manager (.listenForCommands nodeId)).map fun manager => { w with manager }
  | .takeCommand nodeId =>
    (w.agents nodeId).bind fun agent =>
      ((sys.mgr w.manager).takeCommand nodeId).bind fun (command, _) =>
        (sys.exec w.manager (.takeCommand nodeId)).map fun manager =>
          { w with manager }.setAgent nodeId { agent with stream := agent.stream ++ [command] }
  | .receive nodeId =>
    (w.agents nodeId).bind fun agent => agent.receive.map (w.setAgent nodeId)
  -- with the stream the commands are lost that it has carried and the agent has not taken
  | .disconnect nodeId =>
    (w.agents nodeId).map fun agent => w.setAgent nodeId agent.disconnect
  | .exit nodeId k code =>
    (w.agents nodeId).bind fun agent => (agent.exit k code).map (w.setAgent nodeId)
  | .logStep nodeId k =>
    (w.agents nodeId).bind fun agent =>
      (agent.logStep nodeId k).map fun (agent, report) =>
        { w.setAgent nodeId agent with reports := w.reports ++ report.toList }
  -- any of the reports under way may be the next one
  | .deliverReport i now =>
    w.reports[i]?.bind fun report =>
      (sys.exec w.manager (.reportJobStatus report.request now)).map fun manager =>
        { w with manager, reports := w.reports.eraseIdx i, handled := w.handled ++ [report] }

/-- The world as a transition system. -/
def lts : LTS (World X) Move := LTS.ofExec (exec sys)

/-- What a move can do. -/
inductive Effect (w : World X) : Move → World X → Prop
  | manager {l : Label} {x : X} : l.isInternal = true → sys.exec w.manager l = some x →
      Effect w (.manager l) { w with manager := x }
  | join {nodeId nodeSecret : String} {req : RegistrationRequest} {now : Time} {x : X} :
      sys.exec w.manager (.registerNode nodeId nodeSecret req now) = some x →
      Effect w (.join nodeId nodeSecret req now) ({ w with manager := x }.setAgent nodeId .new)
  | buildHeartbeat {nodeId : String} {metrics : Metrics} {sendTimestamp : Time} {agent : Agent} :
      w.agents nodeId = some agent → Effect w (.buildHeartbeat nodeId metrics sendTimestamp)
        { w with heartbeats := w.heartbeats ++ [⟨nodeId, metrics, agent.status, sendTimestamp⟩] }
  | deliverHeartbeat {i : ℕ} {now : Time} {req : HeartbeatRequest} {x : X} :
      w.heartbeats[i]? = some req → sys.exec w.manager (.sendHeartbeat req now) = some x →
      Effect w (.deliverHeartbeat i now)
        { w with manager := x, heartbeats := w.heartbeats.eraseIdx i }
  | listen {nodeId : String} {x : X} :
      sys.exec w.manager (.listenForCommands nodeId) = some x →
      Effect w (.listen nodeId) { w with manager := x }
  | takeCommand {nodeId : String} {agent : Agent} {command : Command} {m : Manager} {x : X} :
      w.agents nodeId = some agent → (sys.mgr w.manager).takeCommand nodeId = some (command, m) →
      sys.exec w.manager (.takeCommand nodeId) = some x →
      Effect w (.takeCommand nodeId)
        ({ w with manager := x }.setAgent nodeId { agent with stream := agent.stream ++ [command] })
  | receive {nodeId : String} {agent agent' : Agent} : w.agents nodeId = some agent →
      agent.receive = some agent' → Effect w (.receive nodeId) (w.setAgent nodeId agent')
  | disconnect {nodeId : String} {agent : Agent} : w.agents nodeId = some agent →
      Effect w (.disconnect nodeId) (w.setAgent nodeId agent.disconnect)
  | exit {nodeId : String} {k : ℕ} {code : ℤ} {agent agent' : Agent} :
      w.agents nodeId = some agent → agent.exit k code = some agent' →
      Effect w (.exit nodeId k code) (w.setAgent nodeId agent')
  | logStep {nodeId : String} {k : ℕ} {agent agent' : Agent} {report : Option Report} :
      w.agents nodeId = some agent → agent.logStep nodeId k = some (agent', report) →
      Effect w (.logStep nodeId k)
        { w.setAgent nodeId agent' with reports := w.reports ++ report.toList }
  | deliverReport {i : ℕ} {now : Time} {report : Report} {x : X} :
      w.reports[i]? = some report →
      sys.exec w.manager (.reportJobStatus report.request now) = some x →
      Effect w (.deliverReport i now) { w with
        manager := x, reports := w.reports.eraseIdx i, handled := w.handled ++ [report] }

theorem effect {w w' : World X} {mv : Move} (hst : (lts sys).step w mv w') :
    Effect sys w mv w' := by
  cases mv with
  | manager l =>
    obtain ⟨hl, hst⟩ := Option.ite_none_right_eq_some.1 hst
    obtain ⟨x, hx, rfl⟩ := Option.map_eq_some_iff.1 hst
    exact .manager hl hx
  | join =>
    obtain ⟨x, hx, rfl⟩ := Option.map_eq_some_iff.1 hst
    exact .join hx
  | buildHeartbeat =>
    obtain ⟨agent, ha, rfl⟩ := Option.map_eq_some_iff.1 hst
    exact .buildHeartbeat ha
  | deliverHeartbeat =>
    obtain ⟨req, hreq, hst⟩ := Option.bind_eq_some_iff.1 hst
    obtain ⟨x, hx, rfl⟩ := Option.map_eq_some_iff.1 hst
    exact .deliverHeartbeat hreq hx
  | listen =>
    obtain ⟨agent, -, hst⟩ := Option.bind_eq_some_iff.1 hst
    obtain ⟨x, hx, rfl⟩ := Option.map_eq_some_iff.1 hst
    exact .listen hx
  | takeCommand =>
    obtain ⟨agent, ha, hst⟩ := Option.bind_eq_some_iff.1 hst
    obtain ⟨⟨command, m⟩, hc, hst⟩ := Option.bind_eq_some_iff.1 hst
    obtain ⟨x, hx, rfl⟩ := Option.map_eq_some_iff.1 hst
    exact .takeCommand ha hc hx
  | receive =>
    obtain ⟨agent, ha, hst⟩ := Option.bind_eq_some_iff.1 hst
    obtain ⟨agent', ha', rfl⟩ := Option.map_eq_some_iff.1 hst
    exact .receive ha ha'
  | disconnect =>
    obtain ⟨agent, ha, rfl⟩ := Option.map_eq_some_iff.1 hst
    exact .disconnect ha
  | exit =>
    obtain ⟨agent, ha, hst⟩ := Option.bind_eq_some_iff.1 hst
    obtain ⟨agent', ha', rfl⟩ := Option.map_eq_some_iff.1 hst
    exact .exit ha ha'
  | logStep =>
    obtain ⟨agent, ha, hst⟩ := Option.bind_eq_some_iff.1 hst
    obtain ⟨⟨agent', report⟩, hl, rfl⟩ := Option.map_eq_some_iff.1 hst
    exact .logStep ha hl
  | deliverReport =>
    obtain ⟨report, hreport, hst⟩ := Option.bind_eq_some_iff.1 hst
    obtain ⟨x, hx, rfl⟩ := Option.map_eq_some_iff.1 hst
    exact .deliverReport hreport hx

/-- What the manager does in a move. -/
def label (w : World X) : Move → Option Label
  | .manager l => some l
  | .join nodeId nodeSecret req now => some (.registerNode nodeId nodeSecret req now)
  | .deliverHeartbeat i now => w.heartbeats[i]?.map fun req => .sendHeartbeat req now
  | .listen nodeId => some (.listenForCommands nodeId)
  | .takeCommand nodeId => some (.takeCommand nodeId)
  | .deliverReport i now => w.reports[i]?.map fun report => .reportJobStatus report.request now
  | .buildHeartbeat _ _ _ | .receive _ | .disconnect _ | .exit _ _ _ | .logStep _ _ => none

/-- **A move is a step of the manager or leaves it alone.** -/
theorem projection :
    LTS.Projection (lts sys) (LTS.ofExec sys.exec) World.manager World.label where
  quiet := by
    intro w mv w' hst hl
    cases effect sys hst with
    | buildHeartbeat | receive | disconnect | exit | logStep => rfl
    | deliverHeartbeat hreq | deliverReport hreq => simp [label, hreq] at hl
    | manager | join | listen | takeCommand => cases hl
  step := by
    intro w mv w' l hst hl
    cases effect sys hst with
    | manager _ hx | join hx | listen hx | takeCommand _ _ hx =>
      obtain rfl := Option.some.inj hl
      exact hx
    | deliverHeartbeat hreq hx | deliverReport hreq hx =>
      simp only [label, hreq, Option.map_some, Option.some.injEq] at hl
      exact hl ▸ hx
    | buildHeartbeat | receive | disconnect | exit | logStep => cases hl

end World

/-! ### A small cluster at work -/

namespace Sample

/-- The next `k` calls of the only task, if the manager is taken call by call. -/
def calls (callByCall : Bool) (k : ℕ) (now : Time) : List Move :=
  if callByCall then List.replicate k (.manager (.runTask 0 now)) else []

/-- Two nodes join, and a job with one retry is dispatched to both and launched there. -/
def launchTwo (callByCall : Bool) : List Move :=
  [.join "node-1" "secret-1" node 100] ++ calls callByCall 1 100 ++
  [.join "node-2" "secret-2" node 100] ++ calls callByCall 1 100 ++
  [.manager (.submitJob "job-1" (job 2 1) 101)] ++ calls callByCall 1 101 ++
  [.manager (.schedulerPass 102)] ++ calls callByCall 7 102 ++
  [.takeCommand "node-1", .receive "node-1", .takeCommand "node-2", .receive "node-2"]

/-- Process `k` of a node exits and is reported. -/
def finish (nodeId : String) (k : ℕ) (code : ℤ) : List Move :=
  [.logStep nodeId k, .exit nodeId k code, .logStep nodeId k, .logStep nodeId k]

end Sample

end Dmlf
