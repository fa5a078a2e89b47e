import Dmlf.Pool.Basic
import Dmlf.Manager.Outgoing
import Mathlib.Data.Fintype.EquivFin

/-!
# The gRPC server

`serve` (`dmlf/manager/cluster_manager.py`) runs the handlers on ten worker threads.  A handler that
streams keeps its worker for as long as the stream is open: `ListenForCommands` until the agent is
gone, and `StreamLogs` until the log generator of the launcher (`dmlf/agent/launcher.py`) is done.
The generator, in turn, ends with a `ReportJobStatus` of its own, and waits for the answer.

Any number of clients may call at any time; the agents are among them.

* `Server.Sound` : what is left of the handlers belongs to unary calls that have a worker.
* `Server.conf_reachable` : behind its server, the manager does what the interleaved manager may do.
-/

namespace Dmlf

/-- The generator that feeds a `StreamLogs` call. -/
inductive LogGenerator where
  /-- The process still writes. -/
  | reading
  /-- The report is under way, or waits for its answer. -/
  | reporting
  | ended
  deriving DecidableEq

/-- What a `StreamLogs` call is about, and where its generator is. -/
structure LogStream where
  nodeId : String
  jobId : String
  generator : LogGenerator

/-- The calls of the clients. -/
inductive Rpc where
  | registerNode (req : RegistrationRequest)
  | sendHeartbeat (req : HeartbeatRequest)
  | listenForCommands (nodeId : String)
  /-- The report that the generator of stream `k` waits for. -/
  | reportJobStatus (req : JobStatusRequest) (k : ℕ)
  | submitJob (req : JobSubmitRequest)
  /-- The logs of stream `k`. -/
  | streamLogs (k : ℕ)

namespace Rpc

/-- The call has one request and one answer. -/
def isUnary : Rpc → Bool
  | .listenForCommands _ | .streamLogs _ => false
  | _ => true

/-- The call is a command stream of this node. -/
def listensFor (nodeId : String) : Rpc → Bool
  | .listenForCommands n => n = nodeId
  | _ => false

/-- The first call of the handler to the registry or the command queues, with the id and the secret
it generates.  `StreamLogs` makes none. -/
def label (id secret : String) (now : Time) : Rpc → Option Label
  | .registerNode req => some (.registerNode id secret req now)
  | .sendHeartbeat req => some (.sendHeartbeat req now)
  | .listenForCommands nodeId => some (.listenForCommands nodeId)
  | .reportJobStatus req _ => some (.reportJobStatus req now)
  | .submitJob req => some (.submitJob id req now)
  | .streamLogs _ => none

/-- The call comes from the launcher. -/
def ofLauncher : Rpc → Bool
  | .reportJobStatus _ _ | .streamLogs _ => true
  | _ => false

end Rpc

/-- A task of a handler. -/
def Task.isRpcHandler (t : Task) : Bool := !t.isScheduler && !t.isMonitor

/-- The manager, its workers, and the log streams that have ever been opened. -/
structure Server where
  conf : Conf
  pool : Pool Rpc
  logs : List LogStream

/-- What happens to a server. -/
inductive ServerLabel where
  /-- A call comes. -/
  | arrive (rpc : Rpc)
  /-- A process starts, and its log thread calls `StreamLogs`. -/
  | launch (nodeId jobId : String)
  /-- The output of a process ends, and its generator reports. -/
  | outputEnds (k : ℕ) (status : String)
  /-- A worker takes the oldest call. -/
  | begin (id secret : String) (now : Time)
  /-- The handler of worker `i` returns. -/
  | finish (i : ℕ)
  /-- The client of the stream at worker `i` is gone. -/
  | breakOff (i : ℕ)
  /-- A call of a loop, of a handler that has begun, or of a command stream. -/
  | work (l : Label)
  | restart

/-- `max_workers`. -/
def maxWorkers : ℕ := 10

namespace Server

variable (cfg : Setup)

/-- A server that has just been started. -/
def serve (registry : Registry) : Server := ⟨.start registry, .new, []⟩

/-- The generator of stream `k` has ended. -/
def ended (x : Server) (k : ℕ) : Bool := x.logs[k]?.any fun log => log.generator = .ended

/-- The call keeps its worker until another call or its client does something. -/
def Holds (x : Server) : Rpc → Prop
  | .listenForCommands _ => True
  | .streamLogs k => x.ended k = false
  | _ => False

/-- Generator `k` comes to a point. -/
def setGenerator (x : Server) (k : ℕ) (g : LogGenerator) : List LogStream :=
  x.logs.modify k fun log => { log with generator := g }

/-- The log streams after a call has been answered: a report lets its generator end. -/
def answered (x : Server) : Rpc → List LogStream
  | .reportJobStatus _ k => x.setGenerator k .ended
  | _ => x.logs

/-- The calls of the loops, of the handlers that have begun, and of the open command streams. -/
def isWork (x : Server) : Label → Bool
  | .schedulerPass _ | .monitorPass _ | .probe _ | .runTask _ _ => true
  | .takeCommand nodeId => x.pool.busy.any (Rpc.listensFor nodeId)
  | _ => false

/-- One step. -/
def exec (x : Server) : ServerLabel → Option Server
  | .arrive rpc => if rpc.ofLauncher then none else some { x with pool := x.pool.arrive rpc }
  | .launch nodeId jobId =>
    some { x with
      pool := x.pool.arrive (.streamLogs x.logs.length)
      logs := x.logs ++ [⟨nodeId, jobId, .reading⟩] }
  | .outputEnds k status =>
    x.logs[k]?.bind fun log =>
      if log.generator = .reading then
        some { x with
          pool := x.pool.arrive (.reportJobStatus ⟨log.nodeId, log.jobId, status⟩ k)
          logs := x.setGenerator k .reporting }
      else none
  | .begin id secret now =>
    (x.pool.take maxWorkers).bind fun (rpc, pool) =>
      match rpc.label id secret now with
      | none => some { x with pool }
      | some l => (x.conf.exec cfg l).map fun conf => { x with conf, pool }
  | .finish i =>
    x.pool.busy[i]?.bind fun rpc =>
      if rpc.isUnary then
        -- there are fewer handlers with calls left than unary calls that have a worker
        if x.conf.tasks.countP Task.isRpcHandler < x.pool.busy.countP Rpc.isUnary then
          some { x with pool := x.pool.finish i, logs := x.answered rpc }
        else none
      else
        match rpc with
        | .streamLogs k => if x.ended k then some { x with pool := x.pool.finish i } else none
        | _ => none
  | .breakOff i =>
    x.pool.busy[i]?.bind fun rpc =>
      if rpc.isUnary then none else some { x with pool := x.pool.finish i }
  | .work l =>
    if x.isWork l then (x.conf.exec cfg l).map fun conf => { x with conf } else none
  | .restart => (x.conf.exec cfg .restart).map fun conf => ⟨conf, .new, []⟩

/-- The manager behind its server as a transition system. -/
def lts : LTS Server ServerLabel := LTS.ofExec (exec cfg)

/-- What is left of the handlers belongs to unary calls that have a worker. -/
structure Sound (x : Server) : Prop where
  bounded : x.pool.Bounded maxWorkers
  handlers : x.conf.tasks.countP Task.isRpcHandler ≤ x.pool.busy.countP Rpc.isUnary

variable {cfg} {x x' : Server} {a : ServerLabel} {i k : ℕ}

/-- What a step can do. -/
inductive Effect (cfg : Setup) (x : Server) : ServerLabel → Server → Prop
  | arrive {rpc : Rpc} : rpc.ofLauncher = false →
      Effect cfg x (.arrive rpc) { x with pool := x.pool.arrive rpc }
  | launch {nodeId jobId : String} : Effect cfg x (.launch nodeId jobId) { x with
      pool := x.pool.arrive (.streamLogs x.logs.length)
      logs := x.logs ++ [⟨nodeId, jobId, .reading⟩] }
  | outputEnds {k : ℕ} {status : String} {log : LogStream} : x.logs[k]? = some log →
      log.generator = .reading → Effect cfg x (.outputEnds k status) { x with
        pool := x.pool.arrive (.reportJobStatus ⟨log.nodeId, log.jobId, status⟩ k)
        logs := x.setGenerator k .reporting }
  | stream {id secret : String} {now : Time} {k : ℕ} {pool : Pool Rpc} :
      x.pool.take maxWorkers = some (.streamLogs k, pool) →
      Effect cfg x (.begin id secret now) { x with pool }
  | begin {id secret : String} {now : Time} {rpc : Rpc} {pool : Pool Rpc} {l : Label}
      {conf : Conf} : x.pool.take maxWorkers = some (rpc, pool) →
      rpc.label id secret now = some l → x.conf.exec cfg l = some conf →
      Effect cfg x (.begin id secret now) { x with conf, pool }
  | answer {i : ℕ} {rpc : Rpc} : x.pool.busy[i]? = some rpc → rpc.isUnary = true →
      x.conf.tasks.countP Task.isRpcHandler < x.pool.busy.countP Rpc.isUnary →
      Effect cfg x (.finish i) { x with pool := x.pool.finish i, logs := x.answered rpc }
  | close {i k : ℕ} : x.pool.busy[i]? = some (.streamLogs k) → x.ended k = true →
      Effect cfg x (.finish i) { x with pool := x.pool.finish i }
  | breakOff {i : ℕ} {rpc : Rpc} : x.pool.busy[i]? = some rpc → rpc.isUnary = false →
      Effect cfg x (.breakOff i) { x with pool := x.pool.finish i }
  | work {l : Label} {conf : Conf} : x.isWork l = true → x.conf.exec cfg l = some conf →
      Effect cfg x (.work l) { x with conf }
  | restart : Effect cfg x .restart ⟨⟨x.conf.mgr.restart, []⟩, .new, []⟩

theorem effect (hst : exec cfg x a = some x') : Effect cfg x a x' := by
  cases a with
  | arrive rpc =>
    obtain ⟨hrpc, heq⟩ := Option.ite_none_left_eq_some.1 hst
    obtain rfl := Option.some.inj heq
    exact .arrive (by simpa using hrpc)
  | launch nodeId jobId =>
    obtain rfl := Option.some.inj hst
    exact .launch
  | outputEnds k status =>
    obtain ⟨log, hlog, hst⟩ := Option.bind_eq_some_iff.1 hst
    obtain ⟨hread, heq⟩ := Option.ite_none_right_eq_some.1 hst
    obtain rfl := Option.some.inj heq
    exact .outputEnds hlog hread
  | begin id secret now =>
    obtain ⟨⟨rpc, pool⟩, htake, hst⟩ := Option.bind_eq_some_iff.1 hst
    dsimp only at hst
    cases hl : rpc.label id secret now with
    | none =>
      rw [hl] at hst
      obtain rfl := Option.some.inj hst
      cases rpc with
      | streamLogs k => exact .stream htake
      | registerNode | sendHeartbeat | listenForCommands | reportJobStatus | submitJob => cases hl
    | some l =>
      rw [hl] at hst
      obtain ⟨conf, hconf, rfl⟩ := Option.map_eq_some_iff.1 hst
      exact .begin htake hl hconf
  | finish i =>
    obtain ⟨rpc, hi, hst⟩ := Option.bind_eq_some_iff.1 hst
    split_ifs at hst with hunary hlt
    · obtain rfl := Option.some.inj hst
      exact .answer hi hunary hlt
    · cases rpc with
      | streamLogs k =>
        obtain ⟨hend, heq⟩ := Option.ite_none_right_eq_some.1 hst
        obtain rfl := Option.some.inj heq
        exact .close hi hend
      | registerNode | sendHeartbeat | listenForCommands | reportJobStatus | submitJob => cases hst
  | breakOff i =>
    obtain ⟨rpc, hi, hst⟩ := Option.bind_eq_some_iff.1 hst
    obtain ⟨hunary, heq⟩ := Option.ite_none_left_eq_some.1 hst
    obtain rfl := Option.some.inj heq
    exact .breakOff hi (by simpa using hunary)
  | work l =>
    obtain ⟨hl, hst⟩ := Option.ite_none_right_eq_some.1 hst
    obtain ⟨conf, hconf, rfl⟩ := Option.map_eq_some_iff.1 hst
    exact .work hl hconf
  | restart =>
    obtain rfl := Option.some.inj hst
    exact .restart

/-! ### Handlers and workers -/

theorem isRpcHandler_step {now : Time} {m : Manager} {t t' : Task}
    (h : t' ∈ (t.step cfg now m).2) : t'.isRpcHandler = t.isRpcHandler := by
  cases Task.next_of_step h <;> rfl

theorem handlers_exec {c c' : Conf} {l : Label} (hst : c.exec cfg l = some c') :
    c'.tasks.countP Task.isRpcHandler ≤ c.tasks.countP Task.isRpcHandler + 1 ∧
      (x.isWork l = true ∨ (∃ nodeId, l = .listenForCommands nodeId) →
        c'.tasks.countP Task.isRpcHandler ≤ c.tasks.countP Task.isRpcHandler) := by
  cases Conf.call hst with
  | first hbegun =>
    cases hbegun with
    | registerNode | reportRetry | reportFail | reportCompleted | submitJob =>
      refine ⟨by simp [Conf.spawn, Task.isRpcHandler, Task.isScheduler, Task.isMonitor], ?_⟩
      rintro (hl | ⟨nodeId, hl⟩) <;> cases hl
    | sendHeartbeat | listenForCommands | takeCommand | reportIgnored | noJob | popJob | noneOffline
      | someOffline | probe =>
      simp [Conf.spawn, Task.isRpcHandler, Task.isScheduler, Task.isMonitor]
  | restart => exact ⟨Nat.zero_le _, fun _ => Nat.zero_le _⟩
  | @next i now t hi =>
    have hle : (c.resume i (t.step cfg now c.mgr)).tasks.countP Task.isRpcHandler ≤
        c.tasks.countP Task.isRpcHandler := by
      rw [Conf.countP_eraseIdx Task.isRpcHandler c hi]
      simp only [Conf.resume, List.countP_append]
      cases hn : (t.step cfg now c.mgr).2 with
      | none => simp
      | some t' =>
        rw [Option.toList_some, List.countP_singleton, isRpcHandler_step (by rw [hn]; rfl)]
    exact ⟨hle.trans (Nat.le_succ _), fun _ => hle⟩

theorem sound_serve (registry : Registry) : (serve registry).Sound where
  bounded := Nat.zero_le _
  handlers := Nat.le_refl 0

/-- **One step of the server**: its handlers keep to their workers, and it does what the manager may
do, or nothing that shows in it. -/
theorem Sound.step (h : x.Sound) (hst : exec cfg x a = some x') :
    x'.Sound ∧ (x'.conf = x.conf ∨ ∃ l, x.conf.exec cfg l = some x'.conf) := by
  have hhandlers := h.handlers
  cases effect hst with
  | arrive | launch | outputEnds => exact ⟨⟨h.bounded, h.handlers⟩, .inl rfl⟩
  | stream htake =>
    obtain ⟨-, -, hbusy⟩ := Pool.take_eq_some htake
    refine ⟨⟨.take htake, ?_⟩, .inl rfl⟩
    simpa [hbusy, List.countP_append, Rpc.isUnary] using hhandlers
  | @begin id secret now rpc pool l conf htake hl hconf =>
    obtain ⟨-, -, hbusy⟩ := Pool.take_eq_some htake
    refine ⟨⟨.take htake, ?_⟩, .inr ⟨l, hconf⟩⟩
    obtain ⟨hone, hnone⟩ := handlers_exec (x := x) hconf
    simp only [hbusy, List.countP_append, List.countP_singleton]
    cases rpc with
    | listenForCommands nodeId =>
      have hle := hnone (.inr ⟨nodeId, (Option.some.inj hl).symm⟩)
      exact hle.trans (hhandlers.trans (Nat.le_add_right _ _))
    | streamLogs => cases hl
    | registerNode | sendHeartbeat | reportJobStatus | submitJob =>
      exact hone.trans (Nat.add_le_add_right hhandlers 1)
  | answer hi hunary hlt =>
    have hcount := Pool.countP_finish Rpc.isUnary hi
    rw [if_pos hunary] at hcount
    refine ⟨⟨h.bounded.finish _, ?_⟩, .inl rfl⟩
    dsimp only
    omega
  | close hi =>
    have hcount := Pool.countP_finish Rpc.isUnary hi
    exact ⟨⟨h.bounded.finish _, hhandlers.trans_eq hcount⟩, .inl rfl⟩
  | breakOff hi hunary =>
    have hcount := Pool.countP_finish Rpc.isUnary hi
    rw [if_neg (by simp [hunary])] at hcount
    exact ⟨⟨h.bounded.finish _, hhandlers.trans_eq hcount⟩, .inl rfl⟩
  | work hl hconf =>
    exact ⟨⟨h.bounded, ((handlers_exec hconf).2 (.inl hl)).trans hhandlers⟩, .inr ⟨_, hconf⟩⟩
  | restart => exact ⟨⟨Nat.zero_le _, Nat.le_refl 0⟩, .inr ⟨.restart, rfl⟩⟩

/-- **Behind its server, the manager does what the interleaved manager may do.** -/
theorem conf_reachable {registry : Registry} (h : (lts cfg).Reachable (serve registry) x) :
    x.Sound ∧ (Conf.fine cfg).Reachable (.start registry) x.conf :=
  h.keeps (I := fun x => x.Sound ∧ (Conf.fine cfg).Reachable (.start registry) x.conf)
    (fun x a x' hst ⟨hx, hreach⟩ => by
      obtain ⟨hx', hsame | ⟨l, hl⟩⟩ := hx.step hst
      · exact ⟨hx', hsame ▸ hreach⟩
      · exact ⟨hx', hreach.next l hl⟩)
    ⟨sound_serve registry, .start⟩

end Server

end Dmlf
