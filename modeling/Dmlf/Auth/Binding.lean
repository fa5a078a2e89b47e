import Dmlf.Auth.Interceptors
import Dmlf.Manager.Effects

/-!
# Whom a node may speak for

The interceptors check the node id in the metadata of a call; the handlers act on the node id and
the job id in its request, which nothing compares with the metadata.

* `Manager.confined_iff` : an authenticated call is confined to its node exactly if its request
  names the node and a job of the node, or changes nothing of the others by accident.
* `Manager.confined_fails` : a heartbeat in the name of another node.
-/

namespace Dmlf

/-- `LogMessage`. -/
structure LogMessage where
  timestamp : String
  nodeId : String
  jobId : String
  level : String
  message : String

/-- A call of a method that needs node credentials, with its request. -/
inductive NodeCall where
  | sendHeartbeat (req : HeartbeatRequest)
  | listenForCommands (nodeId : String)
  | reportJobStatus (req : JobStatusRequest)
  | streamLogs (messages : List LogMessage)

namespace NodeCall

/-- The full name of the method. -/
def method : NodeCall → String
  | .sendHeartbeat _ => "/cml.ClusterManager/SendHeartbeat"
  | .listenForCommands _ => "/cml.ClusterManager/ListenForCommands"
  | .reportJobStatus _ => "/cml.ClusterManager/ReportJobStatus"
  | .streamLogs _ => "/cml.ClusterManager/StreamLogs"

theorem method_mem (call : NodeCall) : call.method ∈ nodeAuthRpcs := by
  cases call <;> simp [method, nodeAuthRpcs]

/-- The parts of the handler of a call, at any time after the interceptors, as steps of the
manager: a stream is opened, and takes commands as long as it is active.  Log messages go to the
log file, which is no step. -/
def Performs : NodeCall → Option Label → Prop
  | .sendHeartbeat req, some (.sendHeartbeat req' _) => req' = req
  | .listenForCommands nodeId, some (.listenForCommands nodeId') => nodeId' = nodeId
  | .listenForCommands nodeId, some (.takeCommand nodeId') => nodeId' = nodeId
  | .reportJobStatus req, some (.reportJobStatus req' _) => req' = req
  | .streamLogs _, none => True
  | _, _ => False

end NodeCall

namespace Manager

variable {cfg : Setup} {m m' : Manager} {now : Time} {l : Label} {a : String}

/-- The manager after a part of a handler. -/
def performPart (cfg : Setup) (m : Manager) : Option Label → Option Manager
  | none => some m
  | some l => m.perform cfg l

/-- A change that node `a` may make: no other node's row changes, no metrics of another node are
added, no command is taken from another node's queue, and no job changes that is not assigned
to `a`. -/
structure ConfinedTo (a : String) (m m' : Manager) : Prop where
  nodes : ∀ n ≠ a, m'.registry.getNode n = m.registry.getNode n
  metrics : ∃ rows, m'.registry.metrics = m.registry.metrics ++ rows ∧ ∀ r ∈ rows, r.nodeId = a
  commands : ∀ n ≠ a, ∀ q, m.commandQueues n = some q → m'.commandQueues n = some q
  jobs : ∀ j row, m.registry.getJob j = some row → a ∉ row.assignedNodes →
    m'.registry.getJob j = some row

theorem ConfinedTo.refl (a : String) (m : Manager) : ConfinedTo a m m where
  nodes := fun _ _ => rfl
  metrics := ⟨[], (List.append_nil _).symm, fun _ h => by cases h⟩
  commands := fun _ _ _ h => h
  jobs := fun _ _ h _ => h

end Manager

/-- The row that a failure or a completion leaves of its job. -/
def JobStatusRequest.rowAfter (req : JobStatusRequest) (now : Time) (row : JobRow) : JobRow :=
  if req.isFailure then
    if row.retries < row.maxRetries then
      { row with status := .pending, retries := row.retries + 1 }
    else row.withStatus .failed none (some 1) now
  else row.withStatus .completed none (some 0) now

/-- A failure or a completion of a job that is over already, in the same way at the same time. -/
def JobStatusRequest.Repeats (req : JobStatusRequest) (now : Time) (row : JobRow) : Prop :=
  if req.isFailure then
    ¬ row.retries < row.maxRetries ∧ row.status = .failed ∧ row.completedAt = some now ∧
      row.exitCode = some 1
  else row.status = .completed ∧ row.completedAt = some now ∧ row.exitCode = some 0

theorem JobRow.withStatus_eq_self {status : JobState} {exitCode : ℤ} {now : Time} {row : JobRow}
    (hs : status = .completed ∨ status = .failed) :
    row.withStatus status none (some exitCode) now = row ↔
      row.status = status ∧ row.completedAt = some now ∧ row.exitCode = some exitCode := by
  have hrun : status ≠ .running := by rintro rfl; simp at hs
  constructor
  · intro h
    have hstatus := congrArg JobRow.status h
    have hat := congrArg JobRow.completedAt h
    have hcode := congrArg JobRow.exitCode h
    simp only [withStatus, if_pos hs] at hstatus hat hcode
    exact ⟨hstatus.symm, hat.symm, hcode.symm⟩
  · rintro ⟨hstatus, hat, hcode⟩
    simp only [withStatus, if_pos hs, if_neg hrun, Option.getD_none, Option.some_or]
    rw [← hstatus, ← hat, ← hcode]

theorem JobStatusRequest.rowAfter_eq_self {req : JobStatusRequest} {now : Time} {row : JobRow} :
    req.rowAfter now row = row ↔ req.Repeats now row := by
  unfold rowAfter Repeats
  split_ifs with hf hlt
  · refine iff_of_false (fun h => ?_) fun h => h.1 hlt
    have hretries := congrArg JobRow.retries h
    simp only at hretries
    omega
  · rw [JobRow.withStatus_eq_self (.inr rfl)]
    exact (and_iff_right hlt).symm
  · exact JobRow.withStatus_eq_self (.inl rfl)

namespace Manager

variable {cfg : Setup} {m m' : Manager} {now : Time} {l : Label} {a : String}

/-- The request names the node of the credentials, and a job of it. -/
def BoundTo (a : String) (m : Manager) : Label → Prop
  | .sendHeartbeat req _ => req.nodeId = a
  | .takeCommand nodeId => nodeId = a
  | .reportJobStatus req now => m.Acts req →
      (req.nodeId = a ∨ ∀ r ∈ m.registry.getNode req.nodeId, r.status = .idle) ∧
      ∀ row ∈ m.registry.getJob req.jobId, a ∈ row.assignedNodes ∨ req.Repeats now row
  | _ => True

theorem confined_sendHeartbeat (m : Manager) (req : HeartbeatRequest) (now : Time) :
    ConfinedTo a m (m.sendHeartbeat req now) ↔ req.nodeId = a := by
  constructor
  · intro h
    obtain ⟨rows, hrows, hall⟩ := h.metrics
    have hadded := List.append_cancel_left hrows
    exact hall _ (hadded ▸ List.mem_singleton.2 rfl)
  · intro hid
    refine ⟨fun n hn => ?_, ⟨_, rfl, fun r hr => ?_⟩, fun _ _ _ h => h, fun _ _ h _ => h⟩
    · refine (Registry.getNode_updateHeartbeat ..).trans ?_
      refine (Option.map_congr fun r hr => ?_).trans Option.map_id'
      rw [if_neg fun h => hn ?_]
      exact (Registry.nodeId_of_getNode hr).symm.trans (h.trans hid)
    · rw [List.mem_singleton.1 hr]
      exact hid

theorem confined_takeCommand {n : String} (hst : m.perform cfg (.takeCommand n) = some m') :
    ConfinedTo a m m' ↔ n = a := by
  obtain ⟨⟨command, m₁⟩, hc, rfl⟩ := Option.map_eq_some_iff.1 hst
  obtain ⟨rest, hq, rfl⟩ := takeCommand_eq_some hc
  constructor
  · intro h
    by_contra hne
    have hsame := h.commands n hne _ hq
    simp at hsame
  · intro hn
    refine ⟨fun _ _ => rfl, ⟨[], (List.append_nil _).symm, fun _ h => by cases h⟩,
      fun n' hn' q h => ?_, fun _ _ h _ => h⟩
    dsimp only
    rwa [if_neg fun h => hn' (h.trans hn)]

theorem confined_listenForCommands (m : Manager) (n : String) :
    ConfinedTo a m (m.listenForCommands n) := by
  unfold listenForCommands
  split_ifs with hsome
  · exact .refl a m
  · refine ⟨fun _ _ => rfl, ⟨[], (List.append_nil _).symm, fun _ h => by cases h⟩,
      fun n' _ q h => ?_, fun _ _ h _ => h⟩
    simp only [newCommandQueue]
    rw [if_neg ?_, h]
    rintro rfl
    simp [h] at hsome

theorem reportJobStatus_of_acts {req : JobStatusRequest} (h : m.Acts req) (now : Time) :
    (∀ n, (m.reportJobStatus req now).registry.getNode n =
      (m.registry.updateNodeState req.nodeId .idle).getNode n) ∧
    (m.reportJobStatus req now).registry.metrics = m.registry.metrics ∧
    (m.reportJobStatus req now).commandQueues = m.commandQueues ∧
    ∀ j, (m.reportJobStatus req now).registry.getJob j = (m.registry.getJob j).map fun row =>
      if row.jobId = req.jobId then req.rowAfter now row else row := by
  have hmap : ∀ (f : JobRow → JobRow) (hf) (j : String),
      (∀ row, m.registry.getJob req.jobId = some row → f row = req.rowAfter now row) →
      (m.registry.updateJob req.jobId f hf).getJob j = (m.registry.getJob j).map fun row =>
        if row.jobId = req.jobId then req.rowAfter now row else row := by
    intro f hf j heq
    rw [Registry.getJob_updateJob]
    split_ifs with hj
    · rw [hj]
      exact Option.map_congr fun row hrow => by
        rw [if_pos (Registry.jobId_of_getJob hrow), heq row hrow]
    · refine ((Option.map_congr fun row hrow => ?_).trans Option.map_id').symm
      rw [Registry.jobId_of_getJob hrow, if_neg hj]
  have heff := reportEffect m req now
  generalize m.reportJobStatus req now = m' at heff
  cases heff with
  | ignored hf hc => simp [Acts, hf, hc] at h
  | unknown hf hnone =>
    simp [Acts, hnone, JobStatusRequest.isCompletion_of_isFailure hf] at h
  | retried job hf hjob hlt =>
    -- the row is written under the id in the job dict, which is the id of the request
    have hid := Registry.jobId_of_getJob hjob
    refine ⟨fun _ => rfl, rfl, rfl, fun j => ?_⟩
    have hrow := hmap (fun r => { r with status := .pending, retries := job.retries + 1 })
      (fun _ => rfl) j fun row hrow => by
        obtain rfl := Option.some.inj (hjob.symm.trans hrow)
        simp [JobStatusRequest.rowAfter, hf, hlt]
    rw [← hid] at hrow ⊢
    exact hrow
  | failed job hf hjob hlt =>
    refine ⟨fun _ => rfl, rfl, rfl,
      fun j => hmap _ (JobRow.jobId_withStatus _ _ _ _) j fun row hrow => ?_⟩
    obtain rfl := Option.some.inj (hjob.symm.trans hrow)
    simp [JobStatusRequest.rowAfter, hf, hlt]
  | completed hf hc =>
    refine ⟨fun _ => rfl, rfl, rfl,
      fun j => hmap _ (JobRow.jobId_withStatus _ _ _ _) j fun row hrow => ?_⟩
    simp [JobStatusRequest.rowAfter, hf]

theorem confined_reportJobStatus (m : Manager) (req : JobStatusRequest) (now : Time) :
    ConfinedTo a m (m.reportJobStatus req now) ↔ m.BoundTo a (.reportJobStatus req now) := by
  by_cases hacts : m.Acts req
  · obtain ⟨hnode, hmetrics, hqueues, hjob⟩ := reportJobStatus_of_acts hacts now
    constructor
    · refine fun h _ => ⟨?_, fun row hrow => ?_⟩
      · by_cases hid : req.nodeId = a
        · exact .inl hid
        · refine .inr fun r hr => ?_
          have hsame := h.nodes _ hid
          rw [hnode, Registry.getNode_updateNodeState, Option.mem_def.1 hr, Option.map_some,
            if_pos rfl] at hsame
          exact (congrArg NodeRow.status (Option.some.inj hsame)).symm
      · by_cases hmem : a ∈ row.assignedNodes
        · exact .inl hmem
        · -- a job of other nodes stays the same only if it says already what would be written
          refine .inr (JobStatusRequest.rowAfter_eq_self.1 ?_)
          have hsame := h.jobs _ row hrow hmem
          rw [hjob, Option.mem_def.1 hrow, Option.map_some,
            if_pos (Registry.jobId_of_getJob hrow)] at hsame
          exact Option.some.inj hsame
    · intro h
      obtain ⟨hn, hj⟩ := h hacts
      refine ⟨fun n hne => ?_, ⟨[], by rw [hmetrics, List.append_nil], fun _ h => by cases h⟩,
        fun n _ q hq => hqueues ▸ hq, fun j row hrow hmem => ?_⟩
      · rw [hnode, Registry.getNode_updateNodeState]
        refine (Option.map_congr fun r hr => ?_).trans Option.map_id'
        by_cases hid : n = req.nodeId
        · have hidle := (hn.resolve_left fun h => hne (hid.trans h)) r (hid ▸ hr)
          rw [if_pos hid, ← hidle]
        · exact if_neg hid
      · rw [hjob, hrow, Option.map_some]
        split_ifs with hid
        · have hget := (hid.symm.trans (Registry.jobId_of_getJob hrow)) ▸ hrow
          rw [JobStatusRequest.rowAfter_eq_self.2 ((hj row hget).resolve_left hmem)]
        · rfl
  · have hsame : m.reportJobStatus req now = m := by
      rcases release_reportJobStatus m req now with ⟨-, heq⟩ | ⟨h, -⟩
      · exact heq
      · exact absurd h hacts
    rw [hsame]
    exact iff_of_true (.refl a m) fun h => absurd h hacts

/-- **What an authenticated call changes is confined to its node exactly if its request is bound
to the node.**  The interceptors have seen the id and the secret of node `a`, and then the handler
performs a part `l` of the call: the part changes only what belongs to `a` if and only if a
heartbeat or a command stream names `a` itself, and a failure or a completion names `a` and a job
assigned to `a`, unless it sets idle a node that is idle or repeats what the row says already. -/
theorem confined_iff {token : String} {reg : Registry} {metadata : Metadata} {call : NodeCall}
    {part : Option Label}
    (hpass : interceptService token reg ⟨call.method, metadata⟩ = .ok ())
    (ha : metadata.get "node-id" = some a) (hpart : call.Performs part)
    (hst : m.performPart cfg part = some m') :
    (∃ r, reg.getNode a = some r ∧ r.nodeSecret = metadata.get "node-secret") ∧
      (ConfinedTo a m m' ↔ ∀ l ∈ part, m.BoundTo a l) := by
  refine ⟨credentials_of_ok call.method_mem hpass ha, ?_⟩
  cases part with
  | none =>
    obtain rfl := Option.some.inj hst
    exact iff_of_true (.refl a m) fun l h => by cases h
  | some l =>
    have hst' : m.perform cfg l = some m' := hst
    simp only [Option.mem_def, Option.some.injEq, forall_eq']
    cases l with
    | sendHeartbeat req now =>
      obtain rfl := Option.some.inj hst'
      exact confined_sendHeartbeat m req now
    | listenForCommands nodeId =>
      obtain rfl := Option.some.inj hst'
      exact iff_of_true (confined_listenForCommands m nodeId) trivial
    | takeCommand nodeId => exact confined_takeCommand hst'
    | reportJobStatus req now =>
      obtain rfl := Option.some.inj hst'
      exact confined_reportJobStatus m req now
    | registerNode | submitJob | schedulerPass | monitorPass | probe | restart | runTask =>
      cases call <;> cases hpart

end Manager

namespace Sample

/-- A manager with two nodes. -/
def twoNodes : Manager :=
  ((Manager.serve .empty []).registerNode "node-1" "secret-1" node 100).registerNode "node-2"
    "secret-2" node 100

/-- The metadata that the interceptors of node-1 add to a call. -/
def metadata : Metadata := addNodeSecret (some "node-1") (some "secret-1") (addAuth "token" [])

/-- A heartbeat in the name of a node. -/
def heartbeat (nodeId : String) : HeartbeatRequest := ⟨nodeId, ⟨5, 20, 0, 0⟩, "IDLE", 105⟩

end Sample

namespace Manager

/-- The heartbeat of node-1 itself. -/
theorem confined_iff_own :
    (∃ r, Sample.twoNodes.registry.getNode "node-1" = some r ∧
      r.nodeSecret = Sample.metadata.get "node-secret") ∧
    (ConfinedTo "node-1" Sample.twoNodes
        (Sample.twoNodes.sendHeartbeat (Sample.heartbeat "node-1") 106) ↔
      ∀ l ∈ some (Label.sendHeartbeat (Sample.heartbeat "node-1") 106),
        Sample.twoNodes.BoundTo "node-1" l) := by
  have hpass : interceptService "token" Sample.twoNodes.registry
      ⟨(NodeCall.sendHeartbeat (Sample.heartbeat "node-1")).method, Sample.metadata⟩ = .ok () := by
    decide +kernel
  have ha : Sample.metadata.get "node-id" = some "node-1" := by decide +kernel
  have hst : Sample.twoNodes.performPart Sample.setup
      (some (.sendHeartbeat (Sample.heartbeat "node-1") 106)) =
      some (Sample.twoNodes.sendHeartbeat (Sample.heartbeat "node-1") 106) := rfl
  exact confined_iff hpass ha rfl hst

/-- Node-1 sends a heartbeat with its own credentials in the name of node-2: the call passes the
interceptors, and refreshes the row of node-2. -/
theorem confined_fails :
    ¬ ∀ (cfg : Setup) (token : String) (reg : Registry) (metadata : Metadata) (call : NodeCall)
      (a : String) (m m' : Manager) (part : Option Label),
      interceptService token reg ⟨call.method, metadata⟩ = .ok () →
      metadata.get "node-id" = some a → call.Performs part → m.performPart cfg part = some m' →
      ConfinedTo a m m' := by
  intro hall
  have h := hall Sample.setup "token" Sample.twoNodes.registry Sample.metadata
    (.sendHeartbeat (Sample.heartbeat "node-2")) "node-1" Sample.twoNodes
    (Sample.twoNodes.sendHeartbeat (Sample.heartbeat "node-2") 106)
    (some (.sendHeartbeat (Sample.heartbeat "node-2") 106))
    (by decide +kernel) (by decide +kernel) rfl rfl
  have hlate : (((Sample.twoNodes.sendHeartbeat (Sample.heartbeat "node-2") 106).registry.getNode
      "node-2").map NodeRow.lastHeartbeat) = some 106 := by decide +kernel
  rw [h.nodes "node-2" (by decide)] at hlate
  revert hlate
  decide +kernel

end Manager

end Dmlf
