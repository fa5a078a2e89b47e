import Dmlf.Manager.Server
import Dmlf.Manager.Unheard

/-!
# Jammed servers

A node holds two of the ten workers while it trains: one for its command stream and one for its
logs.  The log stream ends when the report of its process has been answered, and for that the report
needs a worker of its own.

* `Server.jammed_iff` : a server is jammed exactly if no call that waits will ever be served.
* `Server.jammed_of_nodes` : five nodes that train jam the server.
* `Server.unheard_run` : while it is jammed, the manager hears nothing: no heartbeat, no report, no
  registration and no submission.
-/

namespace Dmlf

namespace Task

/-- The calls that are left in a handler. -/
def callsLeft : Task → ℕ
  | .retrySetIdle .. => 3
  | .retryWrite _ | .failWrite _ => 2
  | .registerQueue _ | .submitAppend _ | .retryAppend _ | .closedSetIdle _ => 1
  | _ => 0

theorem callsLeft_pos {t : Task} (h : t.isRpcHandler = true) : 0 < t.callsLeft := by
  cases t with
  | retrySetIdle | retryWrite | failWrite | registerQueue | submitAppend | retryAppend
    | closedSetIdle => exact Nat.succ_pos _
  | schedSelect | schedRequeue | schedReserve | schedSend | monJobs | monLoop | monAppend
    | monCount => cases h

theorem callsLeft_step {cfg : Setup} {now : Time} {m : Manager} {t t' : Task}
    (hst : (t.step cfg now m).2 = some t') (h : t.isRpcHandler = true) :
    t'.callsLeft < t.callsLeft := by
  cases next_of_step hst with
  | retryWrite | retryAppend | failed => exact Nat.lt_succ_self _
  | tooFew | selected | reserved | started | sent | monLoop | lost | passed | marked | appended =>
    cases h

end Task

namespace Server

variable {cfg : Setup} {x x' : Server} {a : ServerLabel} {k : ℕ}

theorem unheard_work {c c' : Conf} {l : Label} (hl : x.isWork l = true)
    (hno : c.tasks.countP Task.isRpcHandler = 0) (hst : c.exec cfg l = some c') :
    c.mgr.registry.Unheard c'.mgr.registry := by
  cases Conf.call hst with
  | first hbegun =>
    cases hbegun with
    | registerNode | sendHeartbeat | listenForCommands | reportIgnored | reportRetry | reportFail
      | reportCompleted | submitJob => cases hl
    | takeCommand | noJob | popJob | noneOffline | someOffline => exact .refl _
    | probe => exact Registry.unheard_markOfflineNodes ..
  | restart => cases hl
  | next hi =>
    have hhandler := List.countP_eq_zero.1 hno _ (List.mem_of_getElem? hi)
    exact Task.unheard_step cfg _ c.mgr (by simpa using hhandler)

/-! ### Jams -/

/-- All workers are held. -/
def Jammed (x : Server) : Prop := x.pool.Jammed maxWorkers x.Holds

/-- The process is not killed, and no client of a stream goes away. -/
def Connected (_ : Server) : ServerLabel → Prop
  | .breakOff _ | .restart => False
  | _ => True

instance (x : Server) (a : ServerLabel) : Decidable (x.Connected a) :=
  match a with
  | .breakOff _ | .restart => isFalse id
  | .arrive _ | .launch .. | .outputEnds .. | .begin .. | .finish _ | .work _ => isTrue trivial

theorem Holds.congr {rpc : Rpc} (h : x.Holds rpc) (hended : ∀ k, x'.ended k = x.ended k) :
    x'.Holds rpc := by
  cases rpc with
  | listenForCommands => trivial
  | streamLogs k => exact (hended k).trans h
  | registerNode | sendHeartbeat | reportJobStatus | submitJob => cases h

theorem not_unary_of_holds {rpc : Rpc} (h : x.Holds rpc) : rpc.isUnary = false := by
  cases rpc with
  | listenForCommands | streamLogs => rfl
  | registerNode | sendHeartbeat | reportJobStatus | submitJob => cases h

theorem ended_append {log : LogStream} (hlog : log.generator = .reading) (k : ℕ) :
    ended { x with logs := x.logs ++ [log] } k = x.ended k := by
  simp only [ended, List.getElem?_append]
  split_ifs with hlt
  · rfl
  · rw [List.getElem?_eq_none (Nat.le_of_not_lt hlt)]
    cases h : [log][k - x.logs.length]? with
    | none => rfl
    | some log' =>
      obtain rfl := List.mem_singleton.1 (List.mem_of_getElem? h)
      simp [hlog]

theorem ended_reporting {log : LogStream} (hk : x.logs[k]? = some log)
    (hlog : log.generator = .reading) (i : ℕ) :
    ended { x with logs := x.setGenerator k .reporting } i = x.ended i := by
  simp only [ended, setGenerator, List.getElem?_modify]
  by_cases hik : k = i
  · subst hik
    simp [hk, hlog]
  · simp [hik]

theorem Jammed.full (h : x.Jammed) : ¬ x.pool.busy.length < maxWorkers := by
  rw [Pool.Jammed.full h]
  exact Nat.lt_irrefl _

/-- **One step of a jammed server.**  It does not help that more calls come, or that processes
end. -/
theorem Jammed.step (h : x.Jammed) (ha : x.Connected a) (hst : exec cfg x a = some x') :
    x'.Jammed ∧ x.pool.waiting <+: x'.pool.waiting ∧
      (x'.conf = x.conf ∨ ∃ l, x.isWork l = true ∧ x.conf.exec cfg l = some x'.conf) := by
  cases effect hst with
  | arrive =>
    exact ⟨⟨h.1, fun c hc => (h.2 c hc).congr fun _ => rfl⟩, List.prefix_append _ _, .inl rfl⟩
  | launch =>
    exact ⟨⟨h.1, fun c hc => (h.2 c hc).congr (ended_append rfl)⟩, List.prefix_append _ _, .inl rfl⟩
  | outputEnds hlog hread =>
    exact ⟨⟨h.1, fun c hc => (h.2 c hc).congr (ended_reporting hlog hread)⟩,
      List.prefix_append _ _, .inl rfl⟩
  | stream htake | begin htake => exact absurd (Pool.take_eq_some htake).1 h.full
  | answer hi hunary =>
    rw [not_unary_of_holds (h.2 _ (List.mem_of_getElem? hi))] at hunary
    cases hunary
  | close hi hend => cases hend.symm.trans (h.2 _ (List.mem_of_getElem? hi))
  | breakOff | restart => exact ha.elim
  | work hl hconf => exact ⟨h, List.prefix_refl _, .inr ⟨_, hl, hconf⟩⟩

/-- A jammed server stays jammed, and its calls wait. -/
theorem Jammed.run (h : x.Jammed) (hrun : ((lts cfg).restrict Connected).Reachable x x') :
    x'.Jammed ∧ x.pool.waiting <+: x'.pool.waiting :=
  hrun.keeps (I := fun x' => x'.Jammed ∧ x.pool.waiting <+: x'.pool.waiting)
    (fun _ _ _ hst ⟨hy, hprefix⟩ => by
      obtain ⟨hy', hprefix', -⟩ := hy.step hst.1 hst.2
      exact ⟨hy', hprefix.trans hprefix'⟩)
    ⟨h, List.prefix_refl _⟩

theorem Jammed.no_handlers (h : x.Jammed) (hx : x.Sound) :
    x.conf.tasks.countP Task.isRpcHandler = 0 := by
  have hunary : x.pool.busy.countP Rpc.isUnary = 0 :=
    List.countP_eq_zero.2 fun rpc hrpc => by simp [not_unary_of_holds (h.2 rpc hrpc)]
  have hle := hx.handlers
  omega

/-! ### Servers that are not jammed -/

theorem reaches (a : ServerLabel) (ha : x.Connected a) (hst : exec cfg x a = some x') :
    ((lts cfg).restrict Connected).Reachable x x' :=
  .next a .start ⟨ha, hst⟩

theorem exists_fresh (reg : Registry) : ∃ id, reg.getNode id = none ∧ reg.getJob id = none := by
  obtain ⟨id, hid⟩ := Infinite.exists_notMem_finset
    (reg.nodes.rows.map NodeRow.nodeId ++ reg.jobs.rows.map JobRow.jobId).toFinset
  rw [List.mem_toFinset, List.mem_append, not_or] at hid
  exact ⟨id, Table.find?_eq_none_iff.2 hid.1, Table.find?_eq_none_iff.2 hid.2⟩

/-- The first call of a handler can always be made, with an id that is new. -/
theorem exists_exec (cfg : Setup) (c : Conf) {rpc : Rpc} {id : String}
    (hnode : c.mgr.registry.getNode id = none) (hjob : c.mgr.registry.getJob id = none)
    {l : Label} (hl : rpc.label id "" 0 = some l) : ∃ c', c.exec cfg l = some c' := by
  cases rpc with
  | streamLogs => cases hl
  | sendHeartbeat | listenForCommands | reportJobStatus =>
    obtain rfl := Option.some.inj hl
    exact ⟨_, rfl⟩
  | registerNode req =>
    obtain rfl := Option.some.inj hl
    exact ⟨_, if_pos (by simp [hnode])⟩
  | submitJob req =>
    obtain rfl := Option.some.inj hl
    have hnew : ((req.toDict id).toRow 0).jobId ∉ c.mgr.registry.jobs.rows.map JobRow.jobId :=
      Table.find?_eq_none_iff.1 hjob
    refine Option.isSome_iff_exists.1 ?_
    simpa [Conf.exec, Manager.insertJob, Registry.insertJob, Table.insert?] using hnew

/-- A free worker takes the oldest call. -/
theorem served_of_free {rpc : Rpc} {rest : List Rpc} (hfree : x.pool.busy.length < maxWorkers)
    (hw : x.pool.waiting = rpc :: rest) :
    ∃ x', ((lts cfg).restrict Connected).Reachable x x' ∧ x'.pool.waiting = rest := by
  obtain ⟨id, hnode, hjob⟩ := exists_fresh x.conf.mgr.registry
  have htake := Pool.take_of_lt hfree hw
  cases hl : rpc.label id "" 0 with
  | none =>
    refine ⟨{ x with pool := ⟨rest, x.pool.busy ++ [rpc]⟩ },
      reaches (.begin id "" 0) trivial ?_, rfl⟩
    simp [exec, htake, hl]
  | some l =>
    obtain ⟨conf, hconf⟩ := exists_exec cfg x.conf hnode hjob hl
    refine ⟨⟨conf, ⟨rest, x.pool.busy ++ [rpc]⟩, x.logs⟩, reaches (.begin id "" 0) trivial ?_, rfl⟩
    simp [exec, htake, hl, hconf]

theorem callsLeft_resume (cfg : Setup) {c : Conf} {i : ℕ} {t : Task} (hi : c.tasks[i]? = some t)
    (hhandler : t.isRpcHandler = true) :
    ((c.resume i (t.step cfg 0 c.mgr)).tasks.map Task.callsLeft).sum <
      (c.tasks.map Task.callsLeft).sum := by
  obtain ⟨rest, hsum, hsum'⟩ := Conf.sum_resume Task.callsLeft c hi (t.step cfg 0 c.mgr)
  have hless : ((t.step cfg 0 c.mgr).2.toList.map Task.callsLeft).sum < t.callsLeft := by
    cases hnext : (t.step cfg 0 c.mgr).2 with
    | none => exact Task.callsLeft_pos hhandler
    | some t' => simpa using Task.callsLeft_step hnext hhandler
  omega

/-- **The handlers run to their ends.** -/
theorem exists_returned (cfg : Setup) (x : Server) : ∃ x',
    ((lts cfg).restrict Connected).Reachable x x' ∧ (x'.pool = x.pool ∧ x'.logs = x.logs) ∧
      x'.conf.tasks.countP Task.isRpcHandler = 0 := by
  refine LTS.exists_reachable_of_decreasing
    (I := fun y : Server => y.pool = x.pool ∧ y.logs = x.logs)
    (fun y => (y.conf.tasks.map Task.callsLeft).sum) (fun y hy hbusy => ?_) ⟨rfl, rfl⟩
  obtain ⟨t, ht, hhandler⟩ := List.countP_pos_iff.1 (Nat.pos_of_ne_zero hbusy)
  obtain ⟨i, hi⟩ := List.mem_iff_getElem?.1 ht
  have hst : exec cfg y (.work (.runTask i 0)) =
      some { y with conf := y.conf.resume i (t.step cfg 0 y.conf.mgr) } := by
    simp [exec, isWork, Conf.exec, hi]
  exact ⟨_, reaches (.work (.runTask i 0)) trivial hst, hy, callsLeft_resume cfg hi hhandler⟩

/-- **A call that waits can be served**, if the server is not jammed. -/
theorem served_of_not_jammed (hx : x.Sound) (hno : ¬ x.Jammed) {rpc : Rpc} {rest : List Rpc}
    (hw : x.pool.waiting = rpc :: rest) :
    ∃ x', ((lts cfg).restrict Connected).Reachable x x' ∧ x'.pool.waiting = rest := by
  have hcases : x.Jammed ∨ x.pool.busy.length < maxWorkers ∨
      ∃ (i : ℕ) (busy : Rpc), x.pool.busy[i]? = some busy ∧ ¬ x.Holds busy :=
    Pool.jammed_or_free hx.bounded
  obtain hjam | hfree | ⟨i, busy, hi, hfree⟩ := hcases
  · exact absurd hjam hno
  · exact served_of_free hfree hw
  · have hlt := Pool.length_finish hx.bounded hi
    cases hunary : busy.isUnary with
    | false =>
      cases busy with
      | registerNode | sendHeartbeat | reportJobStatus | submitJob => cases hunary
      | listenForCommands => exact absurd trivial hfree
      | streamLogs k =>
        have hended : x.ended k = true := by simpa [Holds] using hfree
        let y : Server := { x with pool := x.pool.finish i }
        have hst : exec cfg x (.finish i) = some y := by
          simp [exec, hi, Rpc.isUnary, hended, y]
        obtain ⟨x', hreach, hrest⟩ :
            ∃ x', ((lts cfg).restrict Connected).Reachable y x' ∧ x'.pool.waiting = rest :=
          served_of_free hlt hw
        exact ⟨x', (reaches (.finish i) trivial hst).append hreach, hrest⟩
    | true =>
      obtain ⟨y, hreach, ⟨hpool, -⟩, hreturned⟩ := exists_returned cfg x
      have hpos : 0 < y.pool.busy.countP Rpc.isUnary :=
        List.countP_pos_iff.2 ⟨busy, hpool ▸ List.mem_of_getElem? hi, hunary⟩
      have hlt' : (y.pool.finish i).busy.length < maxWorkers := hpool.symm ▸ hlt
      have hw' : (y.pool.finish i).waiting = rpc :: rest := hpool.symm ▸ hw
      let z : Server := { y with pool := y.pool.finish i, logs := y.answered busy }
      have hst : exec cfg y (.finish i) = some z := by
        simp [exec, hpool, hi, hunary, hreturned, hpool ▸ hpos, z]
      obtain ⟨x', hreach', hrest⟩ :
          ∃ x', ((lts cfg).restrict Connected).Reachable z x' ∧ x'.pool.waiting = rest :=
        served_of_free hlt' hw'
      exact ⟨x', (hreach.append (reaches (.finish i) trivial hst)).append hreach', hrest⟩

/-! ### What a jam is, and what it does -/

/-- **A jam is a deadlock**: the server is jammed exactly if the calls that wait are never served,
as long as the process is not killed and no client of a stream goes away. -/
theorem jammed_iff {registry : Registry} (h : (lts cfg).Reachable (serve registry) x)
    (hw : x.pool.waiting ≠ []) :
    x.Jammed ↔ ∀ x', ((lts cfg).restrict Connected).Reachable x x' →
      x.pool.waiting <+: x'.pool.waiting := by
  constructor
  · intro hjam x' hrun
    exact (hjam.run hrun).2
  · intro hnever
    by_contra hno
    obtain ⟨rpc, rest, hcons⟩ := List.exists_cons_of_ne_nil hw
    obtain ⟨x', hrun, hrest⟩ := served_of_not_jammed (conf_reachable h).1 hno hcons
    have hlen := (hnever x' hrun).length_le
    rw [hcons, hrest, List.length_cons] at hlen
    omega

/-- The call carries the logs of a process on this node whose report has not been answered. -/
def carriesLogs (x : Server) (nodeId : String) : Rpc → Bool
  | .streamLogs k => x.logs[k]?.any fun log => log.nodeId = nodeId && log.generator ≠ .ended
  | _ => false

/-- A node trains: its command stream has a worker, and so have the logs of a process of it. -/
def Trains (x : Server) (nodeId : String) : Prop :=
  x.pool.busy.any (Rpc.listensFor nodeId) = true ∧
    x.pool.busy.any (x.carriesLogs nodeId) = true

instance (x : Server) (nodeId : String) : Decidable (x.Trains nodeId) :=
  inferInstanceAs (Decidable (_ ∧ _))

theorem eq_of_listensFor {nodeId : String} {rpc : Rpc} (h : rpc.listensFor nodeId = true) :
    rpc = .listenForCommands nodeId := by
  cases rpc with
  | listenForCommands n => exact congrArg Rpc.listenForCommands (of_decide_eq_true h)
  | registerNode | sendHeartbeat | reportJobStatus | submitJob | streamLogs => cases h

theorem log_of_carriesLogs {nodeId : String} {rpc : Rpc} (h : x.carriesLogs nodeId rpc = true) :
    ∃ k log, rpc = .streamLogs k ∧ x.logs[k]? = some log ∧ log.nodeId = nodeId ∧
      log.generator ≠ .ended := by
  cases rpc with
  | streamLogs k =>
    obtain ⟨log, hlog, hnode⟩ := (Option.any_eq_true _ _).1 h
    simp only [Bool.and_eq_true, decide_eq_true_eq] at hnode
    exact ⟨k, log, rfl, hlog, hnode⟩
  | registerNode | sendHeartbeat | reportJobStatus | submitJob | listenForCommands => cases h

/-- **Five nodes that train jam the server**, for they hold all of its ten workers. -/
theorem jammed_of_nodes (hx : x.Sound) {nodes : List String} (hnd : nodes.Nodup)
    (hfive : 5 ≤ nodes.length) (htrain : ∀ n ∈ nodes, x.Trains n) : x.Jammed := by
  have : Nonempty Rpc := ⟨.streamLogs 0⟩
  choose! call hbusy hcall using fun n hn => List.any_eq_true.1 (htrain n hn).2
  let calls := nodes.map Rpc.listenForCommands ++ nodes.map call
  have hnodup : calls.Nodup := by
    refine List.nodup_append.2 ⟨hnd.map fun _ _ h => Rpc.listenForCommands.inj h, ?_, ?_⟩
    · -- the logs of different nodes are different calls
      refine List.Nodup.map_on (fun n hn n' hn' heq => ?_) hnd
      obtain ⟨k, log, hk, hlog, rfl, -⟩ := log_of_carriesLogs (hcall n hn)
      obtain ⟨k', log', hk', hlog', rfl, -⟩ := log_of_carriesLogs (hcall n' hn')
      obtain rfl := Rpc.streamLogs.inj (hk.symm.trans (heq.trans hk'))
      rw [Option.some.inj (hlog.symm.trans hlog')]
    · intro a ha b hb heq
      obtain ⟨n, -, rfl⟩ := List.mem_map.1 ha
      obtain ⟨n', hn', rfl⟩ := List.mem_map.1 hb
      obtain ⟨k, log, hk, -⟩ := log_of_carriesLogs (hcall n' hn')
      cases heq.trans hk
  refine Pool.jammed_of_held hx.bounded hnodup (fun c hc => ?_) (fun c hc => ?_) ?_
  · rcases List.mem_append.1 hc with hc | hc <;> obtain ⟨n, hn, rfl⟩ := List.mem_map.1 hc
    · obtain ⟨rpc, hrpc, hlisten⟩ := List.any_eq_true.1 (htrain n hn).1
      exact eq_of_listensFor hlisten ▸ hrpc
    · exact hbusy n hn
  · rcases List.mem_append.1 hc with hc | hc <;> obtain ⟨n, hn, rfl⟩ := List.mem_map.1 hc
    · trivial
    · obtain ⟨k, log, hk, hlog, -, hgen⟩ := log_of_carriesLogs (hcall n hn)
      rw [hk]
      simp [Holds, ended, hlog, hgen]
  · simp only [calls, List.length_append, List.length_map, maxWorkers]
    omega

theorem Jammed.unheard (hx : x.Sound) (hjam : x.Jammed)
    (hrun : ((lts cfg).restrict Connected).Reachable x x') :
    x.conf.mgr.registry.Unheard x'.conf.mgr.registry := by
  have hkeep := hrun.keeps (I := fun x' => (x'.Sound ∧ x'.Jammed) ∧
      x.conf.mgr.registry.Unheard x'.conf.mgr.registry)
    (fun y a y' hst ⟨⟨hy, hjam⟩, hunheard⟩ => by
      obtain ⟨hjam', -, hconf⟩ := hjam.step hst.1 hst.2
      refine ⟨⟨(hy.step hst.2).1, hjam'⟩, ?_⟩
      obtain hsame | ⟨l, hl, hexec⟩ := hconf
      · rwa [hsame]
      · exact hunheard.trans (unheard_work hl (hjam.no_handlers hy) hexec))
    ⟨⟨hx, hjam⟩, .refl _⟩
  exact hkeep.2

/-- **Five nodes that train silence the manager**: from then on it serves no call, and it learns of
no heartbeat, no report, no registration and no submission, also when the processes end. -/
theorem unheard_run {registry : Registry} (h : (lts cfg).Reachable (serve registry) x)
    {nodes : List String} (hnd : nodes.Nodup) (hfive : 5 ≤ nodes.length)
    (htrain : ∀ n ∈ nodes, x.Trains n)
    (hrun : ((lts cfg).restrict Connected).Reachable x x') :
    x.pool.waiting <+: x'.pool.waiting ∧
      x.conf.mgr.registry.Unheard x'.conf.mgr.registry := by
  have hx := (conf_reachable h).1
  have hjam := jammed_of_nodes hx hnd hfive htrain
  exact ⟨(hjam.run hrun).2, hjam.unheard hx hrun⟩

/-! ### Five nodes -/

namespace Sample

/-- Nodes whose two calls each take all of the ten workers. -/
def fiveNodes : List String := ["node-1", "node-2", "node-3", "node-4", "node-5"]

/-- Five nodes register and listen.  A job is submitted and dispatched to them; they take their
commands and start their processes. -/
def fiveTrain : List ServerLabel :=
  fiveNodes.flatMap (fun n => [.arrive (.registerNode Dmlf.Sample.node), .begin n "secret" 100,
    .work (.runTask 0 100), .finish 0]) ++
  fiveNodes.flatMap (fun n => [.arrive (.listenForCommands n), .begin "" "" 101]) ++
  [.arrive (.submitJob (Dmlf.Sample.job 5 1)), .begin "job-1" "" 102, .work (.runTask 0 102),
    .finish 5, .work (.schedulerPass 103)] ++
  List.replicate 13 (.work (.runTask 0 103)) ++
  fiveNodes.flatMap (fun n => [.work (.takeCommand n), .launch n "job-1", .begin "" "" 104])

end Sample

instance (x : Server) (rpc : Rpc) : Decidable (x.Holds rpc) :=
  match rpc with
  | .listenForCommands _ => isTrue trivial
  | .streamLogs _ => inferInstanceAs (Decidable (_ = _))
  | .registerNode _ | .sendHeartbeat _ | .reportJobStatus .. | .submitJob _ => isFalse id

instance (x : Server) : Decidable x.Jammed :=
  decidable_of_iff (x.pool.busy.length = maxWorkers ∧ ∀ rpc ∈ x.pool.busy, x.Holds rpc)
    ⟨fun h => ⟨h.1, h.2⟩, fun h => ⟨h.1, h.2⟩⟩

/-- A heartbeat that comes then waits. -/
theorem jammed_iff_fiveTrain : ∃ x, (lts Dmlf.Sample.setup).Reachable (serve .empty) x ∧
    x.pool.waiting.length = 1 ∧
    ∀ x', ((lts Dmlf.Sample.setup).restrict Connected).Reachable x x' →
      x.pool.waiting <+: x'.pool.waiting := by
  obtain ⟨x, hreach, hx⟩ := LTS.exists_of_exec (exec Dmlf.Sample.setup) (serve .empty)
    (Sample.fiveTrain ++ [.arrive (.sendHeartbeat ⟨"node-1", ⟨0, 0, 0, 0⟩, "TRAINING", 105⟩)])
    (fun x => decide (x.pool.waiting.length = 1 ∧ x.Jammed)) (by decide +kernel)
  obtain ⟨hone, hjam⟩ := of_decide_eq_true hx
  exact ⟨x, hreach, hone, (jammed_iff hreach (List.ne_nil_of_length_pos (by omega))).1 hjam⟩

/-- All five processes end.  The reports wait, and the monitor gives the job up for lost. -/
theorem unheard_run_fiveTrain : ∃ x x', (lts Dmlf.Sample.setup).Reachable (serve .empty) x ∧
    ((lts Dmlf.Sample.setup).restrict Connected).Reachable x x' ∧
    (x'.pool.waiting.length = 5 ∧ (x'.conf.mgr.registry.getJobs .pending).length = 1) ∧
    x.pool.waiting <+: x'.pool.waiting ∧
      x.conf.mgr.registry.Unheard x'.conf.mgr.registry := by
  obtain ⟨x, hreach, hx⟩ := LTS.exists_of_exec (exec Dmlf.Sample.setup) (serve .empty)
    Sample.fiveTrain (fun x => decide ((∀ n ∈ Sample.fiveNodes, x.Trains n) ∧
      (LTS.exec (fun x a => if x.Connected a then exec Dmlf.Sample.setup x a else none) x
        ((List.range 5).map (fun k => .outputEnds k "completed") ++
          .work (.monitorPass 120) :: List.replicate 3 (.work (.runTask 0 120)))).any
        (fun x' => decide (x'.pool.waiting.length = 5 ∧
          (x'.conf.mgr.registry.getJobs .pending).length = 1)) = true)) (by decide +kernel)
  obtain ⟨htrain, hlater⟩ := of_decide_eq_true hx
  obtain ⟨x', hrun, hx'⟩ := LTS.exists_of_exec_restrict _ _ x _ _ hlater
  exact ⟨x, x', hreach, hrun, of_decide_eq_true hx',
    unheard_run hreach (by decide : Sample.fiveNodes.Nodup) (by decide) htrain hrun⟩

end Server

end Dmlf
