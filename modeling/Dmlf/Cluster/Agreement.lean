import Dmlf.Cluster.Commands
import Dmlf.Jobs.Duplicates
import Dmlf.Jobs.Pass

/-!
# Agreement on completion

One row stands for all the nodes of a job, and `ReportJobStatus` closes it on the first
`completed` it sees, from whichever node and whichever dispatch.

* `World.preserves_dated` : a report is about a dispatch of its job that has taken place.
* `World.agreed_iff` : a completed row of a run has the word of all its nodes, and no objection,
  exactly as long as the first completion of a dispatch comes from the only node of the job.
* `World.length_le_one_of_agreed` : so no job with two nodes is ever completed in such a run.
* `World.agreed_fails` : one of two nodes completes its job.
-/

namespace Dmlf

/-- A command or a report is about a dispatch of job `j` that has taken place. -/
structure CommandId.Past (history : List Event) (j : String) (id : CommandId) : Prop where
  jobId : id.jobId = j
  pos : 0 < id.dispatch
  le : id.dispatch ≤ dispatchesIn history j

/-- Node `n` has sent a report of kind `p` for dispatch `d` of job `j`. -/
def Reported (handled : List Report) (p : JobStatusRequest → Bool) (j : String) (d : ℕ)
    (n : String) : Prop :=
  ∃ report ∈ handled, p report.request = true ∧ report.request.jobId = j ∧
    report.origin.dispatch = d ∧ report.request.nodeId = n

instance (handled : List Report) (p : JobStatusRequest → Bool) (j : String) (d : ℕ) (n : String) :
    Decidable (Reported handled p j d n) :=
  inferInstanceAs (Decidable (∃ report ∈ handled, p report.request = true ∧
    report.request.jobId = j ∧ report.origin.dispatch = d ∧ report.request.nodeId = n))

theorem reported_append {handled : List Report} {p : JobStatusRequest → Bool} {j : String} {d : ℕ}
    {n : String} (report : Report) : Reported (handled ++ [report]) p j d n ↔
      Reported handled p j d n ∨ p report.request = true ∧ report.request.jobId = j ∧
        report.origin.dispatch = d ∧ report.request.nodeId = n := by
  simp only [Reported, List.mem_append, List.mem_singleton, or_and_right, exists_or,
    exists_eq_left]

namespace Manager

variable {cfg : Setup} {m m' : Manager} {l : Label}

/-- A row that is completed after a step was completed before, and the step is no report of its
job, or the step is a completion. -/
theorem mem_completed_perform (hst : m.perform cfg l = some m') {row : JobRow}
    (hrow : row ∈ m'.registry.getJobs .completed) :
    (row ∈ m.registry.getJobs .completed ∧
      dispatchesIn m'.history row.jobId = dispatchesIn m.history row.jobId ∧
      ∀ req now, l = .reportJobStatus req now → m.Acts req → req.jobId ≠ row.jobId) ∨
    ∃ req now, l = .reportJobStatus req now ∧ req.isFailure = false ∧ req.isCompletion = true ∧
      req.jobId = row.jobId ∧
      ∃ old, m.registry.getJob row.jobId = some old ∧ row.assignedNodes = old.assignedNodes := by
  obtain ⟨hget, hs⟩ := Registry.mem_getJobs.1 hrow
  cases hold : m.registry.getJob row.jobId with
  | none =>
    have hpend := (getJob_of_new hst hold hget).1
    rw [hs] at hpend
    cases hpend
  | some old =>
    have hid := Registry.jobId_of_getJob hold
    obtain ⟨row', hget', heff⟩ := rowEffect hst hold
    obtain rfl : row = row' := Option.some.inj (hget.symm.trans hget')
    cases heff with
    | same hdisp hacts =>
      refine .inl ⟨Registry.mem_getJobs.2 ⟨hold, hs⟩, ?_, hacts⟩
      rw [dispatchesIn_perform hst, if_neg, add_zero]
      rw [Option.any_eq_true]
      rintro ⟨⟨j, nodes⟩, hd, hj⟩
      obtain rfl : j = row.jobId := of_decide_eq_true hj
      exact hdisp nodes hd
    | requeued | failed | dispatched => cases hs
    | completed req now hl hf hc hj => exact .inr ⟨req, now, hl, hf, hc, hj, old, rfl, rfl⟩

theorem completed_reportJobStatus {req : JobStatusRequest} {now : Time}
    (hst : m.perform cfg (.reportJobStatus req now) = some m') (hf : req.isFailure = false)
    (hc : req.isCompletion = true) {row : JobRow}
    (hrow : m.registry.getJob req.jobId = some row) :
    ∃ row' ∈ m'.registry.getJobs .completed, row'.jobId = row.jobId ∧
      row'.assignedNodes = row.assignedNodes := by
  have hid := Registry.jobId_of_getJob hrow
  obtain ⟨row', hget, heff⟩ := rowEffect hst hrow
  cases heff with
  | same _ hacts => exact absurd hid.symm (hacts req now rfl (by simp [Acts, hc]))
  | requeued hmem => simp [requeues, hf] at hmem
  | failed now _ hfail =>
    have hbad := hfail req _ rfl
    rw [hf] at hbad
    cases hbad
  | completed _ now' =>
    have hget' := (congrArg m'.registry.getJob hid).trans hget
    exact ⟨row.withStatus .completed none (some 0) now', Registry.mem_getJobs.2 ⟨hget', rfl⟩,
      rfl, rfl⟩
  | dispatched nodes now hd => cases hd

theorem nodes_of_dispatches {j : String} {nodes : List String}
    (h : m.dispatches cfg l = some (j, nodes)) : nodes.Nodup ∧ nodes ≠ [] := by
  cases l with
  | schedulerPass now =>
    obtain ⟨job, -, h⟩ := Option.bind_eq_some_iff.1 h
    obtain ⟨hne, h⟩ := Option.ite_none_left_eq_some.1 h
    obtain ⟨-, rfl⟩ := Prod.mk.inj (Option.some.inj h)
    refine ⟨selectNodes_eq job ▸ nodup_picks job, fun hnil => hne ?_⟩
    rw [List.map_eq_nil_iff.1 hnil]
    rfl
  | registerNode | sendHeartbeat | listenForCommands | takeCommand | reportJobStatus | submitJob
    | monitorPass | probe | restart | runTask => cases h

theorem assignedNodes_of_new {j : String} (hst : m.perform cfg l = some m')
    (hnone : m.registry.getJob j = none) {row : JobRow} (hrow : m'.registry.getJob j = some row) :
    row.assignedNodes = [] := by
  obtain ⟨-, req, now, rfl⟩ := getJob_of_new hst hnone hrow
  obtain ⟨m₁, hm₁, rfl⟩ := Option.map_eq_some_iff.1 hst
  obtain ⟨reg, hreg, rfl⟩ := Option.map_eq_some_iff.1 hm₁
  have hget : (if j = j then some ((req.toDict j).toRow now) else m.registry.getJob j) = some row :=
    (Registry.getJob_insertJob hreg j).symm.trans hrow
  rw [if_pos rfl] at hget
  obtain rfl := Option.some.inj hget
  rfl

/-- **A known job after a step**: the step dispatches it, or keeps its nodes and the number of its
dispatches. -/
theorem nodes_perform (hst : m.perform cfg l = some m') {j : String} {row row' : JobRow}
    (hrow : m.registry.getJob j = some row) (hrow' : m'.registry.getJob j = some row') :
    (∃ nodes, m.dispatches cfg l = some (j, nodes) ∧ row'.assignedNodes = nodes ∧
      dispatchesIn m'.history j = dispatchesIn m.history j + 1) ∨
    row'.assignedNodes = row.assignedNodes ∧
      dispatchesIn m'.history j = dispatchesIn m.history j := by
  have hcount := dispatchesIn_perform hst j
  obtain ⟨row'', hrow'', heff⟩ := rowEffect hst hrow
  obtain rfl : row' = row'' := Option.some.inj (hrow'.symm.trans hrow'')
  have hid : row.jobId = j := Registry.jobId_of_getJob hrow
  have hsame : (∀ nodes, m.dispatches cfg l ≠ some (j, nodes)) →
      dispatchesIn m'.history j = dispatchesIn m.history j := by
    intro hno
    rw [hcount, if_neg, add_zero]
    rw [Option.any_eq_true]
    rintro ⟨⟨j', nodes⟩, hd, hj⟩
    obtain rfl : j' = j := of_decide_eq_true hj
    exact hno nodes hd
  cases heff with
  | same hdisp => exact .inr ⟨rfl, hsame (hid ▸ hdisp)⟩
  | failed now hnone => exact .inr ⟨rfl, hsame fun nodes hd => by rw [hnone] at hd; cases hd⟩
  | completed req now hl => exact .inr ⟨rfl, hsame fun nodes hd => by rw [hl] at hd; cases hd⟩
  | requeued hmem =>
    refine .inr ⟨rfl, hsame fun nodes hd => ?_⟩
    obtain ⟨-, now, rfl⟩ := mem_queue_of_dispatches hd
    cases hmem
  | dispatched nodes now hd =>
    rw [hid] at hd
    refine .inl ⟨nodes, hd, rfl, ?_⟩
    rw [hcount, hd]
    simp

/-- The nodes of a row are those of a dispatch of its job. -/
structure RowsPlaced (m : Manager) : Prop where
  unknown : ∀ j, m.registry.getJob j = none → dispatchesIn m.history j = 0
  nodup : ∀ j row, m.registry.getJob j = some row → row.assignedNodes.Nodup
  nonempty : ∀ j row, m.registry.getJob j = some row → 0 < dispatchesIn m.history j →
    row.assignedNodes ≠ []

theorem RowsPlaced.dispatchesIn_eq_zero (h : m.RowsPlaced) (hs : m.Sound)
    (hst : m.perform cfg l = some m') {j : String} (hnone : m.registry.getJob j = none) :
    dispatchesIn m'.history j = 0 := by
  rw [dispatchesIn_perform hst, h.unknown j hnone, if_neg]
  rw [Option.any_eq_true]
  rintro ⟨d, hd, hj⟩
  obtain ⟨⟨e, he, hid⟩, -⟩ := mem_queue_of_dispatches hd
  obtain ⟨row, hrow⟩ := hs.1.queue e he
  rw [hid, of_decide_eq_true hj, hnone] at hrow
  cases hrow

/-- **Every step** keeps the nodes of the rows in place. -/
theorem RowsPlaced.perform (h : m.RowsPlaced) (hs : m.Sound) (hst : m.perform cfg l = some m') :
    m'.RowsPlaced := by
  have hnew := fun j hnone => h.dispatchesIn_eq_zero hs hst (j := j) hnone
  refine ⟨fun j hnone => hnew j ?_, fun j row' hrow' => ?_, fun j row' hrow' hpos => ?_⟩
  · cases hrow : m.registry.getJob j with
    | none => rfl
    | some row =>
      obtain ⟨row', hrow', -⟩ := rowEffect hst hrow
      cases hnone.symm.trans hrow'
  · cases hrow : m.registry.getJob j with
    | none =>
      rw [assignedNodes_of_new hst hrow hrow']
      exact List.nodup_nil
    | some row =>
      rcases nodes_perform hst hrow hrow' with ⟨nodes, hd, hnodes, -⟩ | ⟨hnodes, -⟩
      · rw [hnodes]
        exact (nodes_of_dispatches hd).1
      · rw [hnodes]
        exact h.nodup j row hrow
  · cases hrow : m.registry.getJob j with
    | none =>
      have hzero := hnew j hrow
      omega
    | some row =>
      rcases nodes_perform hst hrow hrow' with ⟨nodes, hd, hnodes, -⟩ | ⟨hnodes, hcount⟩
      · rw [hnodes]
        exact (nodes_of_dispatches hd).2
      · rw [hnodes]
        exact h.nonempty j row hrow (by omega)

theorem dispatchesIn_le_perform (hst : m.perform cfg l = some m') (j : String) :
    dispatchesIn m.history j ≤ dispatchesIn m'.history j := by
  rw [dispatchesIn_perform hst]
  exact Nat.le_add_right _ _

end Manager

namespace World

variable {cfg : Setup} {w w' : World Manager} {mv : Move}

/-! ### Dispatches and their reports -/

/-- Commands and reports are about dispatches that have taken place. -/
structure Dated (w : World Manager) : Prop where
  sound : w.manager.Sound
  placed : w.manager.RowsPlaced
  commands : ∀ n, ∀ command ∈ w.commandsAt id n,
    command.commandId.Past w.manager.history command.jobPayload.jobId
  reports : ∀ report, report ∈ w.reports ∨ report ∈ w.handled →
    report.origin.Past w.manager.history report.request.jobId

theorem dated_start : Dated (start (.serve .empty [])) where
  sound := Manager.sound_serve .empty
  placed :=
    { unknown := fun _ _ => rfl
      nodup := fun _ _ hrow => by cases hrow
      nonempty := fun _ _ hrow => by cases hrow }
  commands := fun _ _ h => absurd h List.not_mem_nil
  reports := fun _ h => h.elim (absurd · List.not_mem_nil) (absurd · List.not_mem_nil)

/-- **Every move** keeps commands and reports dated. -/
theorem preserves_dated : (lts (.serial cfg)).Preserves Dated := by
  intro w mv w' hst h
  have P := projection (.serial cfg)
  have hmono : ∀ j, dispatchesIn w.manager.history j ≤ dispatchesIn w'.manager.history j := by
    intro j
    cases hl : label w mv with
    | none => rw [P.quiet hst hl]
    | some l => exact Manager.dispatchesIn_le_perform (P.step hst hl) j
  have hpast : ∀ {id : CommandId} {j}, id.Past w.manager.history j →
      id.Past w'.manager.history j := fun h => ⟨h.jobId, h.pos, h.le.trans (hmono _)⟩
  refine ⟨P.preserves Manager.preserves_sound hst h.sound, ?_, ?_, fun report hreport => ?_⟩
  · cases hl : label w mv with
    | none => rw [P.quiet hst hl]; exact h.placed
    | some l => exact h.placed.perform h.sound (P.step hst hl)
  · refine forall_commandsAt_step hst (fun _ hc => hpast hc) (fun l hl n q hq command hc => ?_)
      h.commands
    have hx := P.step hst hl
    refine (Manager.mem_commandQueues_perform hx hq hc).imp_right ?_
    rintro ⟨nodes, hd, -, hlatest, hj⟩
    have hcount := Manager.dispatchesIn_perform hx command.commandId.jobId
    simp only [hd, Option.any_some, decide_true, if_true] at hcount
    exact ⟨hj.symm, by omega, by rw [hlatest, hj]⟩
  · rcases mem_reports_step _ hst hreport with hold | ⟨n, command, hc, horigin, hj, -⟩
    · exact hpast (h.reports report hold)
    · rw [horigin, hj]
      exact hpast (h.commands n command hc)

/-! ### Agreement -/

/-- Every node of a completed job has reported its completion for the latest dispatch of the job,
and none has reported a failure for it. -/
def Agreed (w : World Manager) : Prop :=
  ∀ row ∈ w.manager.registry.getJobs .completed, ∀ n ∈ row.assignedNodes,
    Reported w.handled JobStatusRequest.isCompletion row.jobId
        (dispatchesIn w.manager.history row.jobId) n ∧
      ¬ Reported w.handled JobStatusRequest.isFailure row.jobId
        (dispatchesIn w.manager.history row.jobId) n

/-- A completion of a known job is handled: no failure of a node of the job has been handled for the
latest dispatch, and it is the first completion for this dispatch only if it is about it and its
node is the only one of the job. -/
def CompletesAlone (w : World Manager) : Move → Prop
  | .deliverReport i _ => ∀ report ∈ w.reports[i]?, report.request.isCompletion = true →
      ∀ row ∈ w.manager.registry.getJob report.request.jobId,
        (∀ n ∈ row.assignedNodes, ¬ Reported w.handled JobStatusRequest.isFailure row.jobId
          (dispatchesIn w.manager.history row.jobId) n) ∧
        ((∀ n, ¬ Reported w.handled JobStatusRequest.isCompletion row.jobId
            (dispatchesIn w.manager.history row.jobId) n) →
          row.assignedNodes = [report.request.nodeId] ∧
            report.origin.dispatch = dispatchesIn w.manager.history row.jobId)
  | _ => True

/-- With this report all nodes of its job have reported their completion for the latest dispatch,
and none a failure. -/
def Unanimous (w : World Manager) (report : Report) : Prop :=
  ∀ row ∈ w.manager.registry.getJob report.request.jobId, ∀ n ∈ row.assignedNodes,
    Reported (w.handled ++ [report]) JobStatusRequest.isCompletion row.jobId
        (dispatchesIn w.manager.history row.jobId) n ∧
      ¬ Reported w.handled JobStatusRequest.isFailure row.jobId
        (dispatchesIn w.manager.history row.jobId) n

/-- A job that has been completed for its latest dispatch has one node, which has completed it. -/
def CompletedAlone (w : World Manager) : Prop :=
  ∀ j, ∀ row ∈ w.manager.registry.getJob j, ∀ n,
    Reported w.handled JobStatusRequest.isCompletion j (dispatchesIn w.manager.history j) n →
      ∃ n', row.assignedNodes = [n'] ∧
        Reported w.handled JobStatusRequest.isCompletion j (dispatchesIn w.manager.history j) n'

theorem Agreed.of_perform (h : w.Agreed) {l : Label}
    (hst : (ManagerSystem.serial cfg).exec w.manager l = some w'.manager)
    (hl : ∀ req now, l ≠ .reportJobStatus req now) (hh : w'.handled = w.handled) : w'.Agreed := by
  intro row hrow n hn
  rcases Manager.mem_completed_perform hst hrow with ⟨hold, hd, -⟩ | ⟨req, now, hreq, -⟩
  · rw [hh, hd]
    exact h row hold n hn
  · exact absurd hreq (hl req now)

theorem agreed_deliverReport (cfg : Setup) (h : w.Agreed) {now : Time} {report : Report}
    (hm : w'.manager = w.manager.reportJobStatus report.request now)
    (hh : w'.handled = w.handled ++ [report]) :
    w'.Agreed ↔ (report.request.isCompletion = true → w.Unanimous report) := by
  have hst : w.manager.perform cfg (.reportJobStatus report.request now) = some w'.manager := by
    rw [hm]; rfl
  have hd : ∀ j, dispatchesIn w'.manager.history j = dispatchesIn w.manager.history j :=
    Manager.dispatchesIn_perform hst
  constructor
  · intro hA hc row hrow n hn
    have hf : report.request.isFailure = false := by
      by_contra hf
      rw [JobStatusRequest.isCompletion_of_isFailure (by simpa using hf)] at hc
      cases hc
    obtain ⟨row', hrow', hj, hnodes⟩ := Manager.completed_reportJobStatus hst hf hc hrow
    obtain ⟨hcomp, hfail⟩ := hA row' hrow' n (hnodes ▸ hn)
    rw [hh, hd, hj] at hcomp hfail
    exact ⟨hcomp, fun hbad => hfail ((reported_append report).2 (.inl hbad))⟩
  · intro hG row hrow n hn
    rw [hh, hd]
    rcases Manager.mem_completed_perform hst hrow with
      ⟨hold, -, hacts⟩ | ⟨req, now', hl, hf, hc, hj, old, hold, hnodes⟩
    · -- the row was completed before, so the report is about another job or has no effect
      obtain ⟨hcomp, hfail⟩ := h row hold n hn
      refine ⟨(reported_append report).2 (.inl hcomp), fun hbad => ?_⟩
      rcases (reported_append report).1 hbad with hbad | ⟨hf, hj, -⟩
      · exact hfail hbad
      · refine hacts _ now rfl ?_ hj
        simp [Manager.Acts, hf, hj, (Registry.mem_getJobs.1 hold).1]
    · obtain ⟨rfl, -⟩ := Label.reportJobStatus.inj hl
      have hid := Registry.jobId_of_getJob hold
      obtain ⟨hcomp, hfail⟩ := hG hc old (hj ▸ hold) n (hnodes ▸ hn)
      rw [hid] at hcomp hfail
      refine ⟨hcomp, fun hbad => ?_⟩
      rcases (reported_append report).1 hbad with hbad | ⟨hf', -⟩
      · exact hfail hbad
      · rw [hf] at hf'; cases hf'

/-- **A completion has the word of all nodes** exactly if there is one node, and this is its first
completion for the latest dispatch, or a later one. -/
theorem unanimous_iff (hd : w.Dated) (hJ : w.CompletedAlone) {i : ℕ} {now : Time}
    {report : Report} (hi : w.reports[i]? = some report) :
    (report.request.isCompletion = true → w.Unanimous report) ↔
      w.CompletesAlone (.deliverReport i now) := by
  have hpast := hd.reports report (.inl (List.mem_of_getElem? hi))
  constructor
  · intro h report' hi' hc row hrow
    obtain rfl : report = report' := Option.some.inj (hi.symm.trans hi')
    have hall := h hc row hrow
    have hid : row.jobId = report.request.jobId := Registry.jobId_of_getJob hrow
    refine ⟨fun n hn => (hall n hn).2, fun hfirst => ?_⟩
    -- nobody else has reported, so all nodes of the row are this one
    have honly : ∀ n ∈ row.assignedNodes, n = report.request.nodeId ∧
        report.origin.dispatch = dispatchesIn w.manager.history row.jobId := by
      intro n hn
      rcases (reported_append report).1 (hall n hn).1 with hold | ⟨-, -, hdispatch, hnode⟩
      · exact absurd hold (hfirst n)
      · exact ⟨hnode.symm, hdispatch⟩
    have hne := hd.placed.nonempty _ row hrow (hpast.pos.trans_le hpast.le)
    obtain ⟨n, hn⟩ := List.exists_mem_of_ne_nil _ hne
    refine ⟨?_, (honly n hn).2⟩
    have hnodup := hd.placed.nodup _ row hrow
    have hrep := List.eq_replicate_of_mem fun n hn => (honly n hn).1
    rw [hrep, List.nodup_replicate] at hnodup
    have hpos := List.length_pos_of_ne_nil hne
    rw [hrep, show row.assignedNodes.length = 1 by omega]
    rfl
  · intro h hc row hrow n hn
    obtain ⟨hfail, hfirst⟩ := h report hi hc row hrow
    have hid : row.jobId = report.request.jobId := Registry.jobId_of_getJob hrow
    refine ⟨(reported_append report).2 ?_, hfail n hn⟩
    by_cases hsome : ∃ n', Reported w.handled JobStatusRequest.isCompletion row.jobId
        (dispatchesIn w.manager.history row.jobId) n'
    · obtain ⟨n', hn'⟩ := hsome
      obtain ⟨only, hnodes, honly⟩ := hJ row.jobId row (hid ▸ hrow) n' hn'
      rw [hnodes, List.mem_singleton] at hn
      exact .inl (hn ▸ honly)
    · obtain ⟨hnodes, hdispatch⟩ := hfirst (not_exists.1 hsome)
      rw [hnodes, List.mem_singleton] at hn
      exact .inr ⟨hc, hid.symm, hdispatch, hn.symm⟩

/-- **One move** keeps the agreement exactly if a completion that it delivers is that of the only
node. -/
theorem agreed_step (hd : w.Dated) (hJ : w.CompletedAlone) (h : w.Agreed)
    (hst : (lts (.serial cfg)).step w mv w') : w'.Agreed ↔ w.CompletesAlone mv := by
  cases effect _ hst with
  | @deliverReport i now report x hi hx =>
    obtain rfl := Option.some.inj hx
    exact (agreed_deliverReport cfg h rfl rfl).trans (unanimous_iff hd hJ hi)
  | manager hl hx =>
    refine iff_of_true (h.of_perform hx (fun req now hreq => ?_) rfl) trivial
    rw [hreq] at hl
    cases hl
  | join hx | deliverHeartbeat _ hx | listen hx | takeCommand _ _ hx =>
    exact iff_of_true (h.of_perform hx (fun _ _ hreq => by cases hreq) rfl) trivial
  | buildHeartbeat | receive | disconnect | exit | logStep => exact iff_of_true h trivial

theorem Dated.of_reported (hd : w.Dated) (hst : (lts (.serial cfg)).step w mv w') {j n : String}
    {row' : JobRow} (hrow' : w'.manager.registry.getJob j = some row')
    (hn : Reported w.handled JobStatusRequest.isCompletion j
      (dispatchesIn w'.manager.history j) n) :
    ∃ row, w.manager.registry.getJob j = some row ∧ row'.assignedNodes = row.assignedNodes ∧
      dispatchesIn w'.manager.history j = dispatchesIn w.manager.history j := by
  have P := projection (.serial cfg)
  obtain ⟨report, hmem, -, hj, hdispatch, -⟩ := hn
  have hpast := hd.reports report (.inr hmem)
  rw [hj] at hpast
  have hle := hpast.le
  have hpos := hpast.pos
  cases hl : label w mv with
  | none =>
    have hsame : w'.manager = w.manager := P.quiet hst hl
    rw [hsame] at hrow' ⊢
    exact ⟨row', hrow', rfl, rfl⟩
  | some l =>
    have hx : w.manager.perform cfg l = some w'.manager := P.step hst hl
    cases hrow : w.manager.registry.getJob j with
    | none =>
      have hzero := hd.placed.unknown j hrow
      omega
    | some row =>
      refine ⟨row, rfl, ?_⟩
      rcases Manager.nodes_perform hx hrow hrow' with ⟨nodes, -, -, hcount⟩ | hsame
      · omega
      · exact hsame

theorem CompletedAlone.of_reported (hJ : w.CompletedAlone) (hd : w.Dated)
    (hst : (lts (.serial cfg)).step w mv w') (hh : w.handled ⊆ w'.handled) {j n : String}
    {row' : JobRow} (hrow' : w'.manager.registry.getJob j = some row')
    (hn : Reported w.handled JobStatusRequest.isCompletion j
      (dispatchesIn w'.manager.history j) n) :
    ∃ n', row'.assignedNodes = [n'] ∧ Reported w'.handled JobStatusRequest.isCompletion j
      (dispatchesIn w'.manager.history j) n' := by
  obtain ⟨row, hrow, hnodes, hcount⟩ := hd.of_reported hst hrow' hn
  rw [hcount] at hn ⊢
  obtain ⟨n', hn', report, hmem, hreport⟩ := hJ j row hrow n hn
  exact ⟨n', hnodes.trans hn', report, hh hmem, hreport⟩

/-- **As long as there is agreement**, only jobs with one node are completed. -/
theorem completedAlone_step (hd : w.Dated) (hA : w.Agreed) (hJ : w.CompletedAlone)
    (hst : (lts (.serial cfg)).step w mv w') (hA' : w'.Agreed) : w'.CompletedAlone := by
  have halone := (agreed_step hd hJ hA hst).1 hA'
  intro j row' hrow' n hn
  cases effect _ hst with
  | @deliverReport i now report x hi hx =>
    rcases (reported_append report).1 hn with hold | ⟨hc, hj, hdispatch, -⟩
    · exact hJ.of_reported hd hst (List.subset_append_left _ _) hrow' hold
    · obtain rfl := Option.some.inj hx
      have hx : w.manager.perform cfg (.reportJobStatus report.request now) =
        some (w.manager.reportJobStatus report.request now) := rfl
      have hpast := hd.reports report (.inl (List.mem_of_getElem? hi))
      rw [hj] at hpast
      cases hrow : w.manager.registry.getJob j with
      | none =>
        have hle := hpast.pos.trans_le hpast.le
        have hzero := hd.placed.unknown j hrow
        omega
      | some row =>
        have hid : row.jobId = j := Registry.jobId_of_getJob hrow
        obtain ⟨hnodes, hcount⟩ : row'.assignedNodes = row.assignedNodes ∧ _ :=
          (Manager.nodes_perform hx hrow hrow').resolve_left fun ⟨_, hdisp, _⟩ => by cases hdisp
        by_cases hsome : ∃ n', Reported w.handled JobStatusRequest.isCompletion j
            (dispatchesIn w.manager.history j) n'
        · obtain ⟨n', hn'⟩ := hsome
          exact hJ.of_reported hd hst (List.subset_append_left _ _) hrow'
            (by rwa [← hcount] at hn')
        · -- the first completion of the latest dispatch
          obtain ⟨-, hfirst⟩ := halone report hi hc row (hj ▸ hrow)
          rw [hid] at hfirst
          obtain ⟨honly, hlatest⟩ := hfirst (not_exists.1 hsome)
          exact ⟨report.request.nodeId, hnodes.trans honly,
            (reported_append report).2 (.inr ⟨hc, hj, hdispatch, rfl⟩)⟩
  | manager | join | buildHeartbeat | deliverHeartbeat | listen | takeCommand | receive
    | disconnect | exit | logStep =>
    exact hJ.of_reported hd hst (List.Subset.refl _) hrow' hn

theorem completedAlone_start : CompletedAlone (start (.serve .empty [])) :=
  fun _ _ hrow => by cases hrow

/-- A run that agrees in all its states completes only jobs with one node. -/
theorem statesMeet_completedAlone {tr : List (Move × World Manager)}
    (h : (lts (.serial cfg)).Run (start (.serve .empty [])) tr)
    (hA : LTS.StatesMeet Agreed (start (.serve .empty [])) tr) :
    LTS.StatesMeet (fun w => w.Agreed ∧ w.CompletedAlone) (start (.serve .empty [])) tr :=
  h.statesMeet_and preserves_dated (fun _ _ _ hd hA hJ hst hA' =>
    completedAlone_step hd hA hJ hst hA') dated_start completedAlone_start hA

/-- **Agreement on completion, exactly if the only node completes the job.**  In all states of a
run of the cluster the nodes of every completed job have all reported its completion, and none a
failure, if and only if every completion of a known job is handled after no failure of a node of
the job for its latest dispatch, and the first one after that dispatch comes from the only node of
the job and is about this dispatch. -/
theorem agreed_iff {tr : List (Move × World Manager)}
    (h : (lts (.serial cfg)).Run (start (.serve .empty [])) tr) :
    LTS.StatesMeet Agreed (start (.serve .empty [])) tr ↔
      LTS.StepsMeet CompletesAlone (start (.serve .empty [])) tr := by
  have hstart : (start (.serve .empty [])).Agreed := fun row hrow => by cases hrow
  have hexact := h.statesMeet_iff_stepsMeet (K := Dated)
    (I := fun w => w.Agreed ∧ w.CompletedAlone) (G := CompletesAlone) preserves_dated
    (fun w mv w' hd hI hst => by
      rw [← agreed_step hd hI.2 hI.1 hst]
      exact and_iff_left_of_imp (completedAlone_step hd hI.1 hI.2 hst))
    dated_start ⟨hstart, completedAlone_start⟩
  rw [← hexact]
  exact ⟨statesMeet_completedAlone h, fun hI =>
    h.statesMeet_imp preserves_dated (fun _ _ h => h.1) dated_start hI⟩

/-- **No job with two nodes is completed** in a run that agrees in all its states. -/
theorem length_le_one_of_agreed {tr : List (Move × World Manager)}
    (h : (lts (.serial cfg)).Run (start (.serve .empty [])) tr)
    (hA : LTS.StatesMeet Agreed (start (.serve .empty [])) tr) :
    LTS.StatesMeet (fun w => ∀ row ∈ w.manager.registry.getJobs .completed,
      row.assignedNodes.length ≤ 1) (start (.serve .empty [])) tr := by
  refine h.statesMeet_imp preserves_dated (fun w _ hI row hrow => ?_) dated_start
    (statesMeet_completedAlone h hA)
  cases hnodes : row.assignedNodes with
  | nil => exact Nat.zero_le 1
  | cons n rest =>
    have hn : n ∈ row.assignedNodes := hnodes ▸ List.mem_cons_self
    obtain ⟨n', honly, -⟩ := hI.2 row.jobId row (Registry.mem_getJobs.1 hrow).1 n
      (hI.1 row hrow n hn).1
    rw [← hnodes, honly]
    exact le_rfl

instance : DecidablePred Agreed := fun w =>
  inferInstanceAs (Decidable (∀ row ∈ w.manager.registry.getJobs .completed,
    ∀ n ∈ row.assignedNodes, Reported w.handled JobStatusRequest.isCompletion row.jobId
        (dispatchesIn w.manager.history row.jobId) n ∧
      ¬ Reported w.handled JobStatusRequest.isFailure row.jobId
        (dispatchesIn w.manager.history row.jobId) n))

/-- A job for two nodes is launched, and one for a third node is dispatched to it, fails, and is
completed in its second dispatch; then the first report about the two nodes is a failure. -/
theorem agreed_iff_second :
    let s := start (.serve .empty [])
    let tr := LTS.runOf (exec (.serial Sample.setup)) s
      (Sample.launchTwo false ++ [.join "node-3" "secret-3" Sample.node 103,
        .manager (.submitJob "job-2" (Sample.job 1 1) 104), .manager (.schedulerPass 105),
        .takeCommand "node-3", .receive "node-3"] ++ Sample.finish "node-3" 0 1 ++
        [.deliverReport 0 106, .manager (.schedulerPass 107), .takeCommand "node-3",
          .receive "node-3"] ++ Sample.finish "node-3" 1 0 ++ [.deliverReport 0 110] ++
        Sample.finish "node-2" 0 1 ++ [.deliverReport 0 111])
    ((LTS.last s tr).manager.registry.getJobs .completed).map JobRow.jobId = ["job-2"] ∧
      (LTS.last s tr).handled.length = 3 ∧ LTS.StatesMeet Agreed s tr ∧
      LTS.StepsMeet CompletesAlone s tr := by
  intro s tr
  have hagreed : LTS.StatesMeet Agreed s tr := by decide +kernel
  exact ⟨by decide +kernel, by decide +kernel, hagreed,
    (agreed_iff (LTS.run_runOf (exec (.serial Sample.setup)) _ _)).1 hagreed⟩

/-- One of the two nodes of a job completes it, while the other one is still at work. -/
theorem agreed_fails :
    ¬ ∀ (cfg : Setup) (w : World Manager),
      (lts (.serial cfg)).Reachable (start (.serve .empty [])) w → w.Agreed := by
  intro hall
  obtain ⟨w, hw, hp⟩ := LTS.exists_of_exec (exec (.serial Sample.setup))
    (start (.serve .empty []))
    (Sample.launchTwo false ++ Sample.finish "node-1" 0 0 ++ [.deliverReport 0 110])
    (fun w => (w.manager.registry.getJobs .completed).any fun row => row.assignedNodes.any fun n =>
      !Reported w.handled JobStatusRequest.isCompletion row.jobId
        (dispatchesIn w.manager.history row.jobId) n)
    (by decide +kernel)
  obtain ⟨row, hrow, hp⟩ := List.any_eq_true.1 hp
  obtain ⟨n, hn, hp⟩ := List.any_eq_true.1 hp
  simp only [Bool.not_eq_true', decide_eq_false_iff_not] at hp
  exact hp (hall _ w hw row hrow n hn).1

end World

end Dmlf
