import Dmlf.Auth.Interceptors
import Dmlf.LTS.Basic

/-!
# Credentials over the life of a database

`RegisterNode` generates the id and the secret of a node, `register_node` stores them, and the node
appends both to the metadata of its calls.  Every later operation works on the same table.

* `RegistryOp` : the methods of `NodeRegistry` that write, and a restart, which runs `_init_db`.
* `Registry.issued_step` : the secrets that are stored are the ones that have been issued.
* `Registry.credentials_valid` : the credentials of every registered node are accepted in every
  later state, and no others.
-/

namespace Dmlf

/-! ### Generated credentials -/

/-- `f"node-{uuid.uuid4().hex[:8]}"`, given the digits. -/
def generatedNodeId (hex : String) : String := "node-" ++ hex

/-- The alphabet of `base64.urlsafe_b64encode`. -/
def urlsafeAlphabet : List Char :=
  "ABCDEFGHIJKLMNOPQRSTUVWXYZabcdefghijklmnopqrstuvwxyz0123456789-_".toList

/-- The groups of six bits in some bytes, the last one filled up with zeros. -/
def sextets : List (Fin 256) → List ℕ
  | a :: b :: c :: bytes =>
    [a.val / 4, a.val % 4 * 16 + b.val / 16, b.val % 16 * 4 + c.val / 64, c.val % 64] ++
      sextets bytes
  | [a, b] => [a.val / 4, a.val % 4 * 16 + b.val / 16, b.val % 16 * 4]
  | [a] => [a.val / 4, a.val % 4 * 16]
  | [] => []

/-- `secrets.token_urlsafe`, given the random bytes: their base64 text without padding. -/
def tokenUrlsafe (bytes : List (Fin 256)) : String :=
  String.ofList ((sextets bytes).map fun i => urlsafeAlphabet.getD i 'A')

example : sextets [0, 16, 131, 251] = [0, 1, 2, 3, 62, 48] := by decide

theorem sextets_ne_nil {bytes : List (Fin 256)} (h : bytes ≠ []) : sextets bytes ≠ [] := by
  rcases bytes with _ | ⟨a, _ | ⟨b, _ | ⟨c, bytes⟩⟩⟩
  · exact absurd rfl h
  · exact List.cons_ne_nil _ _
  · exact List.cons_ne_nil _ _
  · exact List.cons_ne_nil _ _

theorem ofList_ne_empty {text : List Char} (h : text ≠ []) : String.ofList text ≠ "" := by
  intro heq
  exact h (by simpa using congrArg String.toList heq)

theorem generatedNodeId_ne_empty (hex : String) : generatedNodeId hex ≠ "" := by
  intro h
  have hlen := congrArg String.length h
  simp [generatedNodeId] at hlen

theorem tokenUrlsafe_ne_empty (bytes : Fin 16 → Fin 256) : tokenUrlsafe (List.ofFn bytes) ≠ "" := by
  refine ofList_ne_empty ?_
  rw [Ne, List.map_eq_nil_iff]
  exact sextets_ne_nil (by simp)

/-! ### Operations -/

/-- An operation that writes to the database.  A registration comes with the digits and the bytes
that `RegisterNode` has generated. -/
inductive RegistryOp where
  | registerNode (hex : String) (bytes : Fin 16 → Fin 256) (hostname ipAddress : String)
      (cpuCount : ℤ) (gpuModel ramTotal : String) (now : Time)
  | updateHeartbeat (nodeId : String) (status : NodeState) (metrics : Metrics) (latencyMs : ℚ)
      (now : Time)
  | markOfflineNodes (now : Time) (timeoutSeconds : ℚ)
  | updateNodeState (nodeId : String) (newState : NodeState)
  | insertJob (job : JobDict) (now : Time)
  | updateJobStatus (jobId : String) (status : JobState) (assignedNodes : Option (List String))
      (exitCode : Option ℤ) (now : Time)
  | updateJobRetries (jobId : String) (newStatus : JobState) (retries : ℤ)
  /-- A restart: the tables and columns that `_init_db` creates are there already. -/
  | initDb

namespace Registry

variable {reg reg' : Registry} {op : RegistryOp}

/-- One operation.  The id of a new node is new. -/
def exec (reg : Registry) : RegistryOp → Option Registry
  | .registerNode hex bytes hostname ipAddress cpuCount gpuModel ramTotal now =>
    if (reg.getNode (generatedNodeId hex)).isNone then
      some (reg.registerNode (generatedNodeId hex) hostname ipAddress cpuCount gpuModel ramTotal
        (some (tokenUrlsafe (List.ofFn bytes))) now)
    else none
  | .updateHeartbeat nodeId status metrics latencyMs now =>
    some (reg.updateHeartbeat nodeId status metrics latencyMs now)
  | .markOfflineNodes now timeoutSeconds => some (reg.markOfflineNodes now timeoutSeconds)
  | .updateNodeState nodeId newState => some (reg.updateNodeState nodeId newState)
  | .insertJob job now => reg.insertJob job now
  | .updateJobStatus jobId status assignedNodes exitCode now =>
    some (reg.updateJobStatus jobId status assignedNodes exitCode now)
  | .updateJobRetries jobId newStatus retries => some (reg.updateJobRetries jobId newStatus retries)
  | .initDb => some reg

/-- The credentials that have been issued, those of a registration included. -/
def issue (issued : List (String × String)) : RegistryOp → List (String × String)
  | .registerNode hex bytes .. =>
    issued ++ [(generatedNodeId hex, tokenUrlsafe (List.ofFn bytes))]
  | _ => issued

/-- The database with the credentials that have been issued. -/
def lts : LTS (Registry × List (String × String)) RegistryOp :=
  (LTS.ofExec exec).recorded fun _ issued op => issue issued op

/-- The secrets that are stored are those that have been issued, and no text of them is empty. -/
structure Issued (reg : Registry) (issued : List (String × String)) : Prop where
  stored : ∀ n secret, reg.getNodeSecret n = some secret ↔ (n, secret) ∈ issued
  known : ∀ x ∈ issued, (reg.getNode x.1).isSome
  nonempty : ∀ x ∈ issued, x.1 ≠ "" ∧ x.2 ≠ ""

/-- The call is extended by the client, and passes. -/
def Accepts (reg : Registry) (n secret : String) : Prop :=
  ∀ method metadata,
    interceptNodeSecret reg ⟨method, addNodeSecret (some n) (some secret) metadata⟩ = .ok ()

/-- The issued credentials are accepted, and no others. -/
structure CredentialsValid (reg : Registry) (issued : List (String × String)) : Prop where
  accepted : ∀ n secret, (n, secret) ∈ issued → reg.Accepts n secret
  only : ∀ details : HandlerCallDetails, details.method ∈ nodeAuthRpcs →
    interceptNodeSecret reg details = .ok () → ∃ n secret,
      details.invocationMetadata.get "node-id" = some n ∧
      details.invocationMetadata.get "node-secret" = some secret ∧
      (reg.getNode n).isSome ∧ (n, secret) ∈ issued

theorem getNodeSecret_updateNodes {p : NodeRow → Bool} {f : NodeRow → NodeRow} (hf)
    (hsecret : ∀ r, (f r).nodeSecret = r.nodeSecret) (n : String) :
    (reg.updateNodes p f hf).getNodeSecret n = reg.getNodeSecret n := by
  show ((reg.updateNodes p f hf).getNode n).bind NodeRow.nodeSecret = _
  rw [getNode_updateNodes]
  show _ = (reg.getNode n).bind NodeRow.nodeSecret
  cases reg.getNode n with
  | none => rfl
  | some r =>
    simp only [Option.map_some, Option.bind_some]
    split_ifs
    · exact hsecret r
    · rfl

/-- **Only a registration touches the secrets**, and only the one of the node that it adds. -/
theorem secrets_step (hst : reg.exec op = some reg') :
    (∃ n secret, n ≠ "" ∧ secret ≠ "" ∧ reg.getNode n = none ∧
      (∀ issued, issue issued op = issued ++ [(n, secret)]) ∧
      ∀ n', (reg'.getNode n').isSome = (n' = n ∨ (reg.getNode n').isSome) ∧
        reg'.getNodeSecret n' = if n' = n then some secret else reg.getNodeSecret n') ∨
    (∀ issued, issue issued op = issued) ∧
      ∀ n', (reg'.getNode n').isSome = (reg.getNode n').isSome ∧
        reg'.getNodeSecret n' = reg.getNodeSecret n' := by
  have hnodes : ∀ (p : NodeRow → Bool) (f : NodeRow → NodeRow) hf,
      (∀ r, (f r).nodeSecret = r.nodeSecret) → ∀ n',
        ((reg.updateNodes p f hf).getNode n').isSome = (reg.getNode n').isSome ∧
          (reg.updateNodes p f hf).getNodeSecret n' = reg.getNodeSecret n' := by
    intro p f hf hsecret n'
    refine ⟨?_, getNodeSecret_updateNodes hf hsecret n'⟩
    rw [getNode_updateNodes, Option.isSome_map]
  cases op with
  | registerNode hex bytes hostname ipAddress cpuCount gpuModel ramTotal now =>
    obtain ⟨hnew, h⟩ := Option.ite_none_right_eq_some.1 hst
    obtain rfl := Option.some.inj h
    refine .inl ⟨_, _, generatedNodeId_ne_empty hex, tokenUrlsafe_ne_empty bytes,
      Option.isNone_iff_eq_none.1 hnew, fun _ => rfl, fun n' => ?_⟩
    refine ⟨?_, ?_⟩
    · rw [getNode_registerNode]
      split_ifs with hn <;> simp [hn]
    · show ((reg.registerNode ..).getNode n').bind NodeRow.nodeSecret = _
      rw [getNode_registerNode]
      split_ifs with hn
      · rfl
      · rfl
  | updateHeartbeat nodeId status metrics latencyMs now =>
    obtain rfl := Option.some.inj hst
    exact .inr ⟨fun _ => rfl, hnodes _ (fun r => { r with lastHeartbeat := now, status := status })
      (fun _ => rfl) fun _ => rfl⟩
  | markOfflineNodes now timeoutSeconds =>
    obtain rfl := Option.some.inj hst
    exact .inr ⟨fun _ => rfl, hnodes _ _ _ fun _ => rfl⟩
  | updateNodeState nodeId newState =>
    obtain rfl := Option.some.inj hst
    exact .inr ⟨fun _ => rfl, hnodes _ _ _ fun _ => rfl⟩
  | insertJob job now =>
    have hsame := (nodes_insertJob hst).1
    refine .inr ⟨fun _ => rfl, fun n' => ?_⟩
    rw [getNode, getNode, getNodeSecret, getNodeSecret, hsame]
    exact ⟨rfl, rfl⟩
  | updateJobStatus | updateJobRetries | initDb =>
    obtain rfl := Option.some.inj hst
    exact .inr ⟨fun _ => rfl, fun _ => ⟨rfl, rfl⟩⟩

/-- A step keeps the issued secrets and the stored ones together. -/
theorem issued_step : lts.Preserves fun s => s.1.Issued s.2 := by
  rintro ⟨reg, issued⟩ op ⟨reg', issued'⟩ ⟨hst, rfl : issued' = _⟩ h
  rcases secrets_step hst with ⟨n, secret, hn, hsecret, hnew, hissue, hget⟩ | ⟨hissue, hget⟩
  · show Issued reg' (issue issued op)
    rw [hissue]
    have hfresh : ∀ x ∈ issued, x.1 ≠ n := by
      rintro x hx rfl
      simpa [hnew] using h.known x hx
    refine ⟨fun n' secret' => ?_, fun x hx => ?_, fun x hx => ?_⟩
    · rw [(hget n').2, List.mem_append, List.mem_singleton, Prod.mk.injEq]
      split_ifs with heq
      · subst heq
        rw [Option.some.injEq]
        constructor
        · intro hs
          exact .inr ⟨rfl, hs.symm⟩
        · rintro (hmem | ⟨-, hs⟩)
          · exact absurd rfl (hfresh _ hmem)
          · exact hs.symm
      · rw [h.stored n' secret', or_iff_left fun hs => heq hs.1]
    · rw [(hget x.1).1]
      rcases List.mem_append.1 hx with hold | hx
      · exact .inr (h.known x hold)
      · obtain rfl := List.mem_singleton.1 hx
        exact .inl rfl
    · rcases List.mem_append.1 hx with hold | hx
      · exact h.nonempty x hold
      · obtain rfl := List.mem_singleton.1 hx
        exact ⟨hn, hsecret⟩
  · show Issued reg' (issue issued op)
    rw [hissue]
    refine ⟨fun n' secret' => ?_, fun x hx => ?_, h.nonempty⟩
    · rw [(hget n').2]
      exact h.stored n' secret'
    · rw [(hget x.1).1]
      exact h.known x hx

theorem issued_start {reg₀ : Registry} (h₀ : ∀ r ∈ reg₀.nodes.rows, r.nodeSecret = none) :
    reg₀.Issued [] := by
  refine ⟨fun n secret => ?_, fun x hx => absurd hx List.not_mem_nil,
    fun x hx => absurd hx List.not_mem_nil⟩
  rw [iff_false_intro List.not_mem_nil, iff_false]
  intro h
  obtain ⟨r, hr, hsecret⟩ := Option.bind_eq_some_iff.1 h
  rw [h₀ r (Table.mem_of_find? hr)] at hsecret
  cases hsecret

end Registry

theorem get_addNodeSecret {n secret : String} (hn : n ≠ "") (hsecret : secret ≠ "")
    (metadata : Metadata) :
    (addNodeSecret (some n) (some secret) metadata).get "node-id" = some n ∧
      (addNodeSecret (some n) (some secret) metadata).get "node-secret" = some secret := by
  have hid : nonempty (some n) = some n := nonempty_eq_some.2 ⟨rfl, hn⟩
  have hs : nonempty (some secret) = some secret := nonempty_eq_some.2 ⟨rfl, hsecret⟩
  constructor <;> simp [addNodeSecret, Metadata.get, hid, hs, List.lookup_cons]

namespace Registry

variable {reg : Registry}

theorem accepts_of_stored {n secret : String} (hn : n ≠ "") (hsecret : secret ≠ "")
    (hstored : reg.getNodeSecret n = some secret) : reg.Accepts n secret := by
  intro method metadata
  obtain ⟨hid, hs⟩ := get_addNodeSecret hn hsecret metadata
  by_cases hm : method ∈ nodeAuthRpcs
  · have hid' := nonempty_eq_some.2 ⟨hid, hn⟩
    have hs' := nonempty_eq_some.2 ⟨hs, hsecret⟩
    rw [interceptNodeSecret, if_pos hm]
    simp only [hid', hs', hstored, ne_eq, not_true_eq_false, if_false]
  · exact if_neg hm

theorem Issued.credentialsValid {issued : List (String × String)} (h : reg.Issued issued) :
    reg.CredentialsValid issued where
  accepted n secret hmem :=
    accepts_of_stored (h.nonempty _ hmem).1 (h.nonempty _ hmem).2 ((h.stored n secret).2 hmem)
  only details hm hok := by
    obtain ⟨n, secret, hid, hs, hstored⟩ := interceptNodeSecret_ok hm hok
    have hmem := (h.stored n secret).1 hstored
    exact ⟨n, secret, hid, hs, h.known _ hmem, hmem⟩

/-- **Credentials stay valid, and are the only ones.**  After any operations on a database whose
secrets were all issued by them, a call that the client has extended with issued credentials
passes, and a node call passes only with issued credentials as its last ones. -/
theorem credentials_valid {reg₀ reg : Registry} {issued : List (String × String)}
    (h₀ : ∀ r ∈ reg₀.nodes.rows, r.nodeSecret = none)
    (h : lts.Reachable (reg₀, []) (reg, issued)) : reg.CredentialsValid issued :=
  (h.keeps issued_step (issued_start h₀)).credentialsValid

/-- A registration, a missed heartbeat and a restart. -/
def credentialOps : List RegistryOp :=
  [.registerNode "00000000" (fun _ => 0) "h" "10.0.0.1" 4 "none" "8 GB" 0,
    .markOfflineNodes 60 defaultTimeoutSeconds, .initDb]

theorem credentials_valid_restarted :
    (LTS.last ((empty : Registry), []) (LTS.record (fun _ issued op => issue issued op) empty []
      (LTS.runOf exec empty credentialOps))).1.CredentialsValid
      [("node-00000000", "AAAAAAAAAAAAAAAAAAAAAA")] :=
  credentials_valid (show ∀ r ∈ empty.nodes.rows, r.nodeSecret = none from
      fun _ hr => absurd hr List.not_mem_nil)
    ((LTS.run_runOf exec empty credentialOps).record _ []).reachable

end Registry

end Dmlf
