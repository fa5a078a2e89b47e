import Dmlf.Registry.Basic
import Dmlf.Text.Python

/-!
# Authentication

The interceptors of `dmlf/communication/auth.py`.  A server interceptor sees the method and the
metadata of a call, never its request; it lets the call pass or aborts it with `UNAUTHENTICATED`
and a message.

* `credentials_of_ok` : a node call that passes names a registered node and has its secret.
-/

namespace Dmlf

/-- The metadata of a call, in the order it was sent. -/
abbrev Metadata := List (String × String)

/-- `dict(metadata).get(key)`: of several entries with one key the last one counts. -/
def Metadata.get (metadata : Metadata) (key : String) : Option String :=
  metadata.reverse.lookup key

/-- What a server interceptor sees of a call. -/
structure HandlerCallDetails where
  method : String
  invocationMetadata : Metadata

/-- The methods that need the credentials of a node. -/
def nodeAuthRpcs : List String :=
  ["/cml.ClusterManager/SendHeartbeat", "/cml.ClusterManager/ListenForCommands",
    "/cml.ClusterManager/ReportJobStatus", "/cml.ClusterManager/StreamLogs"]

/-- `TokenServerInterceptor.intercept_service`. -/
def interceptToken (token : String) (details : HandlerCallDetails) : Except String Unit :=
  let authorization := (details.invocationMetadata.get "authorization").getD ""
  if strip (removePrefix authorization "Bearer ") ≠ token then .error "invalid token"
  else .ok ()

/-- A value that is there and not empty. -/
def nonempty (value : Option String) : Option String := value.filter fun text => text ≠ ""

/-- `NodeSecretServerInterceptor.intercept_service`. -/
def interceptNodeSecret (reg : Registry) (details : HandlerCallDetails) : Except String Unit :=
  if details.method ∈ nodeAuthRpcs then
    match nonempty (details.invocationMetadata.get "node-id"),
      nonempty (details.invocationMetadata.get "node-secret") with
    | some nodeId, some nodeSecret =>
      if reg.getNodeSecret nodeId ≠ some nodeSecret then .error "invalid node secret" else .ok ()
    | _, _ => .error "missing node credentials"
  else .ok ()

/-- The interceptors of `create_server_interceptors`, one after the other. -/
def interceptService (token : String) (reg : Registry) (details : HandlerCallDetails) :
    Except String Unit := do
  interceptToken token details
  interceptNodeSecret reg details

/-- `TokenClientInterceptor._add_auth`. -/
def addAuth (token : String) (metadata : Metadata) : Metadata :=
  metadata ++ [("authorization", "Bearer " ++ token)]

/-- `NodeSecretClientInterceptor._add_node_secret`, with the credentials it was given. -/
def addNodeSecret (nodeId nodeSecret : Option String) (metadata : Metadata) : Metadata :=
  let md := metadata ++ ((nonempty nodeId).map fun id => ("node-id", id)).toList
  md ++ ((nonempty nodeSecret).map fun secret => ("node-secret", secret)).toList

theorem interceptService_ok {token : String} {reg : Registry} {details : HandlerCallDetails} :
    interceptService token reg details = .ok () ↔
      interceptToken token details = .ok () ∧ interceptNodeSecret reg details = .ok () := by
  unfold interceptService
  cases h : interceptToken token details with
  | error e => simp [bind, Except.bind]
  | ok _ => simp [bind, Except.bind]

theorem nonempty_eq_some {value : Option String} {text : String} :
    nonempty value = some text ↔ value = some text ∧ text ≠ "" := by
  simp only [nonempty, Option.filter_eq_some_iff, decide_eq_true_eq]

theorem interceptNodeSecret_ok {reg : Registry} {details : HandlerCallDetails}
    (hm : details.method ∈ nodeAuthRpcs) (h : interceptNodeSecret reg details = .ok ()) :
    ∃ nodeId nodeSecret, details.invocationMetadata.get "node-id" = some nodeId ∧
      details.invocationMetadata.get "node-secret" = some nodeSecret ∧
      reg.getNodeSecret nodeId = some nodeSecret := by
  rw [interceptNodeSecret, if_pos hm] at h
  split at h
  · rename_i nodeId nodeSecret hid hsecret
    split_ifs at h with hstored
    exact ⟨nodeId, nodeSecret, (nonempty_eq_some.1 hid).1, (nonempty_eq_some.1 hsecret).1,
      not_not.1 hstored⟩
  · cases h

/-- **A node call that passes both interceptors** has the id and the secret of a node. -/
theorem credentials_of_ok {token : String} {reg : Registry} {details : HandlerCallDetails}
    (hm : details.method ∈ nodeAuthRpcs) (h : interceptService token reg details = .ok ())
    {a : String} (ha : details.invocationMetadata.get "node-id" = some a) :
    ∃ r, reg.getNode a = some r ∧
      r.nodeSecret = details.invocationMetadata.get "node-secret" := by
  obtain ⟨nodeId, nodeSecret, hid, hsecret, hstored⟩ :=
    interceptNodeSecret_ok hm (interceptService_ok.1 h).2
  obtain rfl := Option.some.inj (hid.symm.trans ha)
  obtain ⟨r, hr, hrs⟩ := Option.bind_eq_some_iff.1 hstored
  exact ⟨r, hr, hrs.trans hsecret.symm⟩

end Dmlf
