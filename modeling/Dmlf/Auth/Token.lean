import Dmlf.Auth.Interceptors

/-!
# The shared token

The client puts `Bearer ` in front of the token; the server takes one `Bearer ` off, if there is
one, and the blanks around the rest, and compares it with the token.

* `Bears` : the values of the header that the server takes for the token.
* `interceptToken_addAuth_iff` : what the client sends passes exactly if the token has no blanks
  around it.
* `interceptToken_iff_bears` : a call passes exactly if its last authorization bears the token.
-/

namespace Dmlf

variable {token value method : String} {metadata : Metadata}

/-- The value has the token in it, between blanks, with one `Bearer ` in front that may also be
missing. -/
def Bears (token value : String) : Prop :=
  ∃ w₁ w₂, Blank w₁ ∧ Blank w₂ ∧
    (value = "Bearer " ++ (w₁ ++ token ++ w₂) ∨
      (¬ "Bearer ".toList <+: value.toList ∧ value = w₁ ++ token ++ w₂))

theorem interceptToken_ok_iff {details : HandlerCallDetails} :
    interceptToken token details = .ok () ↔
      strip (removePrefix ((details.invocationMetadata.get "authorization").getD "") "Bearer ") =
        token := by
  rw [interceptToken]
  split_ifs with h
  · exact ⟨fun h' => absurd h' (by simp), fun h' => absurd h' h⟩
  · exact ⟨fun _ => not_not.1 h, fun _ => rfl⟩

theorem interceptToken_error_iff {details : HandlerCallDetails} :
    interceptToken token details = .error "invalid token" ↔
      interceptToken token details ≠ .ok () := by
  rw [Ne, interceptToken_ok_iff, interceptToken]
  split_ifs with h
  · exact ⟨fun _ => h, fun _ => rfl⟩
  · exact ⟨fun h' => absurd h' (by simp), fun h' => absurd (not_not.1 h) h'⟩

theorem get_addAuth (token : String) (metadata : Metadata) :
    (addAuth token metadata).get "authorization" = some ("Bearer " ++ token) := by
  rw [Metadata.get, addAuth, List.reverse_append]
  rfl

theorem interceptToken_addAuth_iff :
    interceptToken token ⟨method, addAuth token metadata⟩ = .ok () ↔ strip token = token := by
  rw [interceptToken_ok_iff, get_addAuth, Option.getD_some, removePrefix_append]

theorem strip_removePrefix_iff (h : strip token = token) :
    strip (removePrefix value "Bearer ") = token ↔ Bears token value := by
  by_cases hpre : "Bearer ".toList <+: value.toList
  · obtain ⟨rest, rfl⟩ := prefix_iff.1 hpre
    rw [removePrefix_append, strip_eq_iff h]
    constructor
    · rintro ⟨w₁, w₂, h₁, h₂, heq⟩
      exact ⟨w₁, w₂, h₁, h₂, .inl (by rw [heq])⟩
    · rintro ⟨w₁, w₂, h₁, h₂, heq | ⟨hnot, -⟩⟩
      · exact ⟨w₁, w₂, h₁, h₂, by simpa using heq⟩
      · exact absurd hpre hnot
  · rw [removePrefix_of_not hpre, strip_eq_iff h]
    constructor
    · rintro ⟨w₁, w₂, h₁, h₂, heq⟩
      exact ⟨w₁, w₂, h₁, h₂, .inr ⟨hpre, heq⟩⟩
    · rintro ⟨w₁, w₂, h₁, h₂, rfl | ⟨-, heq⟩⟩
      · exact absurd (prefix_iff.2 ⟨_, rfl⟩) hpre
      · exact ⟨w₁, w₂, h₁, h₂, heq⟩

/-- **The shared-token check**, for a token that is not empty and has no blanks around it. -/
theorem interceptToken_iff_bears (hne : token ≠ "") (h : strip token = token) (method : String)
    (metadata : Metadata) :
    interceptToken token ⟨method, addAuth token metadata⟩ = .ok () ∧
      (metadata.get "authorization" = none →
        interceptToken token ⟨method, metadata⟩ = .error "invalid token") ∧
      ∀ value, metadata.get "authorization" = some value →
        (interceptToken token ⟨method, metadata⟩ = .ok () ↔ Bears token value) ∧
        (¬ Bears token value →
          interceptToken token ⟨method, metadata⟩ = .error "invalid token") := by
  refine ⟨interceptToken_addAuth_iff.2 h, fun hnone => ?_, fun value hvalue => ?_⟩
  · rw [interceptToken_error_iff, Ne, interceptToken_ok_iff, hnone]
    exact fun heq => hne heq.symm
  · have hiff : interceptToken token ⟨method, metadata⟩ = .ok () ↔ Bears token value := by
      rw [interceptToken_ok_iff, hvalue, Option.getD_some, strip_removePrefix_iff h]
    exact ⟨hiff, fun hnot => interceptToken_error_iff.2 fun hok => hnot (hiff.1 hok)⟩

/-- The check of the default token, on a call with no header and on one with another token. -/
theorem interceptToken_iff_bears_default :
    interceptToken "CHANGE_ME_32_BYTE_HEX" ⟨"/cml.ClusterManager/SubmitJob",
        addAuth "CHANGE_ME_32_BYTE_HEX" [("authorization", "Bearer other")]⟩ = .ok () ∧
      interceptToken "CHANGE_ME_32_BYTE_HEX" ⟨"/cml.ClusterManager/SubmitJob", []⟩ =
        .error "invalid token" :=
  ⟨(interceptToken_iff_bears (by decide) (by decide) _ _).1,
    (interceptToken_iff_bears (by decide) (by decide) _ _).2.1 rfl⟩

/-- The value need not be `Bearer ` followed by the token; a token with a blank in front of it
does not pass at all; and the empty one passes without a header. -/
theorem interceptToken_lenient :
    interceptToken "secret" ⟨"/cml.ClusterManager/SubmitJob", [("authorization", "secret")]⟩ =
        .ok () ∧
      interceptToken " secret" ⟨"/cml.ClusterManager/SubmitJob", addAuth " secret" []⟩ =
        .error "invalid token" ∧
      interceptToken "" ⟨"/cml.ClusterManager/SubmitJob", []⟩ = .ok () := by
  decide

end Dmlf
