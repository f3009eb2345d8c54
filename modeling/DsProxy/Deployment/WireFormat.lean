import DsProxy.Backend.GoJson
import DsProxy.Controller.SerdeJson

/-!
# The message on the wire

`DephyDsProxyMessage` of `message.rs` against the one of `nostr_client.go`. The backend reads all
that the controller writes. What the backend writes of a request or a status neither side can read:
Go decodes the status and the reason from their names, but encodes the string and the number behind
them.
-/

namespace DsProxy.Deployment

open Backend

/-! ### The corresponding values -/

def goStatus : Controller.Status → String
  | .available => statusAvailable
  | .working => statusWorking

def goReason : Controller.StatusReason → UInt8
  | .userRequest => reasonUserRequest
  | .adminRequest => reasonAdminRequest
  | .userBehaviour => reasonUserBehaviour
  | .reset => reasonReset
  | .lockFailed => reasonLockFailed

/-- The payload of the variant is set, the two others are nil. -/
def goMessage : Controller.Message → DephyDsProxyMessage
  | .request toStatus reason initialRequest payload =>
    ⟨some ⟨goStatus toStatus, goReason reason, Hex.ofVector initialRequest, payload⟩, none, none⟩
  | .status status reason initialRequest payload =>
    ⟨none, some ⟨goStatus status, goReason reason, Hex.ofVector initialRequest, payload⟩, none⟩
  | .transaction user tokens => ⟨none, none, some ⟨user, tokens⟩⟩

/-- A text of either side is read as the same message by the other, and the backend's also by
itself. -/
structure WireAgrees (message : Controller.Message) : Prop where
  to_go : GoJson.decode (Controller.SerdeJson.codec.encodeMessage message) =
    some (goMessage message)
  to_rust : Controller.SerdeJson.codec.decodeMessage (GoJson.encode (goMessage message)) =
    some message
  to_itself : GoJson.decode (GoJson.encode (goMessage message)) = some (goMessage message)

/-! ### From the controller to the backend -/

theorem unmarshalStatus_name (status : Controller.Status) :
    GoJson.unmarshalStatus (.str (Controller.SerdeJson.Status.name status)) =
      some (goStatus status) := by
  cases status <;> rfl

theorem unmarshalReason_name (reason : Controller.StatusReason) :
    GoJson.unmarshalReason (.str (Controller.SerdeJson.StatusReason.name reason)) =
      some (goReason reason) := by
  cases reason <;> rfl

theorem toMessage_ofMessage (message : Controller.Message) :
    GoJson.toMessage (Controller.SerdeJson.ofMessage message) = some (goMessage message) := by
  cases message with
  | request toStatus reason initialRequest payload =>
      simp [Controller.SerdeJson.ofMessage, GoJson.toMessage, GoJson.pointerField,
        GoJson.toRequest, GoJson.customField, GoJson.textField, GoJson.field, Json.object,
        Json.Members.ofList, Json.values, Json.Members.values, Json.text?, unmarshalStatus_name,
        unmarshalReason_name, goMessage]
  | status status reason initialRequest payload =>
      simp [Controller.SerdeJson.ofMessage, GoJson.toMessage, GoJson.pointerField,
        GoJson.toStatus, GoJson.customField, GoJson.textField, GoJson.field, Json.object,
        Json.Members.ofList, Json.values, Json.Members.values, Json.text?, unmarshalStatus_name,
        unmarshalReason_name, goMessage]
  | transaction user tokens => exact GoJson.toMessage_transaction user tokens

theorem decode_encodeMessage (message : Controller.Message) :
    GoJson.decode (Controller.SerdeJson.codec.encodeMessage message) =
      some (goMessage message) := by
  rw [Controller.SerdeJson.codec_encodeMessage, GoJson.decode_print, toMessage_ofMessage]

theorem unmarshal_encodeMessage (message : Controller.Message) :
    GoJson.unmarshal (Controller.SerdeJson.codec.encodeMessage message) =
      some ⟨(goMessage message).transaction⟩ := by
  rw [GoJson.unmarshal, decode_encodeMessage, Option.map_some]

/-! ### From the backend -/

theorem decodeMessage_encode (message : DephyDsProxyMessage) :
    Controller.SerdeJson.codec.decodeMessage (GoJson.encode message) =
      Controller.SerdeJson.toMessage (GoJson.ofMessage message) := by
  rw [Controller.SerdeJson.codec_decodeMessage, GoJson.encode, GoJson.parse_print,
    Option.bind_some]

/-- Neither side reads what the backend would write of a request or a status. -/
theorem unread {message : Controller.Message}
    (h : ∀ user tokens, message ≠ .transaction user tokens) :
    Controller.SerdeJson.codec.decodeMessage (GoJson.encode (goMessage message)) = none ∧
      GoJson.decode (GoJson.encode (goMessage message)) = none := by
  rw [decodeMessage_encode, GoJson.decode_encode_eq]
  -- the reason is a number, and both readers look for a name
  cases message with
  | request toStatus reason initialRequest payload =>
      constructor
      · simp [goMessage, GoJson.ofMessage, GoJson.ofRequest, Controller.SerdeJson.toMessage,
          Json.object, Json.Members.ofList, Serde.textField, Serde.field, Json.values,
          Json.Members.values, Json.text?]
      · simp [goMessage, GoJson.ofMessage, GoJson.ofRequest, GoJson.toMessage, GoJson.toRequest,
          GoJson.pointerField, GoJson.customField, GoJson.unmarshalReason, GoJson.field,
          Json.object, Json.Members.ofList, Json.values, Json.Members.values, Json.text?]
  | status status reason initialRequest payload =>
      constructor
      · simp [goMessage, GoJson.ofMessage, GoJson.ofStatus, Controller.SerdeJson.toMessage,
          Json.object, Json.Members.ofList, Serde.textField, Serde.field, Json.values,
          Json.Members.values, Json.text?]
      · simp [goMessage, GoJson.ofMessage, GoJson.ofStatus, GoJson.toMessage, GoJson.toStatus,
          GoJson.pointerField, GoJson.customField, GoJson.unmarshalReason, GoJson.field,
          Json.object, Json.Members.ofList, Json.values, Json.Members.values, Json.text?]
  | transaction user tokens => exact absurd rfl (h user tokens)

theorem ofMessage_goMessage (user : String) (tokens : Int64) :
    GoJson.ofMessage (goMessage (.transaction user tokens)) =
      Controller.SerdeJson.ofMessage (.transaction user tokens) := rfl

theorem agrees_transaction (user : String) (tokens : Int64) :
    WireAgrees (.transaction user tokens) where
  to_go := decode_encodeMessage _
  to_rust := by
    rw [decodeMessage_encode, ofMessage_goMessage, Controller.SerdeJson.toMessage_ofMessage]
  to_itself := GoJson.decode_encode_transaction ⟨user, tokens⟩

/-- The two sides agree on the messages that carry a transaction, and on no other. -/
theorem wire_agrees_iff (message : Controller.Message) :
    WireAgrees message ↔ ∃ user tokens, message = .transaction user tokens := by
  constructor
  · intro hagrees
    by_contra hother
    push Not at hother
    have hread := hagrees.to_rust
    rw [(unread hother).1] at hread
    cases hread
  · intro htransaction
    obtain ⟨user, tokens, rfl⟩ := htransaction
    exact agrees_transaction user tokens

/-- A status that makes the machine available: Go's text of it is read by neither side. -/
theorem status_unread : ¬ WireAgrees
    (.status .available .reset (Vector.replicate 32 0) "") := by
  intro hagrees
  have hread := hagrees.to_itself
  rw [(unread fun user tokens h => Controller.Message.noConfusion h).2] at hread
  cases hread

end DsProxy.Deployment
