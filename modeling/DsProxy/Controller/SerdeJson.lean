import DsProxy.Controller.Message
import DsProxy.Lib.Serde

/-!
# The JSON of the controller

What the derived `Serialize` and `Deserialize` implementations of `message.rs` make of JSON: an enum
is an object with its variant as the only name, a unit variant its name, an event id its hex digits.
A struct takes each of its fields exactly once and ignores other names. Decoding undoes encoding, at
every type the controller writes.
-/

namespace DsProxy.Controller

open Relay Serde

namespace SerdeJson

def Status.name : Status → String
  | .available => "Available"
  | .working => "Working"

def Status.ofName : String → Option Status
  | "Available" => some .available
  | "Working" => some .working
  | _ => none

def StatusReason.name : StatusReason → String
  | .userRequest => "UserRequest"
  | .adminRequest => "AdminRequest"
  | .userBehaviour => "UserBehaviour"
  | .reset => "Reset"
  | .lockFailed => "LockFailed"

def StatusReason.ofName : String → Option StatusReason
  | "UserRequest" => some .userRequest
  | "AdminRequest" => some .adminRequest
  | "UserBehaviour" => some .userBehaviour
  | "Reset" => some .reset
  | "LockFailed" => some .lockFailed
  | _ => none

def eventIdField (name : String) (v : Json) : Option EventId := do
  Hex.toVector 32 (← textField name v)

def ofMessage : Message → Json
  | .request toStatus reason initialRequest payload => Json.object [("Request", Json.object [
      ("to_status", .str (Status.name toStatus)), ("reason", .str (StatusReason.name reason)),
      ("initial_request", .str (Hex.ofVector initialRequest)), ("payload", .str payload)])]
  | .status status reason initialRequest payload => Json.object [("Status", Json.object [
      ("status", .str (Status.name status)), ("reason", .str (StatusReason.name reason)),
      ("initial_request", .str (Hex.ofVector initialRequest)), ("payload", .str payload)])]
  | .transaction user tokens => Json.object [("Transaction", Json.object [
      ("user", .str user), ("tokens", .num tokens.toInt)])]

def toMessage : Json → Option Message
  | .obj (.cons "Request" body .nil) => do
    let toStatus ← Status.ofName (← textField "to_status" body)
    let reason ← StatusReason.ofName (← textField "reason" body)
    let initialRequest ← eventIdField "initial_request" body
    return .request toStatus reason initialRequest (← textField "payload" body)
  | .obj (.cons "Status" body .nil) => do
    let status ← Status.ofName (← textField "status" body)
    let reason ← StatusReason.ofName (← textField "reason" body)
    let initialRequest ← eventIdField "initial_request" body
    return .status status reason initialRequest (← textField "payload" body)
  | .obj (.cons "Transaction" body .nil) => do
    let user ← textField "user" body
    return .transaction user (← int64Field "tokens" body)
  | _ => none

def ofPayload (payload : Payload) : Json := Json.object [
  ("user", .str payload.user), ("nonce", .num payload.nonce.toNat),
  ("recover_info", .str payload.recoverInfo)]

def toPayload (v : Json) : Option Payload := do
  let user ← textField "user" v
  let nonce ← uint64Field "nonce" v
  return ⟨user, nonce, ← textField "recover_info" v⟩

/-- Reads what the services write: the texts that `serde_json` takes besides (white space, structs
as sequences) are not read. -/
def codec : Codec where
  encodeMessage message := (ofMessage message).print
  decodeMessage text := (Json.parse text).bind toMessage
  encodeStatusPayload payload := (ofPayload payload).print
  decodeRequestPayload text := (Json.parse text).bind toPayload

theorem codec_encodeMessage (message : Message) :
    codec.encodeMessage message = (ofMessage message).print := rfl

theorem codec_decodeMessage (text : String) :
    codec.decodeMessage text = (Json.parse text).bind toMessage := rfl

theorem codec_encodeStatusPayload (payload : Payload) :
    codec.encodeStatusPayload payload = (ofPayload payload).print := rfl

theorem codec_decodeRequestPayload (text : String) :
    codec.decodeRequestPayload text = (Json.parse text).bind toPayload := rfl

/-! ### Decoding what was encoded -/

theorem ofName_name (status : Status) : Status.ofName (Status.name status) = some status := by
  cases status <;> rfl

theorem ofName_name' (reason : StatusReason) :
    StatusReason.ofName (StatusReason.name reason) = some reason := by
  cases reason <;> rfl

theorem toMessage_ofMessage (message : Message) : toMessage (ofMessage message) = some message := by
  cases message with
  | request toStatus reason initialRequest payload =>
      simp [ofMessage, toMessage, Json.object, Json.Members.ofList, textField, eventIdField, field,
        Json.values, Json.Members.values, Json.text?, ofName_name, ofName_name',
        Hex.toVector_ofVector]
  | status status reason initialRequest payload =>
      simp [ofMessage, toMessage, Json.object, Json.Members.ofList, textField, eventIdField, field,
        Json.values, Json.Members.values, Json.text?, ofName_name, ofName_name',
        Hex.toVector_ofVector]
  | transaction user tokens =>
      simp [ofMessage, toMessage, Json.object, Json.Members.ofList, textField, int64Field, field,
        Json.values, Json.Members.values, Json.text?, Json.int?, toInt64_toInt]

theorem decodeMessage_encodeMessage (message : Message) :
    codec.decodeMessage (codec.encodeMessage message) = some message := by
  rw [codec_decodeMessage, codec_encodeMessage, Json.parse_print, Option.bind_some,
    toMessage_ofMessage]

theorem toPayload_ofPayload (payload : Payload) : toPayload (ofPayload payload) = some payload := by
  have hnonce := toUInt64_toNat payload.nonce
  -- the kernel must not compare the two sides by evaluating the range check
  simp -implicitDefEqProofs only [ofPayload, toPayload, Json.object, Json.Members.ofList, textField,
    uint64Field, field, Json.values, Json.Members.values, Json.text?, Json.int?, String.reduceEq,
    if_true, if_false, Option.bind_eq_bind, Option.bind_some, hnonce]
  rfl

/-- A status payload is read back as the request payload with the same fields. -/
theorem decodePayload_encodePayload (payload : Payload) :
    codec.decodeRequestPayload (codec.encodeStatusPayload payload) = some payload := by
  rw [codec_decodeRequestPayload, codec_encodeStatusPayload, Json.parse_print, Option.bind_some,
    toPayload_ofPayload]

end SerdeJson

end DsProxy.Controller
