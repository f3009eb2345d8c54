import DsProxy.Relay.Event

/-!
# Messages of the proxy

`message.rs`: what Request, Status and Transaction events carry. The JSON text is `serde_json`'s, so
reading and writing it are the fields of `Codec`.
-/

namespace DsProxy.Controller

open Relay

/-- `DephyDsProxyStatus`. -/
inductive Status
  | available
  | working
  deriving DecidableEq

/-- `DephyDsProxyStatusReason`. -/
inductive StatusReason
  | userRequest
  | adminRequest
  | userBehaviour
  | reset
  | lockFailed
  deriving DecidableEq

/-- `DephyDsProxyMessage`. -/
inductive Message
  | request (toStatus : Status) (reason : StatusReason) (initialRequest : EventId)
      (payload : String)
  | status (status : Status) (reason : StatusReason) (initialRequest : EventId) (payload : String)
  | transaction (user : String) (tokens : Int64)
  deriving DecidableEq

/-- `DephyDsProxyMessageRequestPayload`, and the status payload, which has the same fields. -/
structure Payload where
  user : String
  nonce : UInt64
  recoverInfo : String
  deriving DecidableEq

abbrev RequestPayload := Payload
abbrev StatusPayload := Payload

/-- `serde_json` at the types the controller reads and writes. -/
structure Codec where
  encodeMessage : Message → String
  decodeMessage : String → Option Message
  encodeStatusPayload : StatusPayload → String
  decodeRequestPayload : String → Option RequestPayload

end DsProxy.Controller
