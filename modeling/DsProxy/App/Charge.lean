import DsProxy.App.Digest
import DsProxy.Controller.Handler
import DsProxy.Controller.SerdeJson

/-!
# The request of the web app

`publishToRelay` of the web app writes the request for a charge, under a key of its own, in other
words than the controller would: the fields of the payload stand in another order. The controller
reads it all the same, with the recover info as `handleCharge` made it.
-/

namespace DsProxy.App

open BalancePayment Relay

/-- `MACHINE_PUBKEY`. -/
def machinePubkey : String := "d041ea9854f2117b82452457c4e6d6593a96524027cd4032d2f40046deb78d93"

def sTag : String := "dephy-dsproxy-controller"

def noRequest : String := "0000000000000000000000000000000000000000000000000000000000000000"

def payloadJson (nonce : ℤ) (recoverInfo user : String) : Json := Json.object [
  ("recover_info", .str recoverInfo), ("nonce", .num nonce), ("user", .str user)]

def contentData (payload : String) : Json := Json.object [("Request", Json.object [
  ("to_status", .str "Working"), ("reason", .str "UserRequest"),
  ("initial_request", .str noRequest), ("payload", .str payload)])]

/-- The event that `publishToRelay` signs with the page's own key. -/
def publishToRelay (pubkey : PublicKey) (nonce : ℤ) (recoverInfo user : String) (stamp : Stamp) :
    Event :=
  .posted pubkey sTag machinePubkey (contentData (payloadJson nonce recoverInfo user).print).print
    stamp

/-- `toString` of a public key. -/
def publicKeyText (key : Key) : String := String.ofList (Base58.encodeTrimmed key.toList)

variable {C : Crypto} {signMessage : List UInt8 → Signature} {p : Vector UInt8 64} {n : UInt64}
  {deadline : ℕ}

theorem toInt_ofNat_of_lt (h : deadline < 2 ^ 53) :
    (Int64.ofNat deadline).toInt = (deadline : ℤ) :=
  Int64.toInt_ofNat_of_lt (by omega)

end DsProxy.App
