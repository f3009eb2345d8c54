import DsProxy.BalancePayment.Program
import DsProxy.Lib.Serde

/-!
# The SDK's `pay`

`pay` of the SDK's `lib.rs`: parse the arguments, read the treasury, build and sign the instruction,
send it and wait for its confirmation. The read may be old by the time the instruction runs, and the
confirmation of an instruction that ran may be lost.
-/

namespace DsProxy.BalancePayment

/-- The bot's keypair and the two readers of other crates. -/
structure Sdk where
  bot : Key
  parsePubkey : String → Option Key
  parseRecoverInfo : String → Option ED25519RecoverInfo

/-- What the chain and the RPC node contribute to one call of `pay`. -/
structure Submission where
  treasury : Pubkey
  unixTimestamp : Int64
  confirmed : Bool

namespace Sdk

def payInstruction (sdk : Sdk) (treasury : Pubkey) (user : String) (amountToTransfer : UInt64)
    (recoverInfo : String) : Option Instruction := do
  let user ← sdk.parsePubkey user
  let recoverInfo ← sdk.parseRecoverInfo recoverInfo
  return .pay ⟨globalAddress, userAddress user, user, treasury, vaultAddress user, sdk.bot,
    sdk.bot⟩ recoverInfo amountToTransfer

/-- The operation on chain, if the arguments parse. -/
def payOp (sdk : Sdk) (submission : Submission) (user : String) (amountToTransfer : UInt64)
    (recoverInfo : String) : Option Op :=
  (sdk.payInstruction submission.treasury user amountToTransfer recoverInfo).map
    (.invoke ⟨[sdk.bot], submission.unixTimestamp⟩)

/-- Whether `pay` returns `Ok`, and the accounts it leaves. -/
def pay (sdk : Sdk) (R : Runtime) (submission : Submission) (user : String)
    (amountToTransfer : UInt64) (recoverInfo : String) (s : Accounts) : Bool × Accounts :=
  match sdk.payOp submission user amountToTransfer recoverInfo with
  | none => (false, s)
  | some op =>
    match (system R).step s op with
    | none => (false, s)
    | some s' => (submission.confirmed, s')

theorem pay_ok {sdk : Sdk} {R : Runtime} {submission : Submission} {user recoverInfo : String}
    {amountToTransfer : UInt64} {s s' : Accounts}
    (h : sdk.pay R submission user amountToTransfer recoverInfo s = (true, s')) :
    ∃ op key ctx accounts info, sdk.payOp submission user amountToTransfer recoverInfo = some op ∧
      sdk.parsePubkey user = some key ∧ op = .invoke ctx (.pay accounts info amountToTransfer) ∧
      accounts.user = key ∧ (system R).step s op = some s' := by
  unfold pay at h
  cases hop : sdk.payOp submission user amountToTransfer recoverInfo with
  | none =>
      rw [hop] at h
      cases h
  | some op =>
      rw [hop] at h
      dsimp only at h
      cases hstep : (system R).step s op with
      | none =>
          rw [hstep] at h
          cases h
      | some after =>
          rw [hstep] at h
          obtain ⟨-, rfl⟩ := Prod.mk.inj h
          simp only [payOp, payInstruction, Option.bind_eq_bind, Option.map_eq_some_iff,
            Option.bind_eq_some_iff] at hop
          obtain ⟨ix, ⟨key, hkey, info, -, hix⟩, rfl⟩ := hop
          cases hix
          exact ⟨_, key, _, _, info, rfl, hkey, rfl, rfl, hstep⟩

/-! ### The recover info as text -/

def ofRecoverInfo (info : ED25519RecoverInfo) : Json := Json.object [
  ("signature", Serde.ofBytes info.signature), ("payload", Serde.ofBytes info.payload),
  ("deadline", .num info.deadline.toInt)]

def toRecoverInfo (v : Json) : Option ED25519RecoverInfo := do
  let signature ← Serde.toBytes 64 (← Serde.field "signature" v)
  let payload ← Serde.toBytes 64 (← Serde.field "payload" v)
  return ⟨signature, payload, ← Serde.int64Field "deadline" v⟩

theorem toRecoverInfo_ofRecoverInfo (info : ED25519RecoverInfo) :
    toRecoverInfo (ofRecoverInfo info) = some info := by
  simp [toRecoverInfo, ofRecoverInfo, Json.object, Json.Members.ofList, Serde.int64Field,
    Serde.field, Json.values, Json.Members.values, Json.int?, Serde.toBytes_ofBytes,
    Serde.toInt64_toInt]

/-- The text of a key. -/
def keyText (key : Key) : String := String.ofList (Base58.encode key.toList)

def recoverInfoText (info : ED25519RecoverInfo) : String := (ofRecoverInfo info).print

/-- The SDK with its two readers. The second reads what the app and the CLI write; the texts that
`serde_json` takes besides (white space, structs as sequences) are not read. -/
def serde (bot : Key) : Sdk where
  bot := bot
  parsePubkey text := (Base58.decode text.toList).bind (Bytes.ofList 32)
  parseRecoverInfo text := (Json.parse text).bind toRecoverInfo

theorem parsePubkey_keyText (bot key : Key) :
    (serde bot).parsePubkey (keyText key) = some key := by
  show (Base58.decode (keyText key).toList).bind (Bytes.ofList 32) = some key
  rw [keyText, String.toList_ofList, Base58.decode_encode, Option.bind_some, Bytes.ofList_toList]

theorem parseRecoverInfo_recoverInfoText (bot : Key) (info : ED25519RecoverInfo) :
    (serde bot).parseRecoverInfo (recoverInfoText info) = some info := by
  show (Json.parse (recoverInfoText info)).bind toRecoverInfo = some info
  rw [recoverInfoText, Json.parse_print, Option.bind_some, toRecoverInfo_ofRecoverInfo]

end Sdk

end DsProxy.BalancePayment
