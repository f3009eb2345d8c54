import DsProxy.Backend.GoJson
import DsProxy.Backend.Message
import DsProxy.BalancePayment.Digest
import DsProxy.Lib.Base64

/-!
# Login

`verifySignature` and `Login` of `logic/user.go`. Go's `ed25519.Verify` is written over the same
curve calls as the program's check: it wants a canonical scalar and compares the recomputed point
with the bytes of the signature.
-/

namespace DsProxy.Backend

open BalancePayment

/-- The bytes of a Go string. -/
def goBytes (text : String) : List UInt8 := text.toList.flatMap String.utf8EncodeChar

/-- `ed25519.Verify` for a key of 32 bytes. -/
def ed25519Verify (C : Crypto) (publicKey : Key) (message signature : List UInt8) : Bool :=
  if h : signature.length = 64 then
    let sig : Signature := ⟨signature.toArray, by simpa using h⟩
    if basepointOrder ≤ Bytes.ofLE (signatureS sig).toList then false
    else if C.validateEdwards publicKey = false then false
    else
      let k := scalarBytes (challenge C (signatureR sig) publicKey message)
      let r := do
        let sB ← C.multiplyEdwards (signatureS sig) edwardsBasePoint
        let kA ← C.multiplyEdwards k publicKey
        C.subtractEdwards sB kA
      decide (r = some (signatureR sig))
  else false

/-- A 32-byte key from its base58 text. -/
def decodePublicKey (publicKey : String) : Option Key :=
  (Base58.decode publicKey.toList).bind (Bytes.ofList 32)

/-- `verifySignature`; an argument that does not decode is an error, which `Login` treats alike. -/
def verifySignature (C : Crypto) (publicKey message signature : String) : Option Bool := do
  let key ← decodePublicKey publicKey
  let sigBytes ← Base64.decode signature.toList
  return ed25519Verify C key (goBytes message) sigBytes

/-- The rest of `Login`, once the signature is accepted. -/
def loginVerified (cfg : Config) (userPubkey : String) :
    Async (Except Failure (User × String)) := do
  let user ← match ← getUserByPublicKey userPubkey with
    | .error .recordNotFound => createUser userPubkey
    | result => pure result
  match user with
  | .error e => return .error (.db e)
  | .ok user =>
    match cfg.signJWT userPubkey with
    | none => return .error (.text "failed to sign the token")
    | some token => attempt (saveUser user) fun _ => return .ok (user, token)

def login (cfg : Config) (userPubkey message signature : String) :
    Async (Except Failure (User × String)) :=
  if verifySignature cfg.crypto userPubkey message signature = some true then
    loginVerified cfg userPubkey
  else return .error (.text "invalid signature")

theorem login_forall {P : Call → Prop} (cfg : Config) (userPubkey message signature : String)
    (hget : P (.getUserByPublicKey userPubkey)) (hcreate : P (.createUser userPubkey))
    (hsave : ∀ user, P (.saveUser user)) : (login cfg userPubkey message signature).Forall P := by
  unfold login
  split_ifs
  · refine Program.Forall.bind ((Program.forall_perform _).mpr hget) fun found => ?_
    extract_lets rest
    have hrest : ∀ result, (rest result).Forall P := by
      intro result
      cases result with
      | error e => exact Program.forall_pure _
      | ok user =>
          simp only [rest]
          cases cfg.signJWT userPubkey with
          | none => exact Program.forall_pure _
          | some token =>
              exact forall_attempt ((Program.forall_perform _).mpr (hsave user)) fun _ =>
                Program.forall_pure _
    split
    · exact Program.Forall.bind ((Program.forall_perform _).mpr hcreate) hrest
    · exact hrest _
  · exact Program.forall_pure _

/-! ### The texts of a key and a signature -/

def signatureText (signature : Signature) : String :=
  String.ofList (Base64.encode signature.toList)

theorem decodePublicKey_keyText (key : Key) : decodePublicKey (Sdk.keyText key) = some key :=
  Sdk.parsePubkey_keyText key key

theorem decode_signatureText (signature : Signature) :
    Base64.decode (signatureText signature).toList = some signature.toList := by
  rw [signatureText, String.toList_ofList, Base64.decode_encode]

/-- The signed authorisation as the text a client can send. -/
def digestText (C : Crypto) (payload : Vector UInt8 64) (nonce : UInt64) (deadline : Int64) :
    String :=
  String.ofList ("DePHY vending machine/Example:\n".toList ++
    Base58.encode (C.keccak (ED25519RecoverInfo.message payload nonce deadline)).toList)

theorem goBytes_digestText (C : Crypto) (payload : Vector UInt8 64) (nonce : UInt64)
    (deadline : Int64) :
    goBytes (digestText C payload nonce deadline) =
      ED25519RecoverInfo.digest C payload nonce deadline :=
  (congrArg Utf8.encode String.toList_ofList).trans
    (ED25519RecoverInfo.digest_eq_encode C payload nonce deadline).symm

/-! ### Which messages a payment signature logs in with -/

/-- Two messages have challenges that multiply the key to one point. -/
def SameChallenge (C : Crypto) (signature : Signature) (key : Key) (m m' : List UInt8) : Prop :=
  ∃ point, C.multiplyEdwards (scalarBytes (challenge C (signatureR signature) key m)) key =
      some point ∧
    C.multiplyEdwards (scalarBytes (challenge C (signatureR signature) key m')) key = some point

theorem scalarBytes_of_canonical {signature : Signature}
    (h : Bytes.ofLE (signatureS signature).toList < basepointOrder) :
    scalarBytes (scalarModOrder (signatureS signature).toList) = signatureS signature := by
  rw [scalarBytes, scalarModOrder, Nat.mod_eq_of_lt h, Bytes.toLE_ofLE]

theorem ed25519Verify_eq_true {C : Crypto} {key : Key} {message : List UInt8}
    {signature : Signature} (hkey : C.validateEdwards key = true)
    (h : Bytes.ofLE (signatureS signature).toList < basepointOrder) :
    ed25519Verify C key message signature.toList = true ↔
      ∃ sB kA, C.multiplyEdwards (signatureS signature) edwardsBasePoint = some sB ∧
        C.multiplyEdwards (scalarBytes (challenge C (signatureR signature) key message)) key =
          some kA ∧ C.subtractEdwards sB kA = some (signatureR signature) := by
  have hsig : (⟨signature.toList.toArray, by simp⟩ : Signature) = signature := by
    apply Vector.toList_inj.mp
    rfl
  rw [ed25519Verify, dif_pos signature.length_toList]
  simp only [hsig]
  rw [if_neg (by omega), if_neg (by simp [hkey]), decide_eq_true_iff]
  simp only [Option.bind_eq_bind, Option.bind_eq_some_iff]
  constructor
  · rintro ⟨sB, hsB, kA, hkA, hsub⟩
    exact ⟨sB, kA, hsB, hkA, hsub⟩
  · rintro ⟨sB, kA, hsB, hkA, hsub⟩
    exact ⟨sB, hsB, kA, hkA, hsub⟩

section Payment

variable {cfg : Config} {u : Key} {info : ED25519RecoverInfo} {unixTimestamp : Int64}
  {nonce : UInt64}

/-- What the program's acceptance of a canonical signature says about `Login`. -/
theorem verifySignature_iff (hC : cfg.crypto.Lawful)
    (hverify : info.verify cfg.crypto unixTimestamp nonce u = .ok ())
    (hcanonical : Bytes.ofLE (signatureS info.signature).toList < basepointOrder) (m : String) :
    verifySignature cfg.crypto (Sdk.keyText u) m (signatureText info.signature) = some true ↔
      SameChallenge cfg.crypto info.signature u (goBytes m)
        (ED25519RecoverInfo.digest cfg.crypto info.payload nonce info.deadline) := by
  have hsigned := (ED25519RecoverInfo.verify_eq_ok cfg.crypto).mp hverify
  obtain ⟨hu, -, sB, hA, hsB, hhA, hsub⟩ := verifySignature_eq_ok_true.mp hsigned.1
  rw [scalarBytes_of_canonical hcanonical] at hsB
  simp only [verifySignature, decodePublicKey_keyText, decode_signatureText, Option.bind_eq_bind,
    Option.bind_some, Option.pure_def, Option.some.injEq]
  rw [ed25519Verify_eq_true hu hcanonical]
  constructor
  · rintro ⟨sB', kA, hsB', hkA, hsub'⟩
    obtain rfl : sB = sB' := Option.some.inj (hsB.symm.trans hsB')
    obtain rfl := hC.subtract_cancel hhA hkA hsub hsub'
    exact ⟨_, hkA, hhA⟩
  · rintro ⟨point, hm, hdigest⟩
    obtain rfl : hA = point := Option.some.inj (hhA.symm.trans hdigest)
    exact ⟨sB, hA, hsB, hm, hsub⟩

/-- A payment signature logs in with exactly the messages that share the challenge point of the
payment's digest, the digest itself among them; with any other message `Login` is rejected. -/
theorem payment_signature_login (hC : cfg.crypto.Lawful)
    (hverify : info.verify cfg.crypto unixTimestamp nonce u = .ok ())
    (hcanonical : Bytes.ofLE (signatureS info.signature).toList < basepointOrder) :
    (∀ m, login cfg (Sdk.keyText u) m (signatureText info.signature) =
        pure (.error (.text "invalid signature")) ↔
      ¬ SameChallenge cfg.crypto info.signature u (goBytes m)
        (ED25519RecoverInfo.digest cfg.crypto info.payload nonce info.deadline)) ∧
    login cfg (Sdk.keyText u) (digestText cfg.crypto info.payload nonce info.deadline)
      (signatureText info.signature) = loginVerified cfg (Sdk.keyText u) := by
  constructor
  · intro m
    rw [← verifySignature_iff hC hverify hcanonical]
    constructor
    · intro hrejected haccepted
      rw [login, if_pos haccepted] at hrejected
      cases hrejected
    · intro hrejected
      rw [login, if_neg hrejected]
  · have hsigned := (ED25519RecoverInfo.verify_eq_ok cfg.crypto).mp hverify
    obtain ⟨-, -, sB, hA, -, hhA, -⟩ := verifySignature_eq_ok_true.mp hsigned.1
    rw [login, if_pos]
    rw [verifySignature_iff hC hverify hcanonical, goBytes_digestText]
    exact ⟨hA, hhA, hhA⟩

end Payment

namespace Sample

/-- A database without rows. -/
def empty : Db := ⟨fun _ => none, fun _ => none, [], []⟩

def emptyAnswers (c : Call) : Call.Answer c :=
  (respond cfg ⟨false, none, none, 0, 0⟩ c ⟨empty, []⟩).1

theorem canonical_first :
    Bytes.ofLE (signatureS BalancePayment.Sample.first.signature).toList < basepointOrder := by
  decide +kernel

theorem lawful : cfg.crypto.Lawful := BalancePayment.Sample.lawful

open BalancePayment.Sample in
theorem accepted : first.verify cfg.crypto deadline 0 user = .ok () := verify_first

open BalancePayment.Sample in
theorem verifySignature_first : verifySignature cfg.crypto (Sdk.keyText user)
    (digestText cfg.crypto first.payload 0 first.deadline) (signatureText first.signature) =
      some true := by
  have hsigned := (ED25519RecoverInfo.verify_eq_ok cfg.crypto).mp accepted
  obtain ⟨-, -, sB, hA, -, hhA, -⟩ := verifySignature_eq_ok_true.mp hsigned.1
  refine (verifySignature_iff lawful accepted canonical_first _).mpr ?_
  rw [goBytes_digestText]
  exact ⟨hA, hhA, hhA⟩

theorem loginVerified_new (userPubkey : String) :
    (loginVerified cfg userPubkey).eval emptyAnswers = .ok (⟨userPubkey, 0, 0⟩, token) := by
  have hfound : (getUserByPublicKey userPubkey).eval emptyAnswers = .error .recordNotFound := rfl
  have hcreated : (createUser userPubkey).eval emptyAnswers = .ok ⟨userPubkey, 0, 0⟩ := rfl
  have hsaved : (saveUser ⟨userPubkey, 0, 0⟩).eval emptyAnswers = .ok () := by
    have hrow : empty.saveUser ⟨userPubkey, 0, 0⟩ = .ok _ := if_pos (by simp [InBigint])
    change (respond cfg ⟨false, none, none, 0, 0⟩ (.saveUser ⟨userPubkey, 0, 0⟩) ⟨empty, []⟩).1 =
      .ok ()
    simp only [respond, hrow, Outcome.write, Except.map]
    rfl
  have hsign : cfg.signJWT userPubkey = some token := rfl
  simp [loginVerified, attempt, hfound, hcreated, hsaved, hsign]

end Sample

open BalancePayment.Sample in
/-- The first authorisation of the sample user, replayed as a login. -/
theorem payment_signature_logs_in :
    first.verify Sample.cfg.crypto deadline 0 user = .ok () ∧
      Bytes.ofLE (signatureS first.signature).toList < basepointOrder ∧
      (login Sample.cfg (Sdk.keyText user)
        (digestText Sample.cfg.crypto first.payload 0 first.deadline)
        (signatureText first.signature)).eval Sample.emptyAnswers =
        .ok (⟨Sdk.keyText user, 0, 0⟩, Sample.token) := by
  refine ⟨Sample.accepted, Sample.canonical_first, ?_⟩
  rw [login, if_pos Sample.verifySignature_first]
  exact Sample.loginVerified_new _

open BalancePayment.Sample in
theorem payment_signature_login_sample :
    (∀ m, login Sample.cfg (Sdk.keyText user) m (signatureText first.signature) =
        pure (.error (.text "invalid signature")) ↔
      ¬ SameChallenge Sample.cfg.crypto first.signature user (goBytes m)
        (ED25519RecoverInfo.digest Sample.cfg.crypto first.payload 0 first.deadline)) ∧
    login Sample.cfg (Sdk.keyText user)
      (digestText Sample.cfg.crypto first.payload 0 first.deadline)
      (signatureText first.signature) = loginVerified Sample.cfg (Sdk.keyText user) :=
  payment_signature_login Sample.lawful Sample.accepted Sample.canonical_first

end DsProxy.Backend
