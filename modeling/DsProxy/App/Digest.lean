import DsProxy.App.RecoverInfo
import DsProxy.BalancePayment.Digest

/-!
# The digest that a client signs

`handleCharge` of the web app and `sign_message` of `scripts/cli.ts` build the digest from big
numbers and strings. A big number is written without its sign, so what they sign is the program's
digest for deadlines that are not negative.
-/

namespace DsProxy.App

open BalancePayment

/-! ### The signer -/

/-- `SIGN_MESSAGE_PREFIX` of the two scripts. -/
def signMessagePrefix : String := "DePHY vending machine/Example:\n"

/-- `toArrayLike(Buffer, "le", length)`: the magnitude, which is asserted to fit. -/
def toArrayLike (length : ℕ) (n : ℤ) : Option (List UInt8) :=
  if n.natAbs < 256 ^ length then some (Bytes.toLE length n.natAbs).toList else none

/-- The bytes that the wallet is asked to sign. -/
def digest (C : Crypto) (payload : Vector UInt8 64) (nonce deadline : ℤ) :
    Option (List UInt8) := do
  let message := payload.toList ++ (← toArrayLike 8 nonce) ++ (← toArrayLike 8 deadline)
  let messageHash := C.keccak message
  let hashedMessageBase58 := String.ofList (Base58.encodeTrimmed messageHash.toList)
  return Utf8.encode (signMessagePrefix ++ hashedMessageBase58).toList

variable {C : Crypto} {p : Vector UInt8 64} {n : UInt64} {d : Int64}

theorem toArrayLike_toNat (n : UInt64) : toArrayLike 8 n.toNat = some (Bytes.le64 n) :=
  if_pos n.toNat_lt

theorem toArrayLike_toInt (h : 0 ≤ d) : toArrayLike 8 d.toInt = some (Bytes.le64 d.toUInt64) := by
  have hvalue : d.toInt = (d.toUInt64.toNat : ℤ) := by
    rw [Int64.toNat_toUInt64_of_le h, Int64.cast_toNatClampNeg d h]
  rw [hvalue]
  exact toArrayLike_toNat d.toUInt64

/-- For a deadline that is not negative the client signs what the program verifies. -/
theorem digest_eq (C : Crypto) (p : Vector UInt8 64) (n : UInt64) (h : 0 ≤ d) :
    digest C p n.toNat d.toInt = some (ED25519RecoverInfo.digest C p n d) := by
  rw [digest, toArrayLike_toNat, toArrayLike_toInt h, ED25519RecoverInfo.digest_eq_encode]
  simp only [Option.bind_eq_bind, Option.bind_some, Base58.encodeTrimmed_eq, String.toList_append,
    String.toList_ofList]
  rfl

/-! ### One digest -/

/-- Among the signed messages the digest binds its fields, and all three parties build the same one.
There are more messages than hashes, so the signed ones are those on which the hash does not
collide. -/
structure OneDigest (C : Crypto) (signed : Set (List UInt8)) : Prop where
  binds {p p' : Vector UInt8 64} {n n' : UInt64} {d d' : Int64}
    (hmem : ED25519RecoverInfo.message p n d ∈ signed)
    (hmem' : ED25519RecoverInfo.message p' n' d' ∈ signed)
    (h : ED25519RecoverInfo.digest C p n d = ED25519RecoverInfo.digest C p' n' d') :
    p = p' ∧ n = n' ∧ d = d'
  sdk (p : Vector UInt8 64) (n : UInt64) (d : Int64) :
    Sdk.digest C p n d = ED25519RecoverInfo.digest C p n d
  client (p : Vector UInt8 64) (n : UInt64) {d : Int64} (h : 0 ≤ d) :
    digest C p n.toNat d.toInt = some (ED25519RecoverInfo.digest C p n d)

theorem one_digest {signed : Set (List UInt8)} (hkeccak : Set.InjOn C.keccak signed) :
    OneDigest C signed where
  binds hmem hmem' h := ED25519RecoverInfo.digest_injective hkeccak hmem hmem' h
  sdk := Sdk.digest_eq C
  client p n _ h := digest_eq C p n h

open BalancePayment.Sample in
/-- The messages of the user's two authorisations have different hashes. -/
theorem one_digest_sample : OneDigest crypto {ED25519RecoverInfo.message payload 0 deadline,
    ED25519RecoverInfo.message payload 1 deadline} :=
  one_digest (Set.injOn_pair.mpr fun h => absurd h (by decide +kernel))

/-! ### From the wallet to the program -/

/-- `handleCharge`, up to the recover info that it publishes. -/
def handleCharge (C : Crypto) (signMessage : List UInt8 → Signature) (payload : Vector UInt8 64)
    (nonce deadline : ℕ) : Option String := do
  let signature := signMessage (← digest C payload nonce deadline)
  chargeText signature payload deadline

/-- What a wallet signs correctly, the SDK reads as an authorisation of the user for that nonce. -/
theorem handleCharge_signedBy {signMessage : List UInt8 → Signature} {key bot : Key} {deadline : ℕ}
    (hwallet : ∀ message, verifySignature C key (signMessage message) message = .ok true)
    (hdeadline : deadline < 2 ^ 53) :
    ∃ info, (handleCharge C signMessage p n.toNat deadline).bind
        (Sdk.serde bot).parseRecoverInfo = some info ∧
      info.payload = p ∧ info.deadline = Int64.ofNat deadline ∧ info.SignedBy C n key := by
  have hvalue : (Int64.ofNat deadline).toInt = (deadline : ℤ) :=
    Int64.toInt_ofNat_of_lt (by omega)
  have hnonneg : 0 ≤ Int64.ofNat deadline := by
    rw [Int64.le_iff_toInt_le, hvalue]
    simp
  have hsigned := digest_eq C p n hnonneg
  rw [hvalue] at hsigned
  rw [handleCharge, hsigned]
  exact ⟨_, parseRecoverInfo_chargeText bot hdeadline, rfl, rfl, hwallet _⟩

end DsProxy.App
