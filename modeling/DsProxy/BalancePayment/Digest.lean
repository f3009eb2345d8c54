import DsProxy.BalancePayment.Eligibility
import DsProxy.Lib.Utf8

/-!
# The signed digest

What the program hashes is laid out at fixed widths, the base-58 text determines the hash, and the
prefix is constant. So the digest determines payload, nonce and deadline as far as the hash
determines what it is a hash of. The SDK builds the same digest by way of a `String`.
-/

namespace DsProxy.BalancePayment

variable {C : Crypto} {p p' : Vector UInt8 64} {n n' : UInt64} {d d' : Int64}

namespace ED25519RecoverInfo

theorem message_injective (h : message p n d = message p' n' d') : p = p' ∧ n = n' ∧ d = d' := by
  obtain ⟨h, hdeadline⟩ := List.append_inj' h (by simp)
  obtain ⟨hpayload, hnonce⟩ := List.append_inj' h (by simp)
  -- the sign is in the top byte, so the word determines the deadline
  have hword := congrArg UInt64.toInt64 (Bytes.le64_injective hdeadline)
  rw [Int64.toInt64_toUInt64, Int64.toInt64_toUInt64] at hword
  exact ⟨Vector.toList_inj.mp hpayload, Bytes.le64_injective hnonce, hword⟩

theorem prefix_ascii : ∀ c ∈ "DePHY vending machine/Example:\n".toList, c.toNat < 128 := by
  have hall : ("DePHY vending machine/Example:\n".toList.all fun c =>
      decide (c.toNat < 128)) = true := by decide +kernel
  intro c hc
  exact of_decide_eq_true (List.all_eq_true.mp hall c hc)

theorem digest_eq_encode (C : Crypto) (p : Vector UInt8 64) (n : UInt64) (d : Int64) :
    digest C p n d = Utf8.encode ("DePHY vending machine/Example:\n".toList ++
      Base58.encode (C.keccak (message p n d)).toList) := by
  have hascii : ∀ c ∈ "DePHY vending machine/Example:\n".toList ++
      Base58.encode (C.keccak (message p n d)).toList, c.toNat < 128 := by
    intro c hc
    rcases List.mem_append.mp hc with hc | hc
    · exact prefix_ascii c hc
    · exact Base58.encode_ascii hc
  rw [Utf8.encode_ascii hascii]
  exact List.map_append.symm

theorem digest_eq_iff : digest C p n d = digest C p' n' d' ↔
    C.keccak (message p n d) = C.keccak (message p' n' d') := by
  constructor
  · intro h
    rw [digest_eq_encode, digest_eq_encode] at h
    have htext := List.append_cancel_left (Utf8.encode_injective h)
    exact Vector.toList_inj.mp (Base58.encode_injective htext)
  · intro h
    rw [digest, digest, h]

/-- The digest binds its fields among messages on which the hash does not collide. -/
theorem digest_injective {signed : Set (List UInt8)} (hkeccak : Set.InjOn C.keccak signed)
    (hmem : message p n d ∈ signed) (hmem' : message p' n' d' ∈ signed)
    (h : digest C p n d = digest C p' n' d') : p = p' ∧ n = n' ∧ d = d' :=
  message_injective (hkeccak hmem hmem' (digest_eq_iff.mp h))

end ED25519RecoverInfo

/-! ### The SDK -/

namespace Sdk

/-- `SIGN_MESSAGE_PREFIX` of the SDK. -/
def signMessagePrefix : List UInt8 := Bytes.ascii "DePHY vending machine/Example:\n"

/-- The digest of `check_eligible`. -/
def digest (C : Crypto) (payload : Vector UInt8 64) (nonce : UInt64) (deadline : Int64) :
    List UInt8 :=
  let message := payload.toList ++ Bytes.le64 nonce ++ Bytes.le64 deadline.toUInt64
  let messageHash := C.keccak message
  -- `into_string().as_bytes()`
  signMessagePrefix ++ Utf8.encode (Base58.encode messageHash.toList)

theorem digest_eq (C : Crypto) (p : Vector UInt8 64) (n : UInt64) (d : Int64) :
    digest C p n d = ED25519RecoverInfo.digest C p n d := by
  dsimp only [digest]
  rw [Utf8.encode_ascii fun c hc => Base58.encode_ascii hc]
  rfl

/-- A positive answer of `check_eligible` is about the signature of this digest. -/
theorem checkEligible_verifies {sdk : Sdk} {asSecs amount : UInt64} {user recoverInfo : String}
    {s : Accounts} (h : sdk.checkEligible C asSecs user n amount recoverInfo s = .ok true) :
    ∃ key info, sdk.parsePubkey user = some key ∧ sdk.parseRecoverInfo recoverInfo = some info ∧
      (verifySignature C key info.signature (digest C info.payload n info.deadline)).isOk =
        true := by
  obtain ⟨key, info, account, hkey, hinfo, -, -, rfl, hvalid, -⟩ := checkEligible_eq_true.mp h
  rw [← digest_eq, ← isOk_verifySignature] at hvalid
  exact ⟨key, info, hkey, hinfo, hvalid⟩

end Sdk

end DsProxy.BalancePayment
