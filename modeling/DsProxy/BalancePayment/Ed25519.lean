import DsProxy.Lib.Base58

/-!
# Signatures of the balance-payment program

`utils/ed25519.rs` and `ED25519RecoverInfo::verify` of `instructions/lock.rs`. Curve arithmetic and
the two hash functions come from other crates, so they are the fields of `Crypto`; scalars, the
signed message and the digest are computed here as the program computes them.
-/

namespace DsProxy.BalancePayment

abbrev Key := Vector UInt8 32
abbrev Signature := Vector UInt8 64

/-- What the program calls from `solana_zk_token_sdk`, `sha2` and the Solana runtime. -/
structure Crypto where
  keccak : List UInt8 → Vector UInt8 32
  sha512 : List UInt8 → Vector UInt8 64
  validateEdwards : Key → Bool
  multiplyEdwards : Vector UInt8 32 → Key → Option Key
  subtractEdwards : Key → Key → Option Key

/-- The order of the base point, the modulus of every scalar. -/
def basepointOrder : ℕ := 2 ^ 252 + 27742317777372353535851937790883648493

/-- `EDWARDS_BASE_POINT`: the byte `0x58` followed by `0x66`. -/
def edwardsBasePoint : Key := Vector.ofFn fun i => if i.val = 0 then 0x58 else 0x66

/-- `Scalar::from_bytes_mod_order` and its wide variant, as a number. -/
def scalarModOrder (bytes : List UInt8) : ℕ := Bytes.ofLE bytes % basepointOrder

def scalarBytes (scalar : ℕ) : Vector UInt8 32 := Bytes.toLE 32 scalar

def signatureR (signature : Signature) : Key := Vector.ofFn fun i => signature[i.val]

def signatureS (signature : Signature) : Vector UInt8 32 :=
  Vector.ofFn fun i => signature[32 + i.val]

/-- The challenge `H(R || A || M)` reduced modulo the group order. -/
def challenge (C : Crypto) (r a : Key) (message : List UInt8) : ℕ :=
  scalarModOrder (C.sha512 (r.toList ++ a.toList ++ message)).toList

def verifySignature (C : Crypto) (pubkey : Key) (signature : Signature) (message : List UInt8) :
    Except String Bool :=
  let a := pubkey
  let r := signatureR signature
  if C.validateEdwards a = false then .error "Pubkey is not a valid EdwardsPoint"
  else if C.validateEdwards r = false then .error "Signature R is not a valid EdwardsPoint"
  else
    let sScalar := scalarBytes (scalarModOrder (signatureS signature).toList)
    let hScalar := scalarBytes (challenge C r a message)
    match C.multiplyEdwards sScalar edwardsBasePoint with
    | none => .error "Failed to multiply S*B"
    | some sB =>
      match C.multiplyEdwards hScalar a with
      | none => .error "Failed to multiply H*A"
      | some hA =>
        match C.subtractEdwards sB hA with
        | none => .error "Failed to subtract HA from SB"
        | some rPrime => .ok (decide (rPrime = r))

theorem verifySignature_eq_ok_true {C : Crypto} {pubkey : Key} {signature : Signature}
    {message : List UInt8} :
    verifySignature C pubkey signature message = .ok true ↔
      C.validateEdwards pubkey = true ∧ C.validateEdwards (signatureR signature) = true ∧
      ∃ sB hA,
        C.multiplyEdwards (scalarBytes (scalarModOrder (signatureS signature).toList))
          edwardsBasePoint = some sB ∧
        C.multiplyEdwards (scalarBytes (challenge C (signatureR signature) pubkey message))
          pubkey = some hA ∧
        C.subtractEdwards sB hA = some (signatureR signature) := by
  unfold verifySignature
  dsimp only
  by_cases ha : C.validateEdwards pubkey = false
  · simp [ha]
  by_cases hr : C.validateEdwards (signatureR signature) = false
  · simp [ha, hr]
  rw [if_neg ha, if_neg hr]
  simp only [Bool.not_eq_false] at ha hr
  cases hsB : C.multiplyEdwards (scalarBytes (scalarModOrder (signatureS signature).toList))
    edwardsBasePoint with
  | none => simp
  | some sB =>
      cases hhA : C.multiplyEdwards
        (scalarBytes (challenge C (signatureR signature) pubkey message)) pubkey with
      | none => simp
      | some hA =>
          cases hsub : C.subtractEdwards sB hA with
          | none => simp [ha, hr, hsub]
          | some rPrime => simp [ha, hr, hsub]

/-! ### The signed authorisation -/

/-- `SIGN_MESSAGE_PREFIX`. -/
def signMessagePrefix : List UInt8 := Bytes.ascii "DePHY vending machine/Example:\n"

/-- The variants of `CustomError` the handlers return. -/
inductive CustomError
  | unauthorized
  | insufficientFunds
  | signatureFormatInvalid
  | signatureMismatch
  | signatureExpired
  deriving DecidableEq, Repr

structure ED25519RecoverInfo where
  signature : Signature
  payload : Vector UInt8 64
  deadline : Int64
  deriving DecidableEq

namespace ED25519RecoverInfo

variable (C : Crypto)

/-- The bytes hashed for a nonce: payload, nonce and deadline. -/
def message (payload : Vector UInt8 64) (nonce : UInt64) (deadline : Int64) : List UInt8 :=
  payload.toList ++ Bytes.le64 nonce ++ Bytes.le64 deadline.toUInt64

/-- The bytes the user signs: the prefix and the base58 text of the message hash. -/
def digest (payload : Vector UInt8 64) (nonce : UInt64) (deadline : Int64) : List UInt8 :=
  signMessagePrefix ++
    (Base58.encode (C.keccak (message payload nonce deadline)).toList).map
      fun c => UInt8.ofNat c.toNat

def verify (info : ED25519RecoverInfo) (unixTimestamp : Int64) (nonce : UInt64) (pubkey : Key) :
    Except CustomError Unit :=
  match verifySignature C pubkey info.signature (digest C info.payload nonce info.deadline) with
  | .error _ => .error .signatureFormatInvalid
  | .ok valid =>
    if valid = false then .error .signatureMismatch
    else if unixTimestamp ≤ info.deadline then .ok ()
    else .error .signatureExpired

/-- The info carries a signature of the user over its payload, the given nonce and its deadline. -/
def SignedBy (info : ED25519RecoverInfo) (nonce : UInt64) (pubkey : Key) : Prop :=
  verifySignature C pubkey info.signature (digest C info.payload nonce info.deadline) = .ok true

theorem verify_eq_ok {info : ED25519RecoverInfo} {unixTimestamp : Int64} {nonce : UInt64}
    {pubkey : Key} :
    info.verify C unixTimestamp nonce pubkey = .ok () ↔
      info.SignedBy C nonce pubkey ∧ unixTimestamp ≤ info.deadline := by
  unfold verify SignedBy
  cases verifySignature C pubkey info.signature (digest C info.payload nonce info.deadline) with
  | error text => simp
  | ok valid => cases valid <;> simp

end ED25519RecoverInfo

end DsProxy.BalancePayment
