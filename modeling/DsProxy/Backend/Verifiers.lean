import DsProxy.Backend.Login
import DsProxy.BalancePayment.Eligibility

/-!
# Three checks of one signature

The program and the SDK reduce the scalar of a signature modulo the group order, the backend refuses
a scalar that is not below it. Beyond that they test one equation, so they part on scalars from the
order up, and every signature that the program accepts has others beside it.
-/

namespace DsProxy.Backend

open BalancePayment

variable {C : Crypto} {key r : Key} {signature : Signature} {message : List UInt8} {s : ℕ}

/-- The equation of the check: `R` is the point `S * B - H * A`. -/
def Satisfies (C : Crypto) (key r : Key) (s : ℕ) (message : List UInt8) : Prop :=
  C.validateEdwards key = true ∧ ∃ sB hA,
    C.multiplyEdwards (scalarBytes s) edwardsBasePoint = some sB ∧
    C.multiplyEdwards (scalarBytes (challenge C r key message)) key = some hA ∧
    C.subtractEdwards sB hA = some r

/-- The number in the second half of a signature. -/
abbrev scalarOf (signature : Signature) : ℕ := Bytes.ofLE (signatureS signature).toList

/-- The program tests the equation for the reduced scalar. -/
theorem verifySignature_iff_satisfies (hC : C.Lawful) :
    BalancePayment.verifySignature C key signature message = .ok true ↔
      Satisfies C key (signatureR signature) (scalarOf signature % basepointOrder) message := by
  rw [verifySignature_eq_ok_true]
  constructor
  · rintro ⟨hkey, -, hequation⟩
    exact ⟨hkey, hequation⟩
  · rintro ⟨hkey, sB, hA, hsB, hhA, hsub⟩
    -- a difference of points is a point, so `R` needs no check of its own
    have hvalid : C.validateEdwards (signatureR signature) = true := by
      obtain ⟨product, hproduct, hsBvalid⟩ := hC.multiply hC.base
      obtain rfl := Option.some.inj (hsB.symm.trans hproduct)
      obtain ⟨product', hproduct', hhAvalid⟩ := hC.multiply hkey
      obtain rfl := Option.some.inj (hhA.symm.trans hproduct')
      obtain ⟨difference, hdifference, hrvalid⟩ := hC.subtract hsBvalid hhAvalid
      obtain rfl := Option.some.inj (hsub.symm.trans hdifference)
      exact hrvalid
    exact ⟨hkey, hvalid, sB, hA, hsB, hhA, hsub⟩

theorem sdk_verifySignature_iff : Sdk.verifySignature C key signature message = .ok true ↔
    BalancePayment.verifySignature C key signature message = .ok true := by
  unfold Sdk.verifySignature
  cases BalancePayment.verifySignature C key signature message <;> simp [Except.mapError]

theorem ed25519Verify_of_le (h : basepointOrder ≤ scalarOf signature) :
    ed25519Verify C key message signature.toList = false := by
  have hsig : (⟨signature.toList.toArray, by simp⟩ : Signature) = signature := by
    apply Vector.toList_inj.mp
    rfl
  rw [ed25519Verify, dif_pos signature.length_toList]
  simp only [hsig]
  rw [if_pos h]

theorem ed25519Verify_iff_satisfies :
    ed25519Verify C key message signature.toList = true ↔
      scalarOf signature < basepointOrder ∧
        Satisfies C key (signatureR signature) (scalarOf signature) message := by
  have hscalar : scalarBytes (scalarOf signature) = signatureS signature := Bytes.toLE_ofLE _
  rw [Satisfies, hscalar]
  by_cases hcanonical : scalarOf signature < basepointOrder
  · by_cases hkey : C.validateEdwards key = true
    · rw [ed25519Verify_eq_true hkey hcanonical]
      exact ⟨fun h => ⟨hcanonical, hkey, h⟩, fun h => h.2.2⟩
    · refine iff_of_false (fun h => ?_) fun h => hkey h.2.1
      simp [ed25519Verify, hkey] at h
  · refine iff_of_false (fun h => ?_) fun h => hcanonical h.1
    rw [ed25519Verify_of_le (Nat.not_lt.mp hcanonical)] at h
    cases h

/-! ### Agreement -/

/-- The three checks take the signature or leave it together. -/
structure SameVerdict (C : Crypto) (key : Key) (signature : Signature) (message : List UInt8) :
    Prop where
  program : BalancePayment.verifySignature C key signature message = .ok true ↔
    ed25519Verify C key message signature.toList = true
  sdk : Sdk.verifySignature C key signature message = .ok true ↔
    ed25519Verify C key message signature.toList = true

theorem sameVerdict_iff (hC : C.Lawful) : SameVerdict C key signature message ↔
    ¬ (basepointOrder ≤ scalarOf signature ∧ Satisfies C key (signatureR signature)
      (scalarOf signature % basepointOrder) message) := by
  have hprogram : (BalancePayment.verifySignature C key signature message = .ok true ↔
      ed25519Verify C key message signature.toList = true) ↔
      ¬ (basepointOrder ≤ scalarOf signature ∧ Satisfies C key (signatureR signature)
        (scalarOf signature % basepointOrder) message) := by
    rw [verifySignature_iff_satisfies hC, ed25519Verify_iff_satisfies]
    by_cases hcanonical : scalarOf signature < basepointOrder
    · rw [Nat.mod_eq_of_lt hcanonical]
      refine iff_of_true ?_ fun h => absurd hcanonical (Nat.not_lt.mpr h.1)
      exact ⟨fun h => ⟨hcanonical, h⟩, fun h => h.2⟩
    · have hle := Nat.not_lt.mp hcanonical
      constructor
      · rintro hagree ⟨-, hsatisfies⟩
        exact hcanonical (hagree.mp hsatisfies).1
      · intro hnot
        exact iff_of_false (fun h => hnot ⟨hle, h⟩) fun h => hcanonical h.1
  rw [← hprogram]
  exact ⟨fun h => h.program, fun h => ⟨h, sdk_verifySignature_iff.trans h⟩⟩

/-! ### Other scalars -/

/-- The signature with another second half. -/
def withS (signature : Signature) (s : Vector UInt8 32) : Signature := signatureR signature ++ s

theorem signatureR_withS (signature : Signature) (s : Vector UInt8 32) :
    signatureR (withS signature s) = signatureR signature := by
  apply Vector.ext
  intro i hi
  rw [signatureR, Vector.getElem_ofFn]
  exact Vector.getElem_append_left hi

theorem signatureS_withS (signature : Signature) (s : Vector UInt8 32) :
    signatureS (withS signature s) = s := by
  apply Vector.ext
  intro i hi
  rw [signatureS, Vector.getElem_ofFn]
  exact (Vector.getElem_append_right (by omega) (by omega)).trans (by simp)

theorem scalarOf_withS (signature : Signature) {n : ℕ} (h : n < 256 ^ 32) :
    scalarOf (withS signature (scalarBytes n)) = n := by
  rw [scalarOf, signatureS_withS]
  exact Bytes.ofLE_toLE_of_lt h

/-- An accepted signature is the only one with its key, message and `R`. -/
def NotMalleable (C : Crypto) (key : Key) (signature : Signature) (message : List UInt8) : Prop :=
  BalancePayment.verifySignature C key signature message = .ok true →
    ∀ s, BalancePayment.verifySignature C key (withS signature s) message = .ok true →
      s = signatureS signature

/-- The reduced scalar and the next one above it. -/
theorem reduced_lt (s : ℕ) : s % basepointOrder + basepointOrder < 256 ^ 32 := by
  have hlt := Nat.mod_lt s Cyclic.basepointOrder_pos
  calc s % basepointOrder + basepointOrder < basepointOrder + basepointOrder := by omega
    _ < 256 ^ 32 := by norm_num [basepointOrder]

theorem verifySignature_withS_iff (hC : C.Lawful) {n : ℕ} (h : n < 256 ^ 32) :
    BalancePayment.verifySignature C key (withS signature (scalarBytes n)) message = .ok true ↔
      Satisfies C key (signatureR signature) (n % basepointOrder) message := by
  rw [verifySignature_iff_satisfies hC, signatureR_withS, scalarOf_withS signature h]

theorem notMalleable_iff (hC : C.Lawful) : NotMalleable C key signature message ↔
    ¬ Satisfies C key (signatureR signature) (scalarOf signature % basepointOrder) message := by
  constructor
  · intro hunique hsatisfies
    have hlt := reduced_lt (scalarOf signature)
    have haccepted := (verifySignature_iff_satisfies hC).mpr hsatisfies
    have hreduced := hunique haccepted _ <|
      (verifySignature_withS_iff hC (Nat.lt_of_le_of_lt (Nat.le_add_right _ _) hlt)).mpr <| by
        rwa [Nat.mod_mod]
    have hnext := hunique haccepted _ <| (verifySignature_withS_iff hC hlt).mpr <| by
      rwa [Nat.add_mod_right, Nat.mod_mod]
    have hsame := Bytes.toLE_injective (Nat.lt_of_le_of_lt (Nat.le_add_right _ _) hlt) hlt
      (hreduced.trans hnext.symm)
    have hpos := Cyclic.basepointOrder_pos
    omega
  · intro hnot haccepted
    exact absurd ((verifySignature_iff_satisfies hC).mp haccepted) hnot

/-- Where the checks agree and where a signature is the only one of its kind. -/
structure ExactlyAgree (C : Crypto) (key : Key) (signature : Signature) (message : List UInt8) :
    Prop where
  agree : SameVerdict C key signature message ↔
    ¬ (basepointOrder ≤ scalarOf signature ∧ Satisfies C key (signatureR signature)
      (scalarOf signature % basepointOrder) message)
  notMalleable : NotMalleable C key signature message ↔
    ¬ Satisfies C key (signatureR signature) (scalarOf signature % basepointOrder) message

/-- The program and the backend part exactly on scalars out of range that satisfy the equation when
reduced, and no signature that the program accepts is the only one. -/
theorem verifiers_exactly_agree (hC : C.Lawful) (key : Key) (signature : Signature)
    (message : List UInt8) : ExactlyAgree C key signature message :=
  ⟨sameVerdict_iff hC, notMalleable_iff hC⟩

namespace Sample

/-- The key of the user of the first signature. -/
abbrev signer : Key := BalancePayment.Sample.user

abbrev signed : Signature := BalancePayment.Sample.first.signature

open BalancePayment.Sample in
def signedText : List UInt8 := ED25519RecoverInfo.digest crypto first.payload 0 first.deadline

/-- The signature with the group order added to its scalar. -/
def raised : Signature := withS signed (scalarBytes (scalarOf signed + basepointOrder))

theorem signed_accepted :
    BalancePayment.verifySignature BalancePayment.Sample.crypto signer signed signedText =
      .ok true :=
  ((ED25519RecoverInfo.verify_eq_ok _).mp BalancePayment.Sample.verify_first).1

theorem raised_accepted :
    BalancePayment.verifySignature BalancePayment.Sample.crypto signer raised signedText =
      .ok true := by
  decide +kernel

theorem raised_refused :
    ed25519Verify BalancePayment.Sample.crypto signer signedText raised.toList = false := by
  decide +kernel

theorem raised_ne : scalarBytes (scalarOf signed + basepointOrder) ≠ signatureS signed := by
  decide +kernel

end Sample

theorem verifiers_exactly_agree_sample : ExactlyAgree BalancePayment.Sample.crypto Sample.signer
    Sample.raised Sample.signedText :=
  verifiers_exactly_agree BalancePayment.Sample.lawful _ _ _

/-- The program takes the raised scalar for the user's signature, the backend does not. -/
theorem raised_scalar_parts_verifiers :
    ¬ SameVerdict BalancePayment.Sample.crypto Sample.signer Sample.raised Sample.signedText ∧
      ¬ NotMalleable BalancePayment.Sample.crypto Sample.signer Sample.signed
        Sample.signedText := by
  constructor
  · intro hagree
    have haccepted := hagree.program.mp Sample.raised_accepted
    rw [Sample.raised_refused] at haccepted
    cases haccepted
  · intro hunique
    exact Sample.raised_ne (hunique Sample.signed_accepted _ Sample.raised_accepted)

/-! ### The backend's check is strict -/

/-- The base point has prime order: its multiples tell scalars apart modulo the order. -/
structure PrimeOrderBase (C : Crypto) : Prop where
  multiply_inj {scalar scalar' point} (h : C.multiplyEdwards scalar edwardsBasePoint = some point)
    (h' : C.multiplyEdwards scalar' edwardsBasePoint = some point) :
    Bytes.ofLE scalar.toList % basepointOrder = Bytes.ofLE scalar'.toList % basepointOrder
  subtract_cancel {p p' q r s s' a a'} (hp : C.multiplyEdwards s a = some p)
    (hp' : C.multiplyEdwards s' a' = some p') (h : C.subtractEdwards p q = some r)
    (h' : C.subtractEdwards p' q = some r) : p = p'

theorem ed25519Verify_unique (hB : PrimeOrderBase C) {s : Vector UInt8 32}
    (h : ed25519Verify C key message signature.toList = true)
    (h' : ed25519Verify C key message (withS signature s).toList = true) :
    s = signatureS signature := by
  obtain ⟨hlt, -, sB, hA, hsB, hhA, hsub⟩ := ed25519Verify_iff_satisfies.mp h
  obtain ⟨hlt', -, sB', hA', hsB', hhA', hsub'⟩ := ed25519Verify_iff_satisfies.mp h'
  rw [signatureR_withS] at hhA' hsub'
  obtain rfl := Option.some.inj (hhA.symm.trans hhA')
  obtain rfl := hB.subtract_cancel hsB hsB' hsub hsub'
  have hmod := hB.multiply_inj hsB hsB'
  have hwidth : basepointOrder < 256 ^ 32 := by norm_num [basepointOrder]
  have hvalue {n : ℕ} (hn : n < basepointOrder) :
      Bytes.ofLE (scalarBytes n).toList % basepointOrder = n := by
    rw [scalarBytes, Bytes.ofLE_toLE_of_lt (hn.trans hwidth), Nat.mod_eq_of_lt hn]
  rw [hvalue hlt, hvalue hlt', scalarOf, scalarOf, signatureS_withS] at hmod
  calc s = Bytes.toLE 32 (Bytes.ofLE s.toList) := (Bytes.toLE_ofLE s).symm
    _ = signatureS signature := by rw [← hmod, Bytes.toLE_ofLE]

open Cyclic in
/-- The group of the base point has it where the base point is listed as its first multiple. -/
theorem cyclic_primeOrderBase {relabel : Equiv.Perm (Fin (256 ^ 32))}
    {keccak : List UInt8 → Vector UInt8 32} {sha512 : List UInt8 → Vector UInt8 64}
    (hbase : decode relabel edwardsBasePoint = some 1) :
    PrimeOrderBase (crypto relabel keccak sha512) where
  multiply_inj h h' := by
    obtain ⟨k, hk, rfl⟩ := multiplyEdwards_eq_some.mp h
    obtain ⟨k', hk', hsame⟩ := multiplyEdwards_eq_some.mp h'
    obtain rfl := Option.some.inj (hbase.symm.trans hk)
    obtain rfl := Option.some.inj (hbase.symm.trans hk')
    have hmod := encode_inj relabel hsame
    rw [Nat.mul_one, Nat.mul_one] at hmod
    exact hmod.symm
  subtract_cancel hp hp' h h' := by
    obtain ⟨m, -, rfl⟩ := multiplyEdwards_eq_some.mp hp
    obtain ⟨m', -, rfl⟩ := multiplyEdwards_eq_some.mp hp'
    obtain ⟨k, hk, l, hl, rfl⟩ := subtractEdwards_eq_some.mp h
    obtain ⟨k', hk', l', hl', hr⟩ := subtractEdwards_eq_some.mp h'
    obtain rfl := Option.some.inj (hl.symm.trans hl')
    have hmod := Nat.ModEq.add_right_cancel' _ (encode_inj relabel hr)
    rw [decode_encode] at hk hk'
    rw [← Option.some.inj hk, ← Option.some.inj hk', Nat.ModEq, Nat.mod_mod, Nat.mod_mod] at hmod
    simp only [encode, hmod]

example : PrimeOrderBase BalancePayment.Sample.crypto := cyclic_primeOrderBase (by decide +kernel)

end DsProxy.Backend
