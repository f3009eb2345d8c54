import DsProxy.BalancePayment.Acceptance

/-!
# What a signature leaves open

The signed digest holds the payload, the nonce and the deadline. Neither the amount nor the kind of
charge enters it, so whoever submits a valid authorisation picks both, within the free funds.
-/

namespace DsProxy.BalancePayment

open Accounts Runs

variable {R : Runtime} {ctx : Context} {s s' : Accounts} {account : UserAccount}

/-- A payment that goes through was submitted as it should be, over a live signature. -/
theorem right_of_pay {a : Pay} {recoverInfo : ED25519RecoverInfo} {amount : UInt64}
    (h : pay R ctx a recoverInfo amount s = .ok s') :
    ∃ globalAccount account, a.Right ctx s globalAccount ∧
      s.data (userAddress a.user) = .user account ∧ NonceBelow s a.user ∧
      recoverInfo.verify R.toCrypto ctx.unixTimestamp account.nonce a.user = .ok () := by
  simp only [pay, bind_eq_ok, requireSigner_eq_ok, require_eq_ok, pure_eq_ok, loaded_eq_ok,
    AccountData.global?_eq_some, AccountData.user?_eq_some, customResult_eq_ok, checkedSub_eq_ok,
    checkedAdd_eq_ok] at h
  obtain ⟨globalAccount, hglobal, account, huser, -, hbotSigned, -, hpayerSigned, -, hglobalAddr, -,
    hbot, -, huserAddr, -, htreasury, -, hvaultAddr, _, hverify, -, -, -, -, -, -, nonce, hnonce,
    -⟩ := h
  rw [hglobalAddr] at hglobal
  rw [huserAddr] at huser
  refine ⟨globalAccount, account, ⟨hglobal, hbot, htreasury, hglobalAddr, huserAddr, hvaultAddr,
    hbotSigned, hpayerSigned⟩, huser, fun {account'} huser' => ?_, hverify⟩
  cases huser.symm.trans huser'
  have hlt := nonce.toNat_lt
  have hone : (1 : UInt64).toNat = 1 := rfl
  omega

/-- What one accepted payment lets the bot do instead, with the same authorisation; what the user
has signed for is the payload, the nonce and the deadline. -/
structure Chooses (R : Runtime) (ctx : Context) (s : Accounts) (a : Pay)
    (recoverInfo : ED25519RecoverInfo) : Prop where
  signed : ∃ account, s.data (userAddress a.user) = .user account ∧
    recoverInfo.SignedBy R.toCrypto account.nonce a.user ∧
    ctx.unixTimestamp ≤ recoverInfo.deadline
  pays : ∀ amount, Exactly (pay R ctx a recoverInfo amount s) (amount.toNat ≤ free s a.user)
  locks : ∀ {b : Lock} {globalAccount account} (amount : UInt64),
    b.Right ctx s globalAccount account → b.user = a.user →
    s.data (userAddress a.user) = .user account → CanPayRent R s b →
    Exactly (lock R ctx b recoverInfo amount s) (amount.toNat ≤ free s a.user)

/-- When a payment goes through, so do payments and locks of every other amount that is free. -/
theorem bot_chooses_charge {s₀ : Accounts} (h₀ : Uninitialised s₀) (ops : List Op)
    (hsupply : SupplyBelow ((system R).run s₀ ops)) {a : Pay} {recoverInfo : ED25519RecoverInfo}
    {amount : UInt64} (hpay : pay R ctx a recoverInfo amount ((system R).run s₀ ops) = .ok s') :
    Chooses R ctx ((system R).run s₀ ops) a recoverInfo := by
  have h := run_orderly h₀ hsupply
  obtain ⟨globalAccount, account, right, huser, hnonce, hverify⟩ := right_of_pay hpay
  obtain ⟨e, tracks⟩ := h.tracks huser
  refine ⟨⟨account, huser, (ED25519RecoverInfo.verify_eq_ok _).mp hverify⟩, fun amount' => ?_,
    fun {b globalAccount' account'} amount' right' hb huser' hrent => ?_⟩
  · exact pay_exactly amount' h.kept h.supply right tracks hnonce hverify
  · cases huser.symm.trans huser'
    rw [← hb] at tracks hnonce hverify ⊢
    exact lock_exactly amount' right' tracks hrent hnonce hverify

namespace Sample

/-- The user has paid 50 million in and signed once. -/
def funded : Accounts := (system runtime).run start (ops.take 3)

def payAccounts : Pay :=
  ⟨globalAddress, userAddress user, user, treasury, vaultAddress user, bot, payer⟩

def lockAccounts : Lock :=
  ⟨globalAddress, userAddress user, user, lockAddress user 0, vaultAddress user, bot, payer⟩

-- one evaluation of the state and the signature for the three charges
theorem pays_or_locks : (pay runtime Sample.ctx payAccounts first 10000000 funded).isOk = true ∧
    (pay runtime Sample.ctx payAccounts first 11000000 funded).isOk = true ∧
    (lock runtime Sample.ctx lockAccounts first 12000000 funded).isOk = true := by
  decide +kernel

end Sample

/-- One signature pays 10 or 11 million, or locks 12. -/
theorem signature_pays_or_locks :
    (pay Sample.runtime Sample.ctx Sample.payAccounts Sample.first 10000000
        Sample.funded).isOk = true ∧
      (pay Sample.runtime Sample.ctx Sample.payAccounts Sample.first 11000000
        Sample.funded).isOk = true ∧
      (lock Sample.runtime Sample.ctx Sample.lockAccounts Sample.first 12000000
        Sample.funded).isOk = true :=
  Sample.pays_or_locks

theorem bot_chooses_charge_sample :
    Chooses Sample.runtime Sample.ctx Sample.funded Sample.payAccounts Sample.first := by
  obtain ⟨s', hpaid⟩ := exists_ok_of_isOk Sample.pays_or_locks.1
  exact bot_chooses_charge (fun _ => rfl) (Sample.ops.take 3) (Sample.run_supply 3) hpaid

end DsProxy.BalancePayment
