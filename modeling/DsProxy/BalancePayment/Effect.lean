import DsProxy.BalancePayment.Instruction

/-!
# What a successful instruction did

One lemma per instruction: from `.ok s'` to the guards that held in `s` and the data and balances of
`s'`. Nothing later unfolds a handler. Addresses are already the program's own here, since every
success has passed the seed constraints.
-/

namespace DsProxy.BalancePayment

open Accounts

variable {R : Runtime} {ctx : Context} {s s' : Accounts}

theorem available_of_checkedSub {vault : Pubkey} {locked available amount : UInt64}
    (hsub : available.toNat + locked.toNat = (s.lamports vault).toNat) (hle : amount ≤ available) :
    locked.toNat + amount.toNat ≤ s.balance vault := by
  have := UInt64.le_iff_toNat_le.mp hle
  simp only [balance]
  omega

/-- A payer never is a vault, so creating an account leaves the vaults alone. -/
theorem balance_vault_of_payer_moves {payer u : Key} {field : Pubkey} {rent : ℕ}
    (hmoves : s.Moves s' (.key payer) field rent) (hfield : field ≠ vaultAddress u) :
    s'.balance (vaultAddress u) = s.balance (vaultAddress u) := by
  have h := hmoves (vaultAddress u)
  rwa [if_neg key_ne_vault.symm, if_neg hfield.symm, Nat.add_zero, Nat.add_zero] at h

structure InitializeDone (ctx : Context) (a : Initialize) (s s' : Accounts) : Prop where
  payerSigned : a.payer ∈ ctx.signers
  unused : s.data globalAddress = .empty
  data : s'.data =
    Function.update s.data globalAddress (.global ⟨a.authority, a.bot, a.treasury⟩)
  rentPaid : ∃ rent, s.Moves s' (.key a.payer) globalAddress rent

theorem initialize_done {a : Initialize} (h : initialize_ R ctx a s = .ok s') :
    InitializeDone ctx a s s' := by
  simp only [initialize_, bind_eq_ok, requireSigner_eq_ok, require_eq_ok, pure_eq_ok] at h
  obtain ⟨-, hpayer, mid, hinit, -, -, -, -, -, -, rfl⟩ := h
  obtain ⟨hfield, hempty, hdata, hrent⟩ := init_eq_ok hinit
  rw [hfield] at hempty hdata hrent
  exact ⟨hpayer, hempty, hdata, hrent⟩

/-- `set_bot` and `set_treasury` rewrite one field of the global account on the authority's word. -/
structure ConfigDone (ctx : Context) (authority : Key) (change : GlobalAccount → GlobalAccount)
    (s s' : Accounts) : Prop where
  signed : authority ∈ ctx.signers
  balance : s'.balance = s.balance
  changed : ∃ account, s.data globalAddress = .global account ∧
    account.authority = .key authority ∧
    s'.data = Function.update s.data globalAddress (.global (change account))

theorem setBot_done {a : SetBot} (h : setBot ctx a s = .ok s') :
    ConfigDone ctx a.authority (fun account => { account with bot := a.bot }) s s' := by
  simp only [setBot, bind_eq_ok, requireSigner_eq_ok, require_eq_ok, pure_eq_ok, loaded_eq_ok,
    AccountData.global?_eq_some] at h
  obtain ⟨account, hglobal, -, hsigned, -, -, -, haddr, -, hauth, -, -, rfl⟩ := h
  rw [haddr] at hglobal
  exact ⟨hsigned, rfl, account, hglobal, hauth, by rw [data_setData, haddr]⟩

theorem setTreasury_done {a : SetTreasury} (h : setTreasury ctx a s = .ok s') :
    ConfigDone ctx a.authority (fun account => { account with treasury := a.treasury }) s s' := by
  simp only [setTreasury, bind_eq_ok, requireSigner_eq_ok, require_eq_ok, pure_eq_ok, loaded_eq_ok,
    AccountData.global?_eq_some] at h
  obtain ⟨account, hglobal, -, hsigned, -, -, -, haddr, -, hauth, -, -, rfl⟩ := h
  rw [haddr] at hglobal
  exact ⟨hsigned, rfl, account, hglobal, hauth, by rw [data_setData, haddr]⟩

structure RegisterDone (ctx : Context) (a : Register) (s s' : Accounts) : Prop where
  signed : a.user ∈ ctx.signers
  unused : s.data (userAddress a.user) = .empty
  data : s'.data =
    Function.update s.data (userAddress a.user) (.user ⟨0, 0, vaultAddress a.user⟩)
  rentPaid : ∃ rent, s.Moves s' (.key a.payer) (userAddress a.user) rent

theorem register_done {a : Register} (h : register R ctx a s = .ok s') :
    RegisterDone ctx a s s' := by
  simp only [register, bind_eq_ok, requireSigner_eq_ok, require_eq_ok, pure_eq_ok] at h
  obtain ⟨-, hsigned, -, -, mid, hinit, -, -, -, hvault, rfl⟩ := h
  obtain ⟨hfield, hempty, hdata, hrent⟩ := init_eq_ok hinit
  rw [hfield] at hempty hdata hrent
  rw [hvault] at hdata
  exact ⟨hsigned, hempty, hdata, hrent⟩

theorem tryAccounts_eq_ok {a : OwnerAccounts} {account : UserAccount}
    (h : a.tryAccounts ctx s = .ok account) :
    a.user ∈ ctx.signers ∧ s.data (userAddress a.user) = .user account ∧
      a.vault = vaultAddress a.user := by
  simp only [OwnerAccounts.tryAccounts, bind_eq_ok, requireSigner_eq_ok, require_eq_ok, pure_eq_ok,
    loaded_eq_ok, AccountData.user?_eq_some] at h
  obtain ⟨_, huser, -, hsigned, -, -, -, haddr, -, hvault, rfl⟩ := h
  rw [haddr] at huser
  exact ⟨hsigned, huser, hvault⟩

structure DepositDone (ctx : Context) (a : Deposit) (amount : UInt64) (s s' : Accounts) :
    Prop where
  signed : a.user ∈ ctx.signers
  registered : ∃ account, s.data (userAddress a.user) = .user account
  data : s'.data = s.data
  moved : s.Moves s' (.key a.user) (vaultAddress a.user) amount.toNat

theorem deposit_done {a : Deposit} {amount : UInt64} (h : deposit ctx a amount s = .ok s') :
    DepositDone ctx a amount s s' := by
  simp only [deposit, bind_eq_ok] at h
  obtain ⟨account, htry, htransfer⟩ := h
  obtain ⟨hsigned, huser, hvault⟩ := tryAccounts_eq_ok htry
  rw [hvault] at htransfer
  obtain ⟨hdata, hmoves⟩ := transfer_eq_ok htransfer
  exact ⟨hsigned, ⟨account, huser⟩, hdata, hmoves⟩

structure WithdrawDone (ctx : Context) (a : Withdraw) (amount : UInt64) (s s' : Accounts) :
    Prop where
  signed : a.user ∈ ctx.signers
  free : ∃ account, s.data (userAddress a.user) = .user account ∧
    account.lockedAmount.toNat + amount.toNat ≤ s.balance (vaultAddress a.user)
  data : s'.data = s.data
  moved : s.Moves s' (vaultAddress a.user) (.key a.user) amount.toNat

theorem withdraw_done {a : Withdraw} {amount : UInt64} (h : withdraw ctx a amount s = .ok s') :
    WithdrawDone ctx a amount s s' := by
  simp only [withdraw, bind_eq_ok, require_eq_ok, checkedSub_eq_ok] at h
  obtain ⟨account, htry, available, hsub, -, hle, htransfer⟩ := h
  obtain ⟨hsigned, huser, hvault⟩ := tryAccounts_eq_ok htry
  rw [hvault] at hsub htransfer
  obtain ⟨hdata, hmoves⟩ := transfer_eq_ok htransfer
  exact ⟨hsigned, ⟨account, huser, available_of_checkedSub hsub hle⟩, hdata, hmoves⟩

/-- What `lock` and `pay` share: the bot acts on a live signature of the user over the current
nonce, for an amount that is free in the vault, and the nonce moves on. -/
structure Authorised (R : Runtime) (ctx : Context) (bot user : Key)
    (recoverInfo : ED25519RecoverInfo) (amount : UInt64) (s : Accounts)
    (globalAccount : GlobalAccount) (account updated : UserAccount) : Prop where
  configured : s.data globalAddress = .global globalAccount
  botIsConfigured : globalAccount.bot = .key bot
  botSigned : bot ∈ ctx.signers
  registered : s.data (userAddress user) = .user account
  signedByUser : recoverInfo.SignedBy R.toCrypto account.nonce user
  live : ctx.unixTimestamp ≤ recoverInfo.deadline
  free : account.lockedAmount.toNat + amount.toNat ≤ s.balance (vaultAddress user)
  nonceNext : updated.nonce.toNat = account.nonce.toNat + 1

structure LockDone (R : Runtime) (ctx : Context) (a : Lock) (recoverInfo : ED25519RecoverInfo)
    (amount : UInt64) (s s' : Accounts) (globalAccount : GlobalAccount)
    (account updated : UserAccount) : Prop extends
    Authorised R ctx a.bot a.user recoverInfo amount s globalAccount account updated where
  lockedNext : updated.lockedAmount.toNat = account.lockedAmount.toNat + amount.toNat
  unused : s.data (lockAddress a.user account.nonce) = .empty
  data : s'.data = Function.update
    (Function.update s.data (userAddress a.user) (.user updated))
    (lockAddress a.user account.nonce) (.lock ⟨amount⟩)
  rentPaid : ∃ rent, s.Moves s' (.key a.payer) (lockAddress a.user account.nonce) rent

theorem lock_done {a : Lock} {recoverInfo : ED25519RecoverInfo} {amount : UInt64}
    (h : lock R ctx a recoverInfo amount s = .ok s') :
    ∃ globalAccount account updated,
      LockDone R ctx a recoverInfo amount s s' globalAccount account updated := by
  simp only [lock, bind_eq_ok, requireSigner_eq_ok, require_eq_ok, pure_eq_ok, loaded_eq_ok,
    AccountData.global?_eq_some, AccountData.user?_eq_some, customResult_eq_ok, checkedSub_eq_ok,
    checkedAdd_eq_ok] at h
  obtain ⟨globalAccount, hglobal, account, huser, -, hbotSigned, -, -, mid, hinit, -, hglobalAddr,
    -, hbot, -, huserAddr, -, hvaultAddr, u, hverify, available, hsub, -, hle, nonce, hnonce,
    lockedAmount, hlocked, rfl⟩ := h
  cases u
  obtain ⟨hsigned, hlive⟩ := (ED25519RecoverInfo.verify_eq_ok R.toCrypto).mp hverify
  obtain ⟨hfield, hempty, hdata, rent, hrent⟩ := init_eq_ok hinit
  rw [hfield] at hempty hdata hrent
  rw [hglobalAddr] at hglobal
  rw [huserAddr] at huser
  rw [hvaultAddr] at hsub
  have hvault : mid.balance (vaultAddress a.user) = s.balance (vaultAddress a.user) :=
    balance_vault_of_payer_moves hrent vaultAddress_ne_lock.symm
  refine ⟨globalAccount, account, { account with nonce, lockedAmount },
    ⟨⟨hglobal, hbot, hbotSigned, huser, hsigned, hlive, ?_, hnonce⟩, hlocked, hempty, ?_, rent, ?_⟩⟩
  · exact hvault ▸ available_of_checkedSub hsub hle
  · rw [data_setData, data_setData, hdata, huserAddr, hfield,
      Function.update_comm userAddress_ne_lock.symm, Function.update_idem]
  · exact hrent

structure PayDone (R : Runtime) (ctx : Context) (a : Pay) (recoverInfo : ED25519RecoverInfo)
    (amount : UInt64) (s s' : Accounts) (globalAccount : GlobalAccount)
    (account updated : UserAccount) : Prop extends
    Authorised R ctx a.bot a.user recoverInfo amount s globalAccount account updated where
  toTreasury : a.treasury = globalAccount.treasury
  lockedKept : updated.lockedAmount = account.lockedAmount
  data : s'.data = Function.update s.data (userAddress a.user) (.user updated)
  moved : s.Moves s' (vaultAddress a.user) globalAccount.treasury amount.toNat

theorem pay_done {a : Pay} {recoverInfo : ED25519RecoverInfo} {amount : UInt64}
    (h : pay R ctx a recoverInfo amount s = .ok s') :
    ∃ globalAccount account updated,
      PayDone R ctx a recoverInfo amount s s' globalAccount account updated := by
  simp only [pay, bind_eq_ok, requireSigner_eq_ok, require_eq_ok, pure_eq_ok, loaded_eq_ok,
    AccountData.global?_eq_some, AccountData.user?_eq_some, customResult_eq_ok, checkedSub_eq_ok,
    checkedAdd_eq_ok] at h
  obtain ⟨globalAccount, hglobal, account, huser, -, hbotSigned, -, -, -, hglobalAddr, -, hbot, -,
    huserAddr, -, htreasury, -, hvaultAddr, u, hverify, available, hsub, -, hle, mid, htransfer,
    nonce, hnonce, rfl⟩ := h
  cases u
  obtain ⟨hsigned, hlive⟩ := (ED25519RecoverInfo.verify_eq_ok R.toCrypto).mp hverify
  rw [hglobalAddr] at hglobal
  rw [huserAddr] at huser
  rw [hvaultAddr] at hsub htransfer
  rw [htreasury] at htransfer
  obtain ⟨hdata, hmoves⟩ := transfer_eq_ok htransfer
  refine ⟨globalAccount, account, { account with nonce },
    ⟨⟨hglobal, hbot, hbotSigned, huser, hsigned, hlive, available_of_checkedSub hsub hle, hnonce⟩,
      htreasury, rfl, ?_, hmoves⟩⟩
  rw [data_setData, hdata, huserAddr]

structure SettleDone (R : Runtime) (ctx : Context) (a : Settle) (nonce amount : UInt64)
    (s s' : Accounts) (globalAccount : GlobalAccount) (account updated : UserAccount)
    (lockAccount : LockAccount) : Prop where
  configured : s.data globalAddress = .global globalAccount
  botIsConfigured : globalAccount.bot = .key a.bot
  botSigned : a.bot ∈ ctx.signers
  toTreasury : a.treasury = globalAccount.treasury
  registered : s.data (userAddress a.user) = .user account
  opened : s.data (lockAddress a.user nonce) = .lock lockAccount
  atMost : amount.toNat ≤ lockAccount.amount.toNat
  nonceKept : updated.nonce = account.nonce
  lockedNext : updated.lockedAmount.toNat + lockAccount.amount.toNat = account.lockedAmount.toNat
  data : s'.data = Function.update
    (Function.update s.data (lockAddress a.user nonce) .empty)
    (userAddress a.user) (.user updated)
  moved : ∃ mid, s.Moves mid (vaultAddress a.user) globalAccount.treasury amount.toNat ∧
    mid.Moves s' (lockAddress a.user nonce) (.key a.payer)
      (R.minimumBalance (DISCRIMINATOR_SIZE + LockAccount.INIT_SPACE)).toNat

theorem settle_done {a : Settle} {nonce amount : UInt64}
    (h : settle R ctx a nonce amount s = .ok s') :
    ∃ globalAccount account updated lockAccount,
      SettleDone R ctx a nonce amount s s' globalAccount account updated lockAccount := by
  simp only [settle, bind_eq_ok, requireSigner_eq_ok, require_eq_ok, pure_eq_ok, loaded_eq_ok,
    AccountData.global?_eq_some, AccountData.user?_eq_some, AccountData.lock?_eq_some,
    checkedSub_eq_ok] at h
  obtain ⟨globalAccount, hglobal, account, huser, lockAccount, hlock, -, hbotSigned, -, -, -,
    hglobalAddr, -, hbot, -, huserAddr, -, htreasury, -, hlockAddr, -, hvaultAddr, -, hle,
    lockedAmount, hlocked, mid, htransfer, mid', hdebit, closed, hcredit, rfl⟩ := h
  rw [hglobalAddr] at hglobal
  rw [huserAddr] at huser
  rw [hlockAddr] at hlock
  rw [hvaultAddr, htreasury] at htransfer
  obtain ⟨hdata, hmoves⟩ := transfer_eq_ok htransfer
  have hrent : (mid.data a.lockAccount).dataLen = DISCRIMINATOR_SIZE + LockAccount.INIT_SPACE := by
    rw [hdata, hlockAddr, hlock]
    rfl
  rw [hlockAddr] at hrent
  rw [hlockAddr, hrent] at hdebit
  rw [hlockAddr, hrent] at hcredit
  obtain ⟨hdata', hclose⟩ := moves_of_debit_credit hdebit hcredit
  refine ⟨globalAccount, account, { account with lockedAmount }, lockAccount,
    ⟨hglobal, hbot, hbotSigned, htreasury, huser, hlock, UInt64.le_iff_toNat_le.mp hle, rfl,
      hlocked, ?_, mid, hmoves, hclose⟩⟩
  rw [data_setData, data_setData, hdata', hdata, huserAddr, hlockAddr]

end DsProxy.BalancePayment
