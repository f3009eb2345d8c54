import DsProxy.BalancePayment.Solvency
import DsProxy.BalancePayment.Upkeep

/-!
# What is accepted

The handlers subtract before they compare, and abort where a subtraction goes below zero. In every
reachable state none does: the funds that are free decide alone whether a well-formed instruction
succeeds.
-/

namespace DsProxy.BalancePayment

open Accounts Runs Finset

variable {R : Runtime} {ctx : Context} {s s' : Accounts} {u : Key} {account : UserAccount}

/-! ### Exact acceptance -/

/-- The vault's lamports less the user's open locks. -/
def free (s : Accounts) (u : Key) : ℕ :=
  s.balance (vaultAddress u) - ∑ n : UInt64, openAmount s u n

/-- Success under the condition and only then; otherwise the funds are insufficient. -/
def Exactly (result : Except ProgramError Accounts) (condition : Prop) : Prop :=
  ((∃ s', result = .ok s') ↔ condition) ∧
    (¬ condition → result = .error (.custom .insufficientFunds))

theorem exactly_of {result : Except ProgramError Accounts} {condition : Prop}
    (hok : condition → ∃ s', result = .ok s')
    (herror : ¬ condition → result = .error (.custom .insufficientFunds)) :
    Exactly result condition := by
  refine ⟨⟨fun ⟨s', hs'⟩ => ?_, hok⟩, herror⟩
  by_contra hnot
  cases hs'.symm.trans (herror hnot)

theorem ok_bind {α β : Type} (a : α) (f : α → Except ProgramError β) :
    ((.ok a : Except ProgramError α) >>= f) = f a := rfl

theorem error_bind {α β : Type} (error : ProgramError) (f : α → Except ProgramError β) :
    ((.error error : Except ProgramError α) >>= f) = .error error := rfl

theorem requireSigner_ok {k : Key} (h : k ∈ ctx.signers) : ctx.requireSigner k = .ok () :=
  if_pos h

theorem Tracks.locked_le_vault {e : Escrow} (tracks : Tracks s u account e) :
    account.lockedAmount ≤ s.lamports (vaultAddress u) := by
  have hcovered := e.reserved_le_balance
  rw [← tracks.locked, ← tracks.vault] at hcovered
  exact UInt64.le_iff_toNat_le.mpr hcovered

theorem Tracks.toNat_available {e : Escrow} (tracks : Tracks s u account e) :
    (s.lamports (vaultAddress u) - account.lockedAmount).toNat = free s u := by
  rw [UInt64.toNat_sub_of_le _ _ tracks.locked_le_vault, free, ← tracks.sum_open]
  rfl

theorem available_eq {e : Escrow} (tracks : Tracks s u account e) :
    ∃ available, checkedSub (s.lamports (vaultAddress u)) account.lockedAmount = .ok available ∧
      available.toNat = free s u :=
  ⟨_, if_pos tracks.locked_le_vault, tracks.toNat_available⟩

theorem le_vault_of_le_free {amount : ℕ} (h : amount ≤ free s u) :
    amount ≤ s.balance (vaultAddress u) :=
  h.trans (Nat.sub_le _ _)

/-- The user's next nonce is a `u64` too. -/
def NonceBelow (s : Accounts) (u : Key) : Prop :=
  ∀ {account}, s.data (userAddress u) = .user account → account.nonce.toNat < 2 ^ 64 - 1

theorem NonceBelow.next (h : NonceBelow s u) (huser : s.data (userAddress u) = .user account) :
    checkedAdd account.nonce 1 = .ok (account.nonce + 1) := by
  apply if_pos
  show account.nonce.toNat + 1 < 2 ^ 64
  have hlt := h huser
  omega

/-- A user's own accounts, signed for. -/
structure OwnerAccounts.Right (ctx : Context) (a : OwnerAccounts) : Prop where
  userAccount : a.userAccount = userAddress a.user
  vault : a.vault = vaultAddress a.user
  signed : a.user ∈ ctx.signers
  payerSigned : a.payer ∈ ctx.signers

theorem tryAccounts_ok {a : OwnerAccounts} (right : a.Right ctx)
    (huser : s.data (userAddress a.user) = .user account) : a.tryAccounts ctx s = .ok account := by
  simp only [OwnerAccounts.tryAccounts, right.userAccount, huser, AccountData.user?, loaded,
    Option.elim_some, ok_bind, requireSigner_ok right.signed, requireSigner_ok right.payerSigned,
    require_ok right.vault]
  rfl

theorem withdraw_exactly {a : Withdraw} {e : Escrow} (amount : UInt64) (kept : WellKept R s)
    (hsupply : SupplyBelow s) (right : a.Right ctx) (tracks : Tracks s a.user account e) :
    Exactly (withdraw ctx a amount s) (amount.toNat ≤ free s a.user) := by
  obtain ⟨available, hsub, havailable⟩ := available_eq tracks
  have htry := tryAccounts_ok right tracks.user
  rw [← right.vault] at hsub
  rw [withdraw, htry, ok_bind, hsub, ok_bind]
  refine exactly_of (fun hle => ?_) (fun hnot => ?_)
  · have hle' : amount ≤ available := UInt64.le_iff_toNat_le.mpr (havailable ▸ hle)
    rw [require_ok hle', ok_bind, right.vault]
    exact transfer_ok hsupply _ (kept.vaults _) (le_vault_of_le_free hle)
  · have hnot' : ¬ amount ≤ available := fun h =>
      hnot (havailable ▸ UInt64.le_iff_toNat_le.mp h)
    rw [require_error hnot', error_bind]

/-- The accounts of a user as the configured bot passes them to `pay`. -/
structure Pay.Right (ctx : Context) (s : Accounts) (a : Pay) (globalAccount : GlobalAccount) :
    Prop where
  configured : s.data globalAddress = .global globalAccount
  bot : globalAccount.bot = .key a.bot
  treasury : a.treasury = globalAccount.treasury
  globalAccount : a.globalAccount = globalAddress
  userAccount : a.userAccount = userAddress a.user
  vault : a.vault = vaultAddress a.user
  signed : a.bot ∈ ctx.signers
  payerSigned : a.payer ∈ ctx.signers

theorem pay_eq {a : Pay} {globalAccount : GlobalAccount} {recoverInfo : ED25519RecoverInfo}
    {amount : UInt64} (right : a.Right ctx s globalAccount)
    (huser : s.data (userAddress a.user) = .user account) :
    pay R ctx a recoverInfo amount s = (do
      customResult (recoverInfo.verify R.toCrypto ctx.unixTimestamp account.nonce a.user)
      let available ← checkedSub (s.lamports (vaultAddress a.user)) account.lockedAmount
      require (amount ≤ available) (.custom .insufficientFunds)
      let s ← s.transfer (vaultAddress a.user) a.treasury amount
      let nonce ← checkedAdd account.nonce 1
      return s.setData (userAddress a.user) (.user { account with nonce })) := by
  simp only [pay, right.globalAccount, right.userAccount, right.vault, right.configured, huser,
    AccountData.global?, AccountData.user?, loaded, Option.elim_some, ok_bind,
    requireSigner_ok right.signed, requireSigner_ok right.payerSigned, require_ok right.bot,
    require_ok right.treasury, require_ok trivial]

theorem pay_exactly {a : Pay} {globalAccount : GlobalAccount} {recoverInfo : ED25519RecoverInfo}
    {e : Escrow} (amount : UInt64) (kept : WellKept R s) (hsupply : SupplyBelow s)
    (right : a.Right ctx s globalAccount) (tracks : Tracks s a.user account e)
    (hnonce : NonceBelow s a.user)
    (hverify : recoverInfo.verify R.toCrypto ctx.unixTimestamp account.nonce a.user = .ok ()) :
    Exactly (pay R ctx a recoverInfo amount s) (amount.toNat ≤ free s a.user) := by
  obtain ⟨available, hsub, havailable⟩ := available_eq tracks
  rw [pay_eq right tracks.user, customResult_eq_ok.mpr hverify, ok_bind, hsub, ok_bind]
  refine exactly_of (fun hle => ?_) (fun hnot => ?_)
  · have hle' : amount ≤ available := UInt64.le_iff_toNat_le.mpr (havailable ▸ hle)
    obtain ⟨paid, hpaid⟩ := transfer_ok hsupply a.treasury (kept.vaults _) (le_vault_of_le_free hle)
    rw [require_ok hle', ok_bind, hpaid, ok_bind, hnonce.next tracks.user]
    exact ⟨_, rfl⟩
  · have hnot' : ¬ amount ≤ available := fun h =>
      hnot (havailable ▸ UInt64.le_iff_toNat_le.mp h)
    rw [require_error hnot', error_bind]

/-- The accounts of a user as the configured bot passes them to `lock`. -/
structure Lock.Right (ctx : Context) (s : Accounts) (a : Lock) (globalAccount : GlobalAccount)
    (account : UserAccount) : Prop where
  configured : s.data globalAddress = .global globalAccount
  bot : globalAccount.bot = .key a.bot
  globalAccount : a.globalAccount = globalAddress
  userAccount : a.userAccount = userAddress a.user
  lockAccount : a.lockAccount = lockAddress a.user account.nonce
  vault : a.vault = vaultAddress a.user
  signed : a.bot ∈ ctx.signers
  payerSigned : a.payer ∈ ctx.signers

/-- The payer can pay the rent of a lock account. -/
def CanPayRent (R : Runtime) (s : Accounts) (a : Lock) : Prop :=
  ∃ s', s.payRent R.minimumBalance a.payer a.lockAccount
    (DISCRIMINATOR_SIZE + LockAccount.INIT_SPACE) = .ok s'

theorem Tracks.next_empty {e : Escrow} (tracks : Tracks s u account e) :
    s.data (lockAddress u account.nonce) = .empty := by
  have hholds := tracks.locks account.nonce
  rwa [tracks.nonce, e.fresh e.next le_rfl] at hholds

theorem lock_eq {a : Lock} {globalAccount : GlobalAccount} {e : Escrow}
    (right : a.Right ctx s globalAccount account) (tracks : Tracks s a.user account e)
    (hrent : CanPayRent R s a) : ∃ mid, ∀ recoverInfo amount,
    lock R ctx a recoverInfo amount s = (do
      customResult (recoverInfo.verify R.toCrypto ctx.unixTimestamp account.nonce a.user)
      let available ← checkedSub (s.lamports (vaultAddress a.user)) account.lockedAmount
      require (amount ≤ available) (.custom .insufficientFunds)
      let nonce ← checkedAdd account.nonce 1
      let lockedAmount ← checkedAdd account.lockedAmount amount
      let s := Accounts.setData mid (userAddress a.user)
        (.user { account with nonce, lockedAmount })
      return s.setData a.lockAccount (.lock ⟨amount⟩)) := by
  obtain ⟨mid, hinit⟩ : ∃ mid, s.init R.minimumBalance a.payer a.lockAccount
      (lockAddress a.user account.nonce) (.lock ⟨0⟩) = .ok mid := by
    obtain ⟨paid, hpaid⟩ := hrent
    have hempty : paid.data a.lockAccount = .empty := by
      rw [(payRent_eq_ok hpaid).1, right.lockAccount, tracks.next_empty]
    rw [init, require_ok right.lockAccount, ok_bind]
    show ∃ mid, (s.payRent R.minimumBalance a.payer a.lockAccount
      (DISCRIMINATOR_SIZE + LockAccount.INIT_SPACE) >>= _) = _
    rw [hpaid, ok_bind, require_ok hempty]
    exact ⟨_, rfl⟩
  obtain ⟨-, -, -, rent, hmoves⟩ := init_eq_ok hinit
  have hlamports : mid.lamports (vaultAddress a.user) = s.lamports (vaultAddress a.user) :=
    UInt64.toNat_inj.mp (balance_vault_of_payer_moves hmoves
      (right.lockAccount ▸ vaultAddress_ne_lock.symm))
  refine ⟨mid, fun recoverInfo amount => ?_⟩
  simp only [lock, right.globalAccount, right.userAccount, right.vault, right.configured,
    tracks.user, AccountData.global?, AccountData.user?, loaded, Option.elim_some, ok_bind,
    requireSigner_ok right.signed, requireSigner_ok right.payerSigned, require_ok right.bot,
    require_ok trivial, hinit, hlamports]

theorem lock_exactly {a : Lock} {globalAccount : GlobalAccount} {recoverInfo : ED25519RecoverInfo}
    {e : Escrow} (amount : UInt64) (right : a.Right ctx s globalAccount account)
    (tracks : Tracks s a.user account e) (hrent : CanPayRent R s a) (hnonce : NonceBelow s a.user)
    (hverify : recoverInfo.verify R.toCrypto ctx.unixTimestamp account.nonce a.user = .ok ()) :
    Exactly (lock R ctx a recoverInfo amount s) (amount.toNat ≤ free s a.user) := by
  obtain ⟨available, hsub, havailable⟩ := available_eq tracks
  obtain ⟨mid, hlock⟩ := lock_eq right tracks hrent
  rw [hlock, customResult_eq_ok.mpr hverify, ok_bind, hsub, ok_bind]
  refine exactly_of (fun hle => ?_) (fun hnot => ?_)
  · have hle' : amount ≤ available := UInt64.le_iff_toNat_le.mpr (havailable ▸ hle)
    have hlocked : checkedAdd account.lockedAmount amount =
        .ok (account.lockedAmount + amount) := by
      apply if_pos
      have hvault := (s.lamports (vaultAddress a.user)).toNat_lt
      have hsum := checkedSub_eq_ok.mp hsub
      have hfree := UInt64.le_iff_toNat_le.mp hle'
      omega
    rw [require_ok hle', ok_bind, hnonce.next tracks.user, ok_bind, hlocked]
    exact ⟨_, rfl⟩
  · have hnot' : ¬ amount ≤ available := fun h =>
      hnot (havailable ▸ UInt64.le_iff_toNat_le.mp h)
    rw [require_error hnot', error_bind]

/-- The accounts of a user's lock as the configured bot passes them to `settle`. -/
structure Settle.Right (ctx : Context) (s : Accounts) (a : Settle) (globalAccount : GlobalAccount)
    (nonce : UInt64) : Prop where
  configured : s.data globalAddress = .global globalAccount
  bot : globalAccount.bot = .key a.bot
  treasury : a.treasury = globalAccount.treasury
  globalAccount : a.globalAccount = globalAddress
  userAccount : a.userAccount = userAddress a.user
  lockAccount : a.lockAccount = lockAddress a.user nonce
  vault : a.vault = vaultAddress a.user
  signed : a.bot ∈ ctx.signers
  payerSigned : a.payer ∈ ctx.signers

/-- An open lock is part of what is locked, and so of what the vault holds. -/
theorem Tracks.lock_le {e : Escrow} (tracks : Tracks s u account e) {nonce : UInt64}
    {lockAccount : LockAccount} (hlock : s.data (lockAddress u nonce) = .lock lockAccount) :
    lockAccount.amount.toNat ≤ account.lockedAmount.toNat ∧
      account.lockedAmount.toNat ≤ s.balance (vaultAddress u) := by
  have hheld := holds_lock.mp (hlock ▸ tracks.locks nonce)
  have hreserved := Escrow.reserved_settle hheld (Nat.zero_le _)
  have hcovered := e.reserved_le_balance
  rw [tracks.locked, tracks.vault]
  omega

theorem close_ok {field : Pubkey} {rent : UInt64} (payer : Key) (hsupply : SupplyBelow s)
    (hrent : rent.toNat ≤ s.balance field) (user : Pubkey) (closed : AccountData) :
    ∃ s', (do
      let s ← s.debit field rent
      let s ← s.credit (.key payer) rent
      let s := s.setData field .empty
      return s.setData user closed : Except ProgramError Accounts) = .ok s' := by
  obtain ⟨mid, last, hdebit, hcredit⟩ := debit_credit_ok hsupply (.key payer) hrent
  rw [hdebit, ok_bind, hcredit, ok_bind]
  exact ⟨_, rfl⟩

theorem settle_exactly {a : Settle} {globalAccount : GlobalAccount} {nonce : UInt64}
    {lockAccount : LockAccount} {e : Escrow} (amount : UInt64) (kept : WellKept R s)
    (hsupply : SupplyBelow s) (right : a.Right ctx s globalAccount nonce)
    (tracks : Tracks s a.user account e)
    (hlock : s.data (lockAddress a.user nonce) = .lock lockAccount) :
    Exactly (settle R ctx a nonce amount s) (amount ≤ lockAccount.amount) := by
  obtain ⟨hlocked, hvault⟩ := tracks.lock_le hlock
  have hsub : checkedSub account.lockedAmount lockAccount.amount =
      .ok (account.lockedAmount - lockAccount.amount) :=
    if_pos (UInt64.le_iff_toNat_le.mpr hlocked)
  simp only [settle, right.globalAccount, right.userAccount, right.lockAccount, right.vault,
    right.configured, tracks.user, hlock, AccountData.global?, AccountData.user?,
    AccountData.lock?, loaded, Option.elim_some, ok_bind, requireSigner_ok right.signed,
    requireSigner_ok right.payerSigned, require_ok right.bot, require_ok right.treasury,
    require_ok trivial]
  refine exactly_of (fun hle => ?_) (fun hnot => ?_)
  · have hle' := UInt64.le_iff_toNat_le.mp hle
    obtain ⟨mid, hpaid⟩ := transfer_ok hsupply a.treasury (kept.vaults a.user)
      (hle'.trans (hlocked.trans hvault))
    obtain ⟨hdata, hmoves⟩ := transfer_eq_ok hpaid
    have hlen : (mid.data (lockAddress a.user nonce)).dataLen =
        DISCRIMINATOR_SIZE + LockAccount.INIT_SPACE := by
      rw [hdata, hlock]
      rfl
    have hrent : lockRent R ≤ mid.balance (lockAddress a.user nonce) :=
      (kept.rents hlock).trans (Moves.le_of_ne_source hmoves vaultAddress_ne_lock.symm)
    rw [require_ok hle, ok_bind, hsub, ok_bind, hpaid, ok_bind, hlen]
    exact close_ok a.payer (hsupply.of_moves hmoves) hrent _ _
  · rw [require_error hnot, error_bind]

/-! ### No panic -/

/-- No error of this kind comes out. -/
def Never {α : Type} (bad : ProgramError → Prop) (result : Except ProgramError α) : Prop :=
  ∀ error, result = .error error → ¬ bad error

section Never

variable {α β : Type} {bad : ProgramError → Prop}

theorem never_ok (a : α) : Never bad (.ok a : Except ProgramError α) := fun _ h => by cases h

theorem never_of_ok {result : Except ProgramError α} (h : ∃ a, result = .ok a) :
    Never bad result := by
  obtain ⟨a, rfl⟩ := h
  exact never_ok a

theorem never_error {error : ProgramError} (h : ¬ bad error) :
    Never bad (.error error : Except ProgramError α) := by
  intro error' herror
  cases herror
  exact h

theorem Never.bind {x : Except ProgramError α} {f : α → Except ProgramError β}
    (hx : Never bad x) (hf : ∀ a, x = .ok a → Never bad (f a)) : Never bad (x >>= f) := by
  cases x with
  | error error => exact never_error (hx error rfl)
  | ok a => exact hf a rfl

theorem never_require {condition : Prop} [Decidable condition] {error : ProgramError}
    (h : ¬ bad error) : Never bad (require condition error) := by
  unfold require
  split_ifs
  · exact never_ok _
  · exact never_error h

end Never

/-- The checked arithmetic does not abort. -/
abbrev NoPanic {α : Type} (result : Except ProgramError α) : Prop :=
  Never (· = .arithmeticPanic) result

section NoPanic

variable {α : Type}

theorem noPanic_loaded (account : Option α) : NoPanic (loaded account) := by
  cases account with
  | none => exact never_error (by decide)
  | some a => exact never_ok a

theorem noPanic_customResult (result : Except CustomError α) : NoPanic (customResult result) := by
  cases result with
  | error error => exact never_error ProgramError.noConfusion
  | ok a => exact never_ok a

theorem noPanic_transfer (hsupply : SupplyBelow s) (source dest : Pubkey) (amount : UInt64) :
    NoPanic (s.transfer source dest amount) := by
  apply Never.bind (never_require (by decide))
  intro _ _
  apply Never.bind (never_require (by decide))
  intro _ hle
  obtain ⟨mid, s', hdebit, hcredit⟩ := debit_credit_ok hsupply dest
    (UInt64.le_iff_toNat_le.mp (require_eq_ok.mp hle))
  refine never_of_ok ⟨s', ?_⟩
  rw [hdebit]
  exact hcredit

theorem noPanic_init (hsupply : SupplyBelow s) (minimumBalance : ℕ → UInt64) (payer : Key)
    (field expected : Pubkey) (value : AccountData) :
    NoPanic (s.init minimumBalance payer field expected value) := by
  refine Never.bind (never_require (by decide)) fun _ _ => Never.bind ?_ fun _ _ =>
    Never.bind (never_require (by decide)) fun _ _ => never_ok _
  unfold payRent
  split_ifs
  · exact noPanic_transfer hsupply _ _ _
  · exact noPanic_transfer hsupply _ _ _
  · exact never_ok _

end NoPanic

/-- What the handlers may rely on in a reachable state. -/
structure Orderly (R : Runtime) (s : Accounts) : Prop where
  kept : WellKept R s
  tracks : ∀ {u account}, s.data (userAddress u) = .user account → ∃ e, Tracks s u account e
  supply : SupplyBelow s

theorem withdraw_noPanic (h : Orderly R s) (a : Withdraw) (amount : UInt64) :
    NoPanic (withdraw ctx a amount s) := by
  have htry : NoPanic (a.tryAccounts ctx s) :=
    Never.bind (noPanic_loaded _) fun _ _ =>
    Never.bind (never_require (by decide)) fun _ _ =>
    Never.bind (never_require (by decide)) fun _ _ =>
    Never.bind (never_require (by decide)) fun _ _ =>
    Never.bind (never_require (by decide)) fun _ _ => never_ok _
  apply Never.bind htry
  intro account hok
  obtain ⟨-, huser, hvault⟩ := tryAccounts_eq_ok hok
  obtain ⟨e, tracks⟩ := h.tracks huser
  obtain ⟨available, hsub, -⟩ := available_eq tracks
  apply Never.bind (never_of_ok ⟨available, hvault ▸ hsub⟩)
  intro _ _
  apply Never.bind (never_require (by decide))
  intro _ _
  exact noPanic_transfer h.supply _ _ _

theorem registered_of_loaded {field : Pubkey} {done : Unit}
    (hok : loaded (s.data field).user? = .ok account)
    (haddr : require (field = userAddress u) .constraintSeeds = .ok done) :
    s.data (userAddress u) = .user account := by
  rw [← require_eq_ok.mp haddr]
  exact AccountData.user?_eq_some.mp (loaded_eq_ok.mp hok)

theorem pay_noPanic (h : Orderly R s) (a : Pay) (hnonce : NonceBelow s a.user)
    (recoverInfo : ED25519RecoverInfo) (amount : UInt64) :
    NoPanic (pay R ctx a recoverInfo amount s) := by
  refine Never.bind (noPanic_loaded _) fun _ _ => Never.bind (noPanic_loaded _) fun account hok =>
    Never.bind (never_require (by decide)) fun _ _ =>
    Never.bind (never_require (by decide)) fun _ _ =>
    Never.bind (never_require (by decide)) fun _ _ =>
    Never.bind (never_require (by decide)) fun _ _ =>
    Never.bind (never_require (by decide)) fun _ haddr =>
    Never.bind (never_require (by decide)) fun _ _ =>
    Never.bind (never_require (by decide)) fun _ hvault =>
    Never.bind (noPanic_customResult _) fun _ _ => ?_
  have huser := registered_of_loaded hok haddr
  obtain ⟨e, tracks⟩ := h.tracks huser
  obtain ⟨available, hsub, -⟩ := available_eq tracks
  apply Never.bind (never_of_ok ⟨available, require_eq_ok.mp hvault ▸ hsub⟩)
  intro _ _
  apply Never.bind (never_require (by decide))
  intro _ _
  apply Never.bind (noPanic_transfer h.supply _ _ _)
  intro _ _
  exact Never.bind (never_of_ok ⟨_, hnonce.next huser⟩) fun _ _ => never_ok _

theorem lock_noPanic (h : Orderly R s) (a : Lock) (hnonce : NonceBelow s a.user)
    (recoverInfo : ED25519RecoverInfo) (amount : UInt64) :
    NoPanic (lock R ctx a recoverInfo amount s) := by
  refine Never.bind (noPanic_loaded _) fun _ _ => Never.bind (noPanic_loaded _) fun account hok =>
    Never.bind (never_require (by decide)) fun _ _ =>
    Never.bind (never_require (by decide)) fun _ _ =>
    Never.bind (noPanic_init h.supply _ _ _ _ _) fun mid hinit =>
    Never.bind (never_require (by decide)) fun _ _ =>
    Never.bind (never_require (by decide)) fun _ _ =>
    Never.bind (never_require (by decide)) fun _ haddr =>
    Never.bind (never_require (by decide)) fun _ hvault =>
    Never.bind (noPanic_customResult _) fun _ _ => ?_
  have huser := registered_of_loaded hok haddr
  obtain ⟨e, tracks⟩ := h.tracks huser
  obtain ⟨available, hsub, -⟩ := available_eq tracks
  obtain ⟨hfield, -, -, rent, hmoves⟩ := init_eq_ok hinit
  have hlamports : mid.lamports a.vault = s.lamports (vaultAddress a.user) := by
    rw [require_eq_ok.mp hvault]
    exact UInt64.toNat_inj.mp (balance_vault_of_payer_moves hmoves
      (hfield ▸ vaultAddress_ne_lock.symm))
  apply Never.bind (never_of_ok ⟨available, hlamports ▸ hsub⟩)
  intro _ hok'
  apply Never.bind (never_require (by decide))
  intro _ hle
  apply Never.bind (never_of_ok ⟨_, hnonce.next huser⟩)
  intro _ _
  refine Never.bind (never_of_ok ⟨_, if_pos ?_⟩) fun _ _ => never_ok _
  have hsum := checkedSub_eq_ok.mp hok'
  have hfree := UInt64.le_iff_toNat_le.mp (require_eq_ok.mp hle)
  have hlt := (mid.lamports a.vault).toNat_lt
  omega

theorem settle_noPanic (h : Orderly R s) (a : Settle) (nonce amount : UInt64) :
    NoPanic (settle R ctx a nonce amount s) := by
  refine Never.bind (noPanic_loaded _) fun _ _ => Never.bind (noPanic_loaded _) fun account hok =>
    Never.bind (noPanic_loaded _) fun lockAccount hopen =>
    Never.bind (never_require (by decide)) fun _ _ =>
    Never.bind (never_require (by decide)) fun _ _ =>
    Never.bind (never_require (by decide)) fun _ _ =>
    Never.bind (never_require (by decide)) fun _ _ =>
    Never.bind (never_require (by decide)) fun _ haddr =>
    Never.bind (never_require (by decide)) fun _ _ =>
    Never.bind (never_require (by decide)) fun _ hfield =>
    Never.bind (never_require (by decide)) fun _ hvault =>
    Never.bind (never_require (by decide)) fun _ _ => ?_
  have huser := registered_of_loaded hok haddr
  have hlock : s.data (lockAddress a.user nonce) = .lock lockAccount := by
    rw [← require_eq_ok.mp hfield]
    exact AccountData.lock?_eq_some.mp (loaded_eq_ok.mp hopen)
  obtain ⟨e, tracks⟩ := h.tracks huser
  refine Never.bind (never_of_ok ⟨_, if_pos (UInt64.le_iff_toNat_le.mpr
    (tracks.lock_le hlock).1)⟩) fun _ _ => ?_
  apply Never.bind (noPanic_transfer h.supply _ _ _)
  intro mid hpaid
  obtain ⟨hdata, hmoves⟩ := transfer_eq_ok hpaid
  have hlen : (mid.data a.lockAccount).dataLen = DISCRIMINATOR_SIZE + LockAccount.INIT_SPACE := by
    rw [hdata, require_eq_ok.mp hfield, hlock]
    rfl
  have hrent : lockRent R ≤ mid.balance a.lockAccount := by
    rw [require_eq_ok.mp hfield]
    refine (h.kept.rents hlock).trans (Moves.le_of_ne_source hmoves ?_)
    exact require_eq_ok.mp hvault ▸ vaultAddress_ne_lock.symm
  rw [hlen]
  exact never_of_ok (close_ok a.payer (h.supply.of_moves hmoves) hrent _ _)

/-! ### Every reachable state -/

theorem run_orderly {s₀ : Accounts} (h₀ : Uninitialised s₀) {ops : List Op}
    (hsupply : SupplyBelow ((system R).run s₀ ops)) : Orderly R ((system R).run s₀ ops) :=
  ⟨run_wellKept h₀ ops, fun huser => run_tracks h₀ huser, hsupply⟩

/-- Which amounts the handlers accept, and that their arithmetic never panics. -/
structure ExactlyAccepted (R : Runtime) (s : Accounts) : Prop where
  withdraws : ∀ {ctx a account} (amount : UInt64), a.Right ctx →
    s.data (userAddress a.user) = .user account →
    Exactly (withdraw ctx a amount s) (amount.toNat ≤ free s a.user)
  pays : ∀ {ctx a globalAccount account recoverInfo} (amount : UInt64),
    a.Right ctx s globalAccount → s.data (userAddress a.user) = .user account →
    NonceBelow s a.user →
    recoverInfo.verify R.toCrypto ctx.unixTimestamp account.nonce a.user = .ok () →
    Exactly (pay R ctx a recoverInfo amount s) (amount.toNat ≤ free s a.user)
  locks : ∀ {ctx a globalAccount account recoverInfo} (amount : UInt64),
    a.Right ctx s globalAccount account → s.data (userAddress a.user) = .user account →
    CanPayRent R s a → NonceBelow s a.user →
    recoverInfo.verify R.toCrypto ctx.unixTimestamp account.nonce a.user = .ok () →
    Exactly (lock R ctx a recoverInfo amount s) (amount.toNat ≤ free s a.user)
  settles : ∀ {ctx a globalAccount account nonce lockAccount} (amount : UInt64),
    a.Right ctx s globalAccount nonce → s.data (userAddress a.user) = .user account →
    s.data (lockAddress a.user nonce) = .lock lockAccount →
    Exactly (settle R ctx a nonce amount s) (amount ≤ lockAccount.amount)
  withdraw_noPanic : ∀ ctx a amount, NoPanic (withdraw ctx a amount s)
  pay_noPanic : ∀ ctx a recoverInfo amount, NonceBelow s a.user →
    NoPanic (pay R ctx a recoverInfo amount s)
  lock_noPanic : ∀ ctx a recoverInfo amount, NonceBelow s a.user →
    NoPanic (lock R ctx a recoverInfo amount s)
  settle_noPanic : ∀ ctx a nonce amount, NoPanic (settle R ctx a nonce amount s)

/-- In every reachable state the free funds, or the open lock, decide what is accepted. -/
theorem exactly_accepted {s₀ : Accounts} (h₀ : Uninitialised s₀) (ops : List Op)
    (hsupply : SupplyBelow ((system R).run s₀ ops)) :
    ExactlyAccepted R ((system R).run s₀ ops) := by
  have h := run_orderly h₀ hsupply
  exact {
    withdraws amount right huser := by
      obtain ⟨e, tracks⟩ := h.tracks huser
      exact withdraw_exactly amount h.kept h.supply right tracks
    pays amount right huser hnonce hverify := by
      obtain ⟨e, tracks⟩ := h.tracks huser
      exact pay_exactly amount h.kept h.supply right tracks hnonce hverify
    locks amount right huser hrent hnonce hverify := by
      obtain ⟨e, tracks⟩ := h.tracks huser
      exact lock_exactly amount right tracks hrent hnonce hverify
    settles amount right huser hlock := by
      obtain ⟨e, tracks⟩ := h.tracks huser
      exact settle_exactly amount h.kept h.supply right tracks hlock
    withdraw_noPanic _ a amount := BalancePayment.withdraw_noPanic h a amount
    pay_noPanic _ a recoverInfo amount hnonce :=
      BalancePayment.pay_noPanic h a hnonce recoverInfo amount
    lock_noPanic _ a recoverInfo amount hnonce :=
      BalancePayment.lock_noPanic h a hnonce recoverInfo amount
    settle_noPanic _ a nonce amount := BalancePayment.settle_noPanic h a nonce amount }

theorem exactly_accepted_sample :
    ExactlyAccepted Sample.runtime ((system Sample.runtime).run Sample.start Sample.ops) :=
  exactly_accepted (fun _ => rfl) Sample.ops (Sample.run_supply 5)

end DsProxy.BalancePayment
