import DsProxy.BalancePayment.Acceptance

/-!
# Rent

The program computes a rent in one place only, where `settle` closes a lock by hand, and there it
moves the minimum for the account's size and not what the account holds. Debits of a vault look at
the locked amount alone, so whether what stays in the vault is exempt from rent is left to the
runtime.
-/

namespace DsProxy.BalancePayment

open Accounts Runs

variable {R : Runtime} {ctx : Context} {s s' : Accounts} {op : Op} {u : Key} {n : UInt64}

/-! ### What a closed lock leaves behind -/

/-- The lock address is as if it had never been used, and the payer has what it held. -/
structure Emptied (a : Settle) (nonce amount : UInt64) (s s' : Accounts) : Prop where
  balance : s'.balance (lockAddress a.user nonce) = 0
  data : s'.data (lockAddress a.user nonce) = .empty
  toPayer : s'.balance (.key a.payer) = s.balance (.key a.payer) +
    s.balance (lockAddress a.user nonce) + if a.treasury = .key a.payer then amount.toNat else 0

/-- The lock holds its rent and nothing else, and the settle itself adds nothing to it. -/
def HoldsRentOnly (R : Runtime) (s : Accounts) (a : Settle) (nonce amount : UInt64) : Prop :=
  s.balance (lockAddress a.user nonce) = lockRent R ∧
    (a.treasury = lockAddress a.user nonce → amount = 0)

theorem SettleDone.lock_balance {a : Settle} {nonce amount : UInt64} {globalAccount : GlobalAccount}
    {account updated : UserAccount} {lockAccount : LockAccount}
    (done : SettleDone R ctx a nonce amount s s' globalAccount account updated lockAccount) :
    s'.balance (lockAddress a.user nonce) + lockRent R = s.balance (lockAddress a.user nonce) +
      if a.treasury = lockAddress a.user nonce then amount.toNat else 0 := by
  obtain ⟨mid, hpaid, hclosed⟩ := done.moved
  have hpaid := hpaid (lockAddress a.user nonce)
  have hclosed := hclosed (lockAddress a.user nonce)
  rw [if_neg vaultAddress_ne_lock.symm, ← done.toTreasury, Nat.add_zero] at hpaid
  rw [if_pos rfl, if_neg Pubkey.noConfusion, Nat.add_zero] at hclosed
  rw [lockRent, hclosed, hpaid]
  simp only [eq_comm]

theorem SettleDone.payer_balance {a : Settle} {nonce amount : UInt64}
    {globalAccount : GlobalAccount} {account updated : UserAccount} {lockAccount : LockAccount}
    (done : SettleDone R ctx a nonce amount s s' globalAccount account updated lockAccount) :
    s'.balance (.key a.payer) = s.balance (.key a.payer) + lockRent R +
      if a.treasury = .key a.payer then amount.toNat else 0 := by
  obtain ⟨mid, hpaid, hclosed⟩ := done.moved
  have hpaid := hpaid (.key a.payer)
  have hclosed := hclosed (.key a.payer)
  rw [if_neg key_ne_vault, ← done.toTreasury, Nat.add_zero] at hpaid
  rw [if_neg Pubkey.noConfusion, if_pos rfl, Nat.add_zero] at hclosed
  rw [hclosed, hpaid, lockRent]
  simp only [eq_comm (a := Pubkey.key a.payer)]
  omega

theorem SettleDone.lock_data {a : Settle} {nonce amount : UInt64} {globalAccount : GlobalAccount}
    {account updated : UserAccount} {lockAccount : LockAccount}
    (done : SettleDone R ctx a nonce amount s s' globalAccount account updated lockAccount) :
    s'.data (lockAddress a.user nonce) = .empty := by
  rw [done.data, Function.update_of_ne userAddress_ne_lock.symm, Function.update_self]

/-- An accepted settle clears the lock address exactly when the lock held its rent and no more. -/
theorem settle_empties_iff {s₀ : Accounts} (h₀ : Uninitialised s₀) (ops : List Op) {a : Settle}
    {nonce amount : UInt64}
    (hstep : (system R).step ((system R).run s₀ ops) (.invoke ctx (.settle a nonce amount)) =
      some s') :
    Emptied a nonce amount ((system R).run s₀ ops) s' ↔
      HoldsRentOnly R ((system R).run s₀ ops) a nonce amount := by
  have kept : WellKept R ((system R).run s₀ ops) := run_wellKept h₀ ops
  generalize (system R).run s₀ ops = s at *
  obtain ⟨globalAccount, account, updated, lockAccount, done⟩ :=
    settle_done (toOption_eq_some hstep)
  have hrent := kept.rents done.opened
  have hlock := done.lock_balance
  have hpayer := done.payer_balance
  constructor
  · intro emptied
    have htoPayer := emptied.toPayer
    rw [emptied.balance] at hlock
    refine ⟨by omega, fun hsame => ?_⟩
    rw [if_pos hsame] at hlock
    apply UInt64.toNat_inj.mp
    show amount.toNat = 0
    omega
  · rintro ⟨hholds, hnothing⟩
    refine ⟨?_, done.lock_data, by rw [hpayer, hholds]⟩
    by_cases hsame : a.treasury = lockAddress a.user nonce
    · rw [if_pos hsame, hnothing hsame, hholds] at hlock
      exact Nat.add_right_cancel (hlock.trans (Nat.add_comm _ _))
    · rw [if_neg hsame, hholds] at hlock
      omega

/-! ### Runs in which nobody sends lamports to a lock -/

/-- Nothing but a lock's own rent goes to a lock address. -/
def Op.SparesLocks : Op → Prop
  | .transferIn dest _ => ∀ u n, dest ≠ lockAddress u n
  | .invoke _ (.settle a _ _) => ∀ u n, a.treasury ≠ lockAddress u n
  | .invoke _ (.pay a _ _) => ∀ u n, a.treasury ≠ lockAddress u n
  | _ => True

/-- Open locks hold their rent, all other lock addresses nothing. -/
def LocksHoldRent (R : Runtime) (s : Accounts) : Prop :=
  ∀ u n, s.balance (lockAddress u n) =
    if s.data (lockAddress u n) = .empty then 0 else lockRent R

theorem rent_of_payRent_fresh {minimumBalance : ℕ → UInt64} {payer : Key} {field : Pubkey}
    {space : ℕ} (hfield : field ≠ .key payer) (hfresh : s.balance field = 0)
    (h : s.payRent minimumBalance payer field space = .ok s') :
    s'.balance field = (minimumBalance space).toNat := by
  have hzero : s.lamports field = 0 := UInt64.toNat_inj.mp hfresh
  rw [payRent, if_pos hzero] at h
  have hmoved := (transfer_eq_ok h).2 field
  rwa [if_neg hfield, if_pos rfl, hfresh, Nat.zero_add, Nat.add_zero] at hmoved

theorem rent_of_lock_fresh {a : Lock} {recoverInfo : ED25519RecoverInfo} {amount : UInt64}
    {account : UserAccount} (h : lock R ctx a recoverInfo amount s = .ok s')
    (huser : s.data (userAddress a.user) = .user account)
    (hfresh : s.balance (lockAddress a.user account.nonce) = 0) :
    s'.balance (lockAddress a.user account.nonce) = lockRent R := by
  obtain ⟨paid, hpaid, hbalance⟩ := paid_of_lock h huser
  rw [hbalance]
  exact rent_of_payRent_fresh Pubkey.noConfusion hfresh hpaid

theorem LocksHoldRent.step (hspares : op.SparesLocks) (h : LocksHoldRent R s)
    (hstep : (system R).step s op = some s') : LocksHoldRent R s' := by
  intro u n
  have hsame (hdata : s'.data (lockAddress u n) = s.data (lockAddress u n))
      (hbalance : s'.balance (lockAddress u n) = s.balance (lockAddress u n)) :
      s'.balance (lockAddress u n) =
        if s'.data (lockAddress u n) = .empty then 0 else lockRent R := by
    rw [hbalance, hdata]
    exact h u n
  have hkey (k : Key) : lockAddress u n ≠ .key k := Pubkey.noConfusion
  cases step_done hstep with
  | initialize_ done =>
      obtain ⟨rent, hrent⟩ := done.rentPaid
      apply hsame
      · rw [done.data, Function.update_of_ne lockAddress_ne_global]
      · exact Moves.eq_of_ne hrent (hkey _) lockAddress_ne_global
  | setBot done | setTreasury done =>
      obtain ⟨account, -, -, hdata⟩ := done.changed
      apply hsame
      · rw [hdata, Function.update_of_ne lockAddress_ne_global]
      · rw [done.balance]
  | register done =>
      obtain ⟨rent, hrent⟩ := done.rentPaid
      apply hsame
      · rw [done.data, Function.update_of_ne userAddress_ne_lock.symm]
      · exact Moves.eq_of_ne hrent (hkey _) userAddress_ne_lock.symm
  | deposit done =>
      apply hsame
      · rw [done.data]
      · exact Moves.eq_of_ne done.moved (hkey _) vaultAddress_ne_lock.symm
  | withdraw done =>
      apply hsame
      · rw [done.data]
      · exact Moves.eq_of_ne done.moved vaultAddress_ne_lock.symm (hkey _)
  | @lock ctx a recoverInfo amount globalAccount account updated done =>
      by_cases hlock : lockAddress u n = lockAddress a.user account.nonce
      · have hfresh := h a.user account.nonce
        rw [if_pos done.unused] at hfresh
        rw [hlock, rent_of_lock_fresh (toOption_eq_some hstep) done.registered hfresh, done.data,
          Function.update_self, if_neg AccountData.noConfusion]
      · obtain ⟨rent, hrent⟩ := done.rentPaid
        apply hsame
        · rw [done.data, Function.update_of_ne hlock,
            Function.update_of_ne userAddress_ne_lock.symm]
        · exact Moves.eq_of_ne hrent (hkey _) hlock
  | @settle ctx a nonce amount globalAccount account updated lockAccount done =>
      by_cases hlock : lockAddress u n = lockAddress a.user nonce
      · have hbalance := done.lock_balance
        have hheld := h a.user nonce
        rw [done.opened, if_neg AccountData.noConfusion] at hheld
        rw [if_neg (hspares a.user nonce), hheld] at hbalance
        rw [hlock, done.lock_data, if_pos rfl]
        omega
      · obtain ⟨mid, hpaid, hclosed⟩ := done.moved
        apply hsame
        · rw [done.data, Function.update_of_ne userAddress_ne_lock.symm,
            Function.update_of_ne hlock]
        · rw [Moves.eq_of_ne hclosed hlock (hkey _)]
          exact Moves.eq_of_ne hpaid vaultAddress_ne_lock.symm
            (done.toTreasury ▸ (hspares u n).symm)
  | pay globalAccount account updated done =>
      apply hsame
      · rw [done.data, Function.update_of_ne userAddress_ne_lock.symm]
      · exact Moves.eq_of_ne done.moved vaultAddress_ne_lock.symm
          (done.toTreasury ▸ (hspares u n).symm)
  | transferIn data balance =>
      apply hsame
      · rw [data]
      · rw [balance, if_neg (hspares u n).symm, Nat.add_zero]
  | world data balance => exact hsame (data _) (balance _)

/-- Where nobody sends lamports to a lock address, every settle leaves it empty. -/
theorem settle_empties {s₀ : Accounts} (h₀ : Uninitialised s₀)
    (hfresh : ∀ u n, s₀.balance (lockAddress u n) = 0) {ops : List Op}
    (hops : (system R).Throughout (fun _ op => op.SparesLocks) s₀ ops) {a : Settle}
    {nonce amount : UInt64} (htreasury : a.treasury ≠ lockAddress a.user nonce)
    (hstep : (system R).step ((system R).run s₀ ops) (.invoke ctx (.settle a nonce amount)) =
      some s') : Emptied a nonce amount ((system R).run s₀ ops) s' := by
  have hheld : LocksHoldRent R ((system R).run s₀ ops) := by
    refine hops.invariant (fun hspares h hstep => LocksHoldRent.step hspares h hstep) fun u n => ?_
    exact (hfresh u n).trans (if_pos (h₀ _)).symm
  obtain ⟨globalAccount, account, updated, lockAccount, done⟩ :=
    settle_done (toOption_eq_some hstep)
  have hrent := hheld a.user nonce
  rw [done.opened, if_neg AccountData.noConfusion] at hrent
  exact (settle_empties_iff h₀ ops hstep).mpr ⟨hrent, fun hsame => absurd hsame htreasury⟩

namespace Sample

def settleAccounts : Settle := ⟨globalAddress, userAddress user, user, treasury, lockAddress user 0,
  vaultAddress user, bot, payer⟩

/-- The lock is open, and somebody sends its address the rent of an empty account. -/
def fundedOps : List Op := ops ++ [.transferIn (lockAddress user 0) 890880]

-- one evaluation of each run for the settle and what it finds or leaves
theorem ops_settle :
    ((system runtime).step ((system runtime).run start ops) settleOp).isSome = true ∧
    ((system runtime).run start ops).balance (lockAddress user 0) = lockRent runtime := by
  decide +kernel

theorem fundedOps_settle :
    ((system runtime).step ((system runtime).run start fundedOps) settleOp).isSome = true ∧
    ((system runtime).next ((system runtime).run start fundedOps) settleOp).balance
      (lockAddress user 0) = 890880 := by
  decide +kernel

end Sample

theorem settle_empties_iff_sample : Emptied Sample.settleAccounts 0 15000000
    ((system Sample.runtime).run Sample.start Sample.ops)
    ((system Sample.runtime).next ((system Sample.runtime).run Sample.start Sample.ops)
      Sample.settleOp) :=
  (settle_empties_iff (fun _ => rfl) Sample.ops (System.step_of_isSome Sample.ops_settle.1)).mpr
    ⟨Sample.ops_settle.2, fun hsame => nomatch hsame⟩

/-- The settle goes through and leaves the lamports where nothing can reach them. -/
theorem settle_leaves_lamports : ∃ s',
    (system Sample.runtime).step ((system Sample.runtime).run Sample.start Sample.fundedOps)
      Sample.settleOp = some s' ∧
    ¬ Emptied Sample.settleAccounts 0 15000000
      ((system Sample.runtime).run Sample.start Sample.fundedOps) s' := by
  refine ⟨_, System.step_of_isSome Sample.fundedOps_settle.1, fun emptied => ?_⟩
  cases Sample.fundedOps_settle.2.symm.trans emptied.balance

/-! ### What a debit leaves in a vault -/

/-- Exempt from rent, or not there at all. -/
def RentFree (R : Runtime) (s : Accounts) (a : Pubkey) : Prop :=
  s.balance a = 0 ∨ (R.minimumBalance 0).toNat ≤ s.balance a

/-- The runtime keeps an account that is exempt from rent from falling below the minimum. -/
def RentRule (R : Runtime) (s s' : Accounts) (a : Pubkey) : Prop :=
  (R.minimumBalance (s.data a).dataLen).toNat ≤ s.balance a →
    s'.balance a = 0 ∨ (R.minimumBalance (s'.data a).dataLen).toNat ≤ s'.balance a

/-- A transfer out of a user's vault. -/
structure Debit where
  user : Key
  dest : Pubkey
  amount : UInt64

def Op.debit? : Op → Option Debit
  | .invoke _ (.withdraw a amount) => some ⟨a.user, .key a.user, amount⟩
  | .invoke _ (.settle a _ amount) => some ⟨a.user, a.treasury, amount⟩
  | .invoke _ (.pay a _ amount) => some ⟨a.user, a.treasury, amount⟩
  | _ => none

/-- The debit takes all there is or leaves the minimum. -/
def Debit.LeavesRent (R : Runtime) (s : Accounts) (d : Debit) : Prop :=
  d.amount.toNat = s.balance (vaultAddress d.user) ∨
    d.amount.toNat + (R.minimumBalance 0).toNat ≤ s.balance (vaultAddress d.user)

/-- What an accepted debit does to the vault, and what the rent rule makes of that. -/
structure Debit.Taken (R : Runtime) (s s' : Accounts) (d : Debit) : Prop where
  balance : s'.balance (vaultAddress d.user) + d.amount.toNat = s.balance (vaultAddress d.user) +
    if d.dest = vaultAddress d.user then d.amount.toNat else 0
  atMost : d.amount.toNat ≤ s.balance (vaultAddress d.user)
  rentFree : RentFree R s' (vaultAddress d.user) ↔
    if d.dest = vaultAddress d.user then RentFree R s (vaultAddress d.user) else d.LeavesRent R s
  rentRule : (R.minimumBalance 0).toNat ≤ s.balance (vaultAddress d.user) →
    (RentRule R s s' (vaultAddress d.user) ↔ d.dest = vaultAddress d.user ∨ d.LeavesRent R s)

theorem Debit.taken_of {d : Debit}
    (hbalance : s'.balance (vaultAddress d.user) + d.amount.toNat =
      s.balance (vaultAddress d.user) + if d.dest = vaultAddress d.user then d.amount.toNat else 0)
    (hle : d.amount.toNat ≤ s.balance (vaultAddress d.user)) (kept : WellKept R s)
    (kept' : WellKept R s') : d.Taken R s s' := by
  have hlen : (s.data (vaultAddress d.user)).dataLen = 0 := by rw [kept.vaults]; rfl
  have hlen' : (s'.data (vaultAddress d.user)).dataLen = 0 := by rw [kept'.vaults]; rfl
  refine ⟨hbalance, hle, ?_, fun hexempt => ?_⟩
  · by_cases hself : d.dest = vaultAddress d.user
    · rw [if_pos hself] at hbalance
      rw [if_pos hself, RentFree, RentFree, Nat.add_right_cancel hbalance]
    · rw [if_neg hself] at hbalance
      rw [if_neg hself, RentFree, Debit.LeavesRent]
      omega
  · rw [RentRule, hlen, hlen', Debit.LeavesRent]
    by_cases hself : d.dest = vaultAddress d.user
    · rw [if_pos hself] at hbalance
      exact iff_of_true (fun _ => Or.inr (Nat.add_right_cancel hbalance ▸ hexempt)) (Or.inl hself)
    · rw [if_neg hself] at hbalance
      simp only [hself, false_or]
      omega

/-- What is left in the vault after an accepted debit depends on the amount alone. -/
theorem debit_taken {s₀ : Accounts} (h₀ : Uninitialised s₀) (ops : List Op) {d : Debit}
    (hdebit : op.debit? = some d)
    (hstep : (system R).step ((system R).run s₀ ops) op = some s') :
    d.Taken R ((system R).run s₀ ops) s' := by
  have kept : WellKept R ((system R).run s₀ ops) := run_wellKept h₀ ops
  have kept' : WellKept R s' := kept.step hstep
  cases step_done hstep with
  | @withdraw ctx a amount done =>
      cases hdebit
      have hmoved := done.moved (vaultAddress a.user)
      obtain ⟨account, -, hfree⟩ := done.free
      rw [if_pos rfl, if_neg key_ne_vault.symm] at hmoved
      refine Debit.taken_of ?_ ((Nat.le_add_left _ _).trans hfree) kept kept'
      rw [hmoved, if_neg key_ne_vault]
  | @settle ctx a nonce amount globalAccount account updated lockAccount done =>
      cases hdebit
      obtain ⟨mid, hpaid, hclosed⟩ := done.moved
      have hpaid := hpaid (vaultAddress a.user)
      rw [if_pos rfl, ← done.toTreasury] at hpaid
      obtain ⟨e, tracks⟩ := run_tracks h₀ done.registered
      obtain ⟨hlocked, hvault⟩ := tracks.lock_le done.opened
      refine Debit.taken_of ?_ (done.atMost.trans (hlocked.trans hvault)) kept kept'
      rw [Moves.eq_of_ne hclosed vaultAddress_ne_lock key_ne_vault.symm, hpaid]
      simp only [eq_comm]
  | @pay ctx a recoverInfo amount globalAccount account updated done =>
      cases hdebit
      have hmoved := done.moved (vaultAddress a.user)
      rw [if_pos rfl, ← done.toTreasury] at hmoved
      refine Debit.taken_of ?_ ((Nat.le_add_left _ _).trans done.free) kept kept'
      rw [hmoved]
      simp only [eq_comm]
  | _ => cases hdebit

namespace Sample

/-- The user locks all of a vault that holds a little more than the minimum. -/
def allLocked : List Op :=
  ops.take 2 ++ [.transferIn (vaultAddress user) 1000000, .invoke Sample.ctx (.lock
    ⟨globalAddress, userAddress user, user, lockAddress user 0, vaultAddress user, bot, payer⟩ first
    1000000)]

def settlePart : Op := .invoke Sample.ctx (.settle settleAccounts 0 200000)

theorem allLocked_settle :
    ((system runtime).step ((system runtime).run start allLocked) settlePart).isSome = true ∧
    ((system runtime).next ((system runtime).run start allLocked) settlePart).balance
      (vaultAddress user) = 800000 := by
  decide +kernel

end Sample

theorem debit_taken_sample : (Debit.mk Sample.user Sample.treasury 200000).Taken Sample.runtime
    ((system Sample.runtime).run Sample.start Sample.allLocked)
    ((system Sample.runtime).next ((system Sample.runtime).run Sample.start Sample.allLocked)
      Sample.settlePart) :=
  debit_taken (fun _ => rfl) Sample.allLocked rfl
    (System.step_of_isSome Sample.allLocked_settle.1)

/-- The bot settles a fifth of a lock, and four fifths are too little to be exempt. -/
theorem settle_part_not_rentFree : ∃ s',
    (system Sample.runtime).step ((system Sample.runtime).run Sample.start Sample.allLocked)
      Sample.settlePart = some s' ∧
    ¬ RentFree Sample.runtime s' (vaultAddress Sample.user) := by
  refine ⟨_, System.step_of_isSome Sample.allLocked_settle.1, ?_⟩
  rw [RentFree, Sample.allLocked_settle.2]
  decide

/-! ### The check of the runtime -/

/-- `data_len` of an account; `foreign` is that of the accounts of other programs. -/
def Accounts.space (foreign : Pubkey → ℕ) (s : Accounts) (a : Pubkey) : ℕ :=
  match s.data a with
  | .foreign _ => foreign a
  | data => data.dataLen

/-- The account is exempt from rent. -/
def Exempt (R : Runtime) (foreign : Pubkey → ℕ) (s : Accounts) (a : Pubkey) : Prop :=
  (R.minimumBalance (s.space foreign a)).toNat ≤ s.balance a

/-- After a transaction an account is gone or exempt from rent, or it was paying rent before, for as
much data, and has not gained anything. -/
def RentAllowed (R : Runtime) (foreign : Pubkey → ℕ) (s s' : Accounts) (a : Pubkey) : Prop :=
  s'.balance a = 0 ∨ Exempt R foreign s' a ∨
    s.balance a ≠ 0 ∧ ¬ Exempt R foreign s a ∧ s'.space foreign a = s.space foreign a ∧
      s'.balance a ≤ s.balance a

section Allowed

variable {foreign : Pubkey → ℕ} {b : Pubkey}

theorem space_congr (hdata : s'.data b = s.data b) : s'.space foreign b = s.space foreign b := by
  rw [Accounts.space, Accounts.space, hdata]

theorem space_user {account updated : UserAccount} (huser : s.data (userAddress u) = .user account)
    (hdata : s'.data = Function.update s.data (userAddress u) (.user updated)) :
    s'.space foreign b = s.space foreign b := by
  by_cases hb : b = userAddress u
  · rw [Accounts.space, Accounts.space, hdata, hb, Function.update_self, huser]
    rfl
  · exact space_congr (by rw [hdata, Function.update_of_ne hb])

theorem space_vault (kept : WellKept R s) : s.space foreign (vaultAddress u) = 0 := by
  rw [Accounts.space, kept.vaults]
  rfl

theorem Exempt.mono (h : Exempt R foreign s b)
    (hspace : s'.space foreign b = s.space foreign b) (hle : s.balance b ≤ s'.balance b) :
    Exempt R foreign s' b := by
  rw [Exempt, hspace]
  exact h.trans hle

theorem rentAllowed_of_same (hspace : s'.space foreign b = s.space foreign b)
    (hbalance : s'.balance b = s.balance b) : RentAllowed R foreign s s' b := by
  by_cases hzero : s.balance b = 0
  · exact Or.inl (hbalance.trans hzero)
  by_cases hexempt : Exempt R foreign s b
  · exact Or.inr (Or.inl (hexempt.mono hspace hbalance.ge))
  · exact Or.inr (Or.inr ⟨hzero, hexempt, hspace, hbalance.le⟩)

/-- What the rent rule asks of a debit: that the vault is left with nothing or with the minimum, and
that the destination comes to be exempt. -/
structure Debit.RentClear (R : Runtime) (foreign : Pubkey → ℕ) (s : Accounts) (d : Debit) :
    Prop where
  vault : d.LeavesRent R s
  dest : (R.minimumBalance (s.space foreign d.dest)).toNat ≤ s.balance d.dest + d.amount.toNat

/-- A payment that is clear passes the check on every account. -/
theorem PayDone.rentAllowed {a : Pay} {recoverInfo : ED25519RecoverInfo} {amount : UInt64}
    {globalAccount : GlobalAccount} {account updated : UserAccount} (kept : WellKept R s)
    (done : PayDone R ctx a recoverInfo amount s s' globalAccount account updated)
    (clear : (Debit.mk a.user a.treasury amount).RentClear R foreign s) (b : Pubkey) :
    RentAllowed R foreign s s' b := by
  have hspace : s'.space foreign b = s.space foreign b := space_user done.registered done.data
  have hmoved := done.moved b
  rw [← done.toTreasury] at hmoved
  by_cases hsource : b = vaultAddress a.user
  · by_cases hself : b = a.treasury
    · rw [if_pos hsource, if_pos hself] at hmoved
      exact rentAllowed_of_same hspace (Nat.add_right_cancel hmoved)
    · rw [if_pos hsource, if_neg hself, Nat.add_zero, hsource] at hmoved
      rcases clear.vault with hall | hleft
      · rw [hsource]
        exact Or.inl (Nat.add_right_cancel (hmoved.trans (hall.symm.trans (Nat.zero_add _).symm)))
      · refine Or.inr (Or.inl ?_)
        rw [Exempt, hspace, hsource, space_vault kept]
        change amount.toNat + _ ≤ s.balance (vaultAddress a.user) at hleft
        omega
  · rw [if_neg hsource, Nat.add_zero] at hmoved
    by_cases hdest : b = a.treasury
    · refine Or.inr (Or.inl ?_)
      rw [Exempt, hspace, hmoved, if_pos hdest, hdest]
      exact clear.dest
    · rw [if_neg hdest, Nat.add_zero] at hmoved
      exact rentAllowed_of_same hspace hmoved

section Settles

variable {a : Settle} {nonce amount : UInt64} {globalAccount : GlobalAccount}
  {account updated : UserAccount} {lockAccount : LockAccount}

theorem SettleDone.balance
    (done : SettleDone R ctx a nonce amount s s' globalAccount account updated lockAccount)
    (b : Pubkey) : s'.balance b + (if b = vaultAddress a.user then amount.toNat else 0) +
        (if b = lockAddress a.user nonce then lockRent R else 0) =
      s.balance b + (if b = a.treasury then amount.toNat else 0) +
        if b = .key a.payer then lockRent R else 0 := by
  obtain ⟨mid, hpaid, hclosed⟩ := done.moved
  have hpaid := hpaid b
  have hclosed : s'.balance b + (if b = lockAddress a.user nonce then lockRent R else 0) =
      mid.balance b + if b = .key a.payer then lockRent R else 0 := hclosed b
  rw [← done.toTreasury] at hpaid
  omega

variable (foreign) in
theorem SettleDone.space
    (done : SettleDone R ctx a nonce amount s s' globalAccount account updated lockAccount)
    (b : Pubkey) : s'.space foreign b =
      if b = lockAddress a.user nonce then 0 else s.space foreign b := by
  split_ifs with hlock
  · rw [Accounts.space, hlock, done.lock_data]
    rfl
  · by_cases huser : b = userAddress a.user
    · rw [Accounts.space, Accounts.space, done.data, huser, Function.update_self, done.registered]
      rfl
    · exact space_congr (by
        rw [done.data, Function.update_of_ne huser, Function.update_of_ne hlock])

/-- What the rent rule asks of a settle is there: the vault and the lock keep the minimum, and
treasury and payer are exempt already. -/
structure Settle.RentClear (R : Runtime) (foreign : Pubkey → ℕ) (s : Accounts) (a : Settle)
    (nonce amount : UInt64) : Prop where
  vault : (R.minimumBalance 0).toNat + (if a.treasury = vaultAddress a.user then 0
    else amount.toNat) ≤ s.balance (vaultAddress a.user)
  lock : (R.minimumBalance 0).toNat + lockRent R ≤ s.balance (lockAddress a.user nonce)
  treasury : Exempt R foreign s a.treasury
  payer : Exempt R foreign s (.key a.payer)

theorem SettleDone.exempt (kept : WellKept R s)
    (done : SettleDone R ctx a nonce amount s s' globalAccount account updated lockAccount)
    (clear : Settle.RentClear R foreign s a nonce amount) (h : Exempt R foreign s b) :
    Exempt R foreign s' b := by
  have hbalance := done.balance b
  have hspace := done.space foreign b
  by_cases hlock : b = lockAddress a.user nonce
  · have hleft := clear.lock
    have hvault : b ≠ vaultAddress a.user := hlock.trans_ne vaultAddress_ne_lock.symm
    rw [if_pos hlock, if_neg hvault] at hbalance
    rw [if_pos hlock] at hspace
    rw [Exempt, hspace]
    rw [← hlock] at hleft
    omega
  · rw [if_neg hlock, Nat.add_zero] at hbalance
    rw [if_neg hlock] at hspace
    by_cases hvault : b = vaultAddress a.user
    · have hleft := clear.vault
      rw [if_pos hvault] at hbalance
      rw [Exempt, hspace, hvault, space_vault kept, ← hvault]
      rw [← hvault] at hleft
      by_cases hself : a.treasury = b
      · rw [if_pos hself.symm] at hbalance
        omega
      · rw [if_neg hself] at hleft
        omega
    · rw [if_neg hvault, Nat.add_zero] at hbalance
      exact h.mono hspace (by omega)

theorem SettleDone.rentAllowed (kept : WellKept R s)
    (done : SettleDone R ctx a nonce amount s s' globalAccount account updated lockAccount)
    (clear : Settle.RentClear R foreign s a nonce amount) (b : Pubkey) :
    RentAllowed R foreign s s' b := by
  by_cases hexempt : Exempt R foreign s b
  · exact Or.inr (Or.inl (done.exempt kept clear hexempt))
  -- vault, lock, treasury and payer are exempt, and nothing else changes
  have hvault : b ≠ vaultAddress a.user := by
    rintro rfl
    refine hexempt ?_
    rw [Exempt, space_vault kept]
    exact (Nat.le_add_right _ _).trans clear.vault
  have hlock : b ≠ lockAddress a.user nonce := by
    rintro rfl
    refine hexempt ?_
    rw [Exempt, Accounts.space, done.opened]
    exact (Nat.le_add_left _ _).trans clear.lock
  have htreasury : b ≠ a.treasury := fun h => hexempt (h ▸ clear.treasury)
  have hpayer : b ≠ .key a.payer := fun h => hexempt (h ▸ clear.payer)
  have hbalance := done.balance b
  have hspace := done.space foreign b
  rw [if_neg hvault, if_neg hlock, if_neg htreasury, if_neg hpayer] at hbalance
  rw [if_neg hlock] at hspace
  exact rentAllowed_of_same hspace hbalance

end Settles

/-- A withdrawal of all there is passes the check where the user's own account is exempt. -/
theorem WithdrawDone.rentAllowed {a : Withdraw} {amount : UInt64}
    (done : WithdrawDone ctx a amount s s')
    (hall : amount.toNat = s.balance (vaultAddress a.user))
    (huser : Exempt R foreign s (.key a.user)) (b : Pubkey) : RentAllowed R foreign s s' b := by
  have hspace : s'.space foreign b = s.space foreign b := space_congr (congrFun done.data b)
  have hmoved := done.moved b
  by_cases hvault : b = vaultAddress a.user
  · have hkey : b ≠ .key a.user := hvault.trans_ne key_ne_vault.symm
    rw [if_pos hvault, if_neg hkey, hall, hvault, Nat.add_zero] at hmoved
    rw [hvault]
    exact Or.inl (Nat.add_right_cancel (hmoved.trans (Nat.zero_add _).symm))
  · rw [if_neg hvault, Nat.add_zero] at hmoved
    by_cases hkey : b = .key a.user
    · rw [hkey] at hmoved hspace ⊢
      exact Or.inr (Or.inl (huser.mono hspace (hmoved ▸ Nat.le_add_right _ _)))
    · rw [if_neg hkey, Nat.add_zero] at hmoved
      exact rentAllowed_of_same hspace hmoved

end Allowed

end DsProxy.BalancePayment
