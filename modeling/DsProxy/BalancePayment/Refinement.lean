import DsProxy.BalancePayment.Isolation
import DsProxy.Lib.Escrow
import Mathlib.Logic.Relation

/-!
# Every user has an escrow account

The three kinds of account the program keeps for a user (nonce and locked amount, vault, locks) are
one `Escrow`: the nonce is its ticket counter, the locked amount its reservation, the lock accounts
its open tickets. Each accepted operation is a sequence of escrow operations on every user's
account, so what an escrow account cannot break no run of the program breaks.
-/

namespace DsProxy.BalancePayment

open Accounts Runs Relation

/-- A lock address holds exactly what its ticket sets aside. -/
def Holds (data : AccountData) : Option ℕ → Prop
  | none => data = .empty
  | some amount => ∃ lockAccount, data = .lock lockAccount ∧ lockAccount.amount.toNat = amount

theorem holds_lock {lockAccount : LockAccount} {o : Option ℕ} :
    Holds (.lock lockAccount) o ↔ o = some lockAccount.amount.toNat := by
  cases o <;> simp [Holds, eq_comm]

theorem holds_empty {o : Option ℕ} : Holds .empty o ↔ o = none := by
  cases o <;> simp [Holds]

structure Tracks (s : Accounts) (u : Key) (account : UserAccount) (e : Escrow) : Prop where
  user : s.data (userAddress u) = .user account
  nonce : account.nonce.toNat = e.next
  locked : account.lockedAmount.toNat = e.reserved
  vault : s.balance (vaultAddress u) = e.balance
  locks : ∀ n : UInt64, Holds (s.data (lockAddress u n)) (e.held n.toNat)

/-- A user has no escrow account before `register` and one from then on. -/
inductive Refines (s : Accounts) (u : Key) : Option Escrow → Prop
  | unregistered (user : s.data (userAddress u) = .empty)
      (locks : ∀ n, s.data (lockAddress u n) = .empty) : Refines s u none
  | registered (account : UserAccount) {e : Escrow} (tracks : Tracks s u account e) :
      Refines s u (some e)

/-- What may become of a user's escrow account. -/
inductive Life : Option Escrow → Option Escrow → Prop
  | idle : Life none none
  | opened (balance : ℕ) : Life none (some (.opened balance))
  | used {e e' : Escrow} (steps : ReflTransGen Escrow.Step e e') : Life (some e) (some e')

variable {R : Runtime} {s s' : Accounts} {u : Key} {account updated : UserAccount} {e : Escrow}

theorem Refines.tracks {o : Option Escrow} (h : Refines s u o)
    (huser : s.data (userAddress u) = .user account) : ∃ e, o = some e ∧ Tracks s u account e := by
  cases h with
  | unregistered user => cases user.symm.trans huser
  | registered account tracks =>
      cases tracks.user.symm.trans huser
      exact ⟨_, rfl, tracks⟩

/-! ### Operations that leave the user's accounts alone -/

theorem Tracks.fund (h : Tracks s u account e) {amount : ℕ}
    (huser : s'.data (userAddress u) = s.data (userAddress u))
    (hlocks : ∀ n, s'.data (lockAddress u n) = s.data (lockAddress u n))
    (hvault : s'.balance (vaultAddress u) = s.balance (vaultAddress u) + amount) :
    Tracks s' u account (e.fund amount) where
  user := huser.trans h.user
  nonce := h.nonce
  locked := h.locked
  vault := by rw [hvault, h.vault]; rfl
  locks n := hlocks n ▸ h.locks n

/-- At most lamports arrive in the vault: the account is funded, if there is one. -/
theorem Refines.untouched {o : Option Escrow} (h : Refines s u o)
    (huser : s'.data (userAddress u) = s.data (userAddress u))
    (hlocks : ∀ n, s'.data (lockAddress u n) = s.data (lockAddress u n))
    (hvault : s.balance (vaultAddress u) ≤ s'.balance (vaultAddress u)) :
    ∃ o', Life o o' ∧ Refines s' u o' := by
  cases h with
  | unregistered user locks =>
      exact ⟨none, .idle, .unregistered (huser.trans user) fun n => (hlocks n).trans (locks n)⟩
  | registered account tracks =>
      obtain ⟨amount, hamount⟩ := Nat.exists_eq_add_of_le hvault
      exact ⟨_, .used (.single (.fund amount)),
        .registered account (tracks.fund huser hlocks hamount)⟩

/-! ### Operations on the user's accounts -/

theorem RegisterDone.refines {ctx : Context} {a : Register} (done : RegisterDone ctx a s s')
    {o : Option Escrow} (h : Refines s a.user o) : ∃ o', Life o o' ∧ Refines s' a.user o' := by
  cases h with
  | registered account tracks => cases tracks.user.symm.trans done.unused
  | unregistered user locks =>
      refine ⟨_, .opened (s'.balance (vaultAddress a.user)), .registered
        ⟨0, 0, vaultAddress a.user⟩ ⟨?_, rfl, ?_, rfl, fun n => ?_⟩⟩
      · rw [done.data, Function.update_self]
      · rw [Escrow.reserved_opened]
        rfl
      · rw [done.data, Function.update_of_ne userAddress_ne_lock.symm]
        exact locks n

theorem WithdrawDone.refines {ctx : Context} {a : Withdraw} {amount : UInt64}
    (done : WithdrawDone ctx a amount s s') {o : Option Escrow} (h : Refines s a.user o) :
    ∃ o', Life o o' ∧ Refines s' a.user o' := by
  obtain ⟨account, huser, hfree⟩ := done.free
  obtain ⟨e, rfl, tracks⟩ := h.tracks huser
  rw [tracks.locked, tracks.vault] at hfree
  refine ⟨_, .used (.single (.withdraw amount.toNat hfree)), .registered account
    ⟨done.data ▸ tracks.user, tracks.nonce, tracks.locked, ?_, fun n => done.data ▸ tracks.locks n⟩⟩
  have hmoved := done.moved (vaultAddress a.user)
  rw [if_pos rfl, if_neg key_ne_vault.symm, tracks.vault] at hmoved
  exact Nat.eq_sub_of_add_eq hmoved

theorem LockDone.refines {ctx : Context} {a : Lock} {recoverInfo : ED25519RecoverInfo}
    {amount : UInt64} {globalAccount : GlobalAccount}
    (done : LockDone R ctx a recoverInfo amount s s' globalAccount account updated)
    {o : Option Escrow} (h : Refines s a.user o) : ∃ o', Life o o' ∧ Refines s' a.user o' := by
  obtain ⟨e, rfl, tracks⟩ := h.tracks done.registered
  have hfree := done.free
  rw [tracks.locked, tracks.vault] at hfree
  obtain ⟨rent, hrent⟩ := done.rentPaid
  refine ⟨_, .used (.single (.reserve amount.toNat hfree)), .registered updated
    ⟨?_, ?_, ?_, ?_, fun n => ?_⟩⟩
  · rw [done.data, Function.update_of_ne userAddress_ne_lock, Function.update_self]
  · rw [done.nonceNext, tracks.nonce]
    rfl
  · rw [done.lockedNext, tracks.locked, Escrow.reserved_reserve]
  · exact (balance_vault_of_payer_moves hrent vaultAddress_ne_lock.symm).trans tracks.vault
  · rw [done.data]
    by_cases hn : n = account.nonce
    · -- the ticket just taken
      subst hn
      rw [Function.update_self, tracks.nonce]
      simp [Escrow.reserve, Holds]
    · have hne : n.toNat ≠ e.next := fun h =>
        hn (UInt64.toNat_inj.mp (h.trans tracks.nonce.symm))
      rw [Function.update_of_ne (by simp [hn]), Function.update_of_ne userAddress_ne_lock.symm]
      simpa [Escrow.reserve, hne] using tracks.locks n

theorem PayDone.refines {ctx : Context} {a : Pay} {recoverInfo : ED25519RecoverInfo}
    {amount : UInt64} {globalAccount : GlobalAccount}
    (done : PayDone R ctx a recoverInfo amount s s' globalAccount account updated)
    {o : Option Escrow} (h : Refines s a.user o) : ∃ o', Life o o' ∧ Refines s' a.user o' := by
  obtain ⟨e, rfl, tracks⟩ := h.tracks done.registered
  have hfree := done.free
  rw [tracks.locked, tracks.vault] at hfree
  have hmoved := done.moved (vaultAddress a.user)
  rw [if_pos rfl, tracks.vault] at hmoved
  -- the treasury may be the very vault that pays
  let back := if vaultAddress a.user = globalAccount.treasury then amount.toNat else 0
  refine ⟨_, .used (.tail (.single (.spend amount.toNat hfree)) (.fund back)),
    .registered updated ⟨?_, ?_, ?_, ?_, fun n => ?_⟩⟩
  · rw [done.data, Function.update_self]
  · rw [done.nonceNext, tracks.nonce]
    rfl
  · rw [done.lockedKept, tracks.locked, Escrow.reserved_fund, Escrow.reserved_spend]
  · show s'.balance (vaultAddress a.user) = e.balance - amount.toNat + back
    omega
  · rw [done.data, Function.update_of_ne userAddress_ne_lock.symm]
    exact tracks.locks n

theorem SettleDone.refines {ctx : Context} {a : Settle} {nonce amount : UInt64}
    {globalAccount : GlobalAccount} {lockAccount : LockAccount}
    (done : SettleDone R ctx a nonce amount s s' globalAccount account updated lockAccount)
    {o : Option Escrow} (h : Refines s a.user o) : ∃ o', Life o o' ∧ Refines s' a.user o' := by
  obtain ⟨e, rfl, tracks⟩ := h.tracks done.registered
  have hheld : e.held nonce.toNat = some lockAccount.amount.toNat :=
    holds_lock.mp (done.opened ▸ tracks.locks nonce)
  have hreserved := Escrow.reserved_settle hheld done.atMost
  have hcovered := e.reserved_le_balance
  have hatMost := done.atMost
  obtain ⟨mid, hpaid, hclosed⟩ := done.moved
  have hpaid := hpaid (vaultAddress a.user)
  have hclosed := hclosed (vaultAddress a.user)
  rw [if_pos rfl, tracks.vault] at hpaid
  rw [if_neg vaultAddress_ne_lock, if_neg key_ne_vault.symm] at hclosed
  let back := if vaultAddress a.user = globalAccount.treasury then amount.toNat else 0
  refine ⟨_, .used (.tail (.single (.settle nonce.toNat lockAccount.amount.toNat amount.toNat hheld
    done.atMost)) (.fund back)), .registered updated ⟨?_, ?_, ?_, ?_, fun n => ?_⟩⟩
  · rw [done.data, Function.update_self]
  · rw [done.nonceKept]
    exact tracks.nonce
  · have hlocked := done.lockedNext
    rw [tracks.locked] at hlocked
    rw [Escrow.reserved_fund]
    omega
  · show s'.balance (vaultAddress a.user) = e.balance - amount.toNat + back
    omega
  · rw [done.data, Function.update_of_ne userAddress_ne_lock.symm]
    by_cases hn : n = nonce
    · subst hn
      rw [Function.update_self]
      simp [Escrow.fund, Escrow.settle, Holds]
    · have hne : n.toNat ≠ nonce.toNat := mt UInt64.toNat_inj.mp hn
      rw [Function.update_of_ne (by simp [hn])]
      simpa [Escrow.fund, Escrow.settle, hne] using tracks.locks n

theorem DepositDone.refines {ctx : Context} {a : Deposit} {amount : UInt64}
    (done : DepositDone ctx a amount s s') {o : Option Escrow} (h : Refines s u o) :
    ∃ o', Life o o' ∧ Refines s' u o' := by
  refine h.untouched (by rw [done.data]) (fun n => by rw [done.data]) ?_
  have hmoved := done.moved (vaultAddress u)
  rw [if_neg key_ne_vault.symm] at hmoved
  omega

/-! ### Any operation, any run -/

theorem step_refines {op : Op} (hstep : (system R).step s op = some s') {o : Option Escrow}
    (h : Refines s u o) : ∃ o', Life o o' ∧ Refines s' u o' := by
  have done := step_done hstep
  by_cases hu : op.user? = some u
  · cases done with
    | deposit done => exact done.refines h
    | register done | withdraw done | lock _ _ _ done | settle _ _ _ _ done | pay _ _ _ done =>
        obtain rfl := Option.some.inj hu
        exact done.refines h
    | _ => cases hu
  · have huntouched := done.untouched hu
    exact h.untouched huntouched.user huntouched.locks huntouched.vault

/-- In every reachable state every user's accounts are an escrow account, or none exists yet. -/
theorem run_refines {s₀ : Accounts} (h₀ : Uninitialised s₀) (ops : List Op) (u : Key) :
    ∃ o, Refines ((system R).run s₀ ops) u o := by
  refine System.run_invariant (P := fun s => ∃ o, Refines s u o) ?_
    ⟨none, .unregistered (h₀ _) fun _ => h₀ _⟩ ops
  rintro s op s' ⟨o, h⟩ hstep
  obtain ⟨o', -, h'⟩ := step_refines hstep h
  exact ⟨o', h'⟩

theorem run_tracks {s₀ : Accounts} (h₀ : Uninitialised s₀) {ops : List Op}
    (huser : ((system R).run s₀ ops).data (userAddress u) = .user account) :
    ∃ e, Tracks ((system R).run s₀ ops) u account e := by
  obtain ⟨o, h⟩ := run_refines h₀ ops u
  obtain ⟨e, -, tracks⟩ := h.tracks huser
  exact ⟨e, tracks⟩

end DsProxy.BalancePayment
