import DsProxy.BalancePayment.Refinement
import Mathlib.Data.FinEnum

/-!
# Solvency and lock accounting

The two laws of an escrow account, read off the program's accounts: what is locked is in the vault,
and what is locked is the sum of the open lock accounts.
-/

namespace DsProxy.BalancePayment

open Accounts Runs Finset

variable {R : Runtime} {s s' : Accounts} {u : Key} {account : UserAccount}

/-- `LockAccount.amount` at a nonce, `0` when no lock is open there. -/
def openAmount (s : Accounts) (u : Key) (n : UInt64) : ℕ :=
  ((s.data (lockAddress u n)).lock?.map fun lockAccount => lockAccount.amount.toNat).getD 0

theorem Holds.openAmount {o : Option ℕ} {n : UInt64} (h : Holds (s.data (lockAddress u n)) o) :
    openAmount s u n = o.getD 0 := by
  cases o with
  | none =>
      have hempty : s.data (lockAddress u n) = .empty := h
      simp [BalancePayment.openAmount, hempty, AccountData.lock?]
  | some amount =>
      obtain ⟨lockAccount, hlock, rfl⟩ := h
      simp [BalancePayment.openAmount, hlock, AccountData.lock?]

theorem sum_uint64 (f : ℕ → ℕ) : ∑ n : UInt64, f n.toNat = ∑ n ∈ range (2 ^ 64), f n := by
  refine sum_nbij UInt64.toNat (fun n _ => mem_range.mpr n.toNat_lt)
    (fun m _ n _ h => UInt64.toNat_inj.mp h) (fun n hn => ?_) (fun _ _ => rfl)
  have hlt : n < 2 ^ 64 := mem_range.mp hn
  exact ⟨UInt64.ofNat n, mem_coe.mpr (mem_univ _), UInt64.toNat_ofNat_of_lt' hlt⟩

/-- In every reachable state a registered user's vault holds at least what is locked. -/
theorem vault_covers_locked {s₀ : Accounts} (h₀ : Uninitialised s₀) (ops : List Op)
    (huser : ((system R).run s₀ ops).data (userAddress u) = .user account) :
    account.lockedAmount.toNat ≤ ((system R).run s₀ ops).balance (vaultAddress u) := by
  obtain ⟨e, tracks⟩ := run_tracks h₀ huser
  rw [tracks.locked, tracks.vault]
  exact e.reserved_le_balance

theorem vault_covers_locked_sample :
    20000000 ≤
      ((system Sample.runtime).run Sample.start Sample.ops).balance (vaultAddress Sample.user) :=
  vault_covers_locked (fun _ => rfl) Sample.ops Sample.run_user

theorem Tracks.sum_open {e : Escrow} (h : Tracks s u account e) :
    account.lockedAmount.toNat = ∑ n : UInt64, openAmount s u n := by
  have hnext : e.next ≤ 2 ^ 64 := h.nonce ▸ account.nonce.toNat_lt.le
  calc account.lockedAmount.toNat
      = e.reserved := h.locked
    _ = ∑ n ∈ range (2 ^ 64), (e.held n).getD 0 := e.reserved_eq_sum_range hnext
    _ = ∑ n : UInt64, (e.held n.toNat).getD 0 := (sum_uint64 _).symm
    _ = ∑ n : UInt64, openAmount s u n := sum_congr rfl fun n _ => (h.locks n).openAmount.symm

/-- In every reachable state a registered user's locked amount is the sum of the open locks. -/
theorem locked_eq_sum_open {s₀ : Accounts} (h₀ : Uninitialised s₀) (ops : List Op)
    (huser : ((system R).run s₀ ops).data (userAddress u) = .user account) :
    account.lockedAmount.toNat = ∑ n : UInt64, openAmount ((system R).run s₀ ops) u n := by
  obtain ⟨e, tracks⟩ := run_tracks h₀ huser
  exact tracks.sum_open

theorem locked_eq_sum_open_sample :
    20000000 = ∑ n : UInt64,
      openAmount ((system Sample.runtime).run Sample.start Sample.ops) Sample.user n :=
  locked_eq_sum_open (fun _ => rfl) Sample.ops Sample.run_user

end DsProxy.BalancePayment
