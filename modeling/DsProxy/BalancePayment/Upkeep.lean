import DsProxy.BalancePayment.Isolation
import DsProxy.BalancePayment.Replay
import Mathlib.Algebra.Order.BigOperators.Group.Finset

/-!
# What every instruction keeps up

Three facts that the handlers rely on without a check: a vault never carries data, an open lock
holds at least its rent, and no instruction makes lamports, so that no credit overflows.
-/

namespace DsProxy.BalancePayment

open Accounts Runs Finset

variable {R : Runtime} {ctx : Context} {s s' : Accounts} {u : Key} {account : UserAccount}

/-! ### Lamports in circulation -/

/-- All lamports together stay below `2 ^ 64 - 1`. -/
def SupplyBelow (s : Accounts) : Prop := ∀ F : Finset Pubkey, ∑ a ∈ F, s.balance a < 2 ^ 64 - 1

theorem SupplyBelow.add_lt (h : SupplyBelow s) {a b : Pubkey} (hab : a ≠ b) :
    s.balance a + s.balance b < 2 ^ 64 := by
  have hsum := h {a, b}
  rw [sum_pair hab] at hsum
  omega

/-- All lamports together stay below a bound. -/
def TotalBelow (bound : ℕ) (s : Accounts) : Prop :=
  ∀ F : Finset Pubkey, ∑ a ∈ F, s.balance a < bound

theorem TotalBelow.of_moves {bound : ℕ} (h : TotalBelow bound s) {source dest : Pubkey} {n : ℕ}
    (hmoves : s.Moves s' source dest n) : TotalBelow bound s' := by
  intro F
  let G := insert source (insert dest F)
  have hsource : source ∈ G := mem_insert_self _ _
  have hdest : dest ∈ G := mem_insert_of_mem (mem_insert_self _ _)
  have hF : F ⊆ G := (subset_insert _ _).trans (subset_insert _ _)
  have hsum : ∑ a ∈ G, (s'.balance a + if a = source then n else 0) =
      ∑ a ∈ G, (s.balance a + if a = dest then n else 0) := sum_congr rfl fun a _ => hmoves a
  rw [sum_add_distrib, sum_add_distrib, sum_ite_eq' G source, sum_ite_eq' G dest, if_pos hsource,
    if_pos hdest] at hsum
  have hle : ∑ a ∈ F, s'.balance a ≤ ∑ a ∈ G, s'.balance a :=
    sum_le_sum_of_subset_of_nonneg hF fun _ _ _ => Nat.zero_le _
  have hG := h G
  omega

theorem SupplyBelow.of_moves (h : SupplyBelow s) {source dest : Pubkey} {n : ℕ}
    (hmoves : s.Moves s' source dest n) : SupplyBelow s' :=
  TotalBelow.of_moves h hmoves

theorem totalBelow_of_held (held : List (Pubkey × ℕ)) {bound : ℕ}
    (h : ∀ a, s.balance a ≤ (held.map fun entry => if a = entry.1 then entry.2 else 0).sum)
    (hbound : (held.map Prod.snd).sum < bound) : TotalBelow bound s := by
  intro F
  refine ((sum_le_sum fun a _ => h a).trans ?_).trans_lt hbound
  clear h hbound
  induction held with
  | nil => simp
  | cons entry held ih =>
      simp only [List.map_cons, List.sum_cons, sum_add_distrib, sum_ite_eq']
      split_ifs
      · exact Nat.add_le_add_left ih _
      · omega

/-! ### Operations that go through -/

theorem credit_ok {dest : Pubkey} {amount : UInt64} (h : s.balance dest + amount.toNat < 2 ^ 64) :
    ∃ s', s.credit dest amount = .ok s' := by
  have hadd : checkedAdd (s.lamports dest) amount = .ok (s.lamports dest + amount) := if_pos h
  exact ⟨_, by rw [credit, hadd]; rfl⟩

theorem debit_ok {source : Pubkey} {amount : UInt64} (h : amount.toNat ≤ s.balance source) :
    ∃ s', s.debit source amount = .ok s' := by
  have hsub : checkedSub (s.lamports source) amount = .ok (s.lamports source - amount) :=
    if_pos (UInt64.le_iff_toNat_le.mpr h)
  exact ⟨_, by rw [debit, hsub]; rfl⟩

/-- Within the supply no destination overflows. -/
theorem debit_credit_ok (hsupply : SupplyBelow s) {source : Pubkey} (dest : Pubkey)
    {amount : UInt64} (h : amount.toNat ≤ s.balance source) :
    ∃ mid s', s.debit source amount = .ok mid ∧ mid.credit dest amount = .ok s' := by
  obtain ⟨mid, hdebit⟩ := debit_ok h
  obtain ⟨-, hout⟩ := debit_eq_ok hdebit
  have hfits : mid.balance dest + amount.toNat < 2 ^ 64 := by
    have hdest := hout dest
    by_cases hsame : dest = source
    · rw [if_pos hsame] at hdest
      exact hdest ▸ (s.lamports dest).toNat_lt
    · rw [if_neg hsame] at hdest
      have hpair := hsupply.add_lt hsame
      omega
  obtain ⟨s', hcredit⟩ := credit_ok hfits
  exact ⟨mid, s', hdebit, hcredit⟩

theorem require_ok {condition : Prop} [Decidable condition] {error : ProgramError}
    (h : condition) : require condition error = .ok () :=
  if_pos h

theorem require_error {condition : Prop} [Decidable condition] {error : ProgramError}
    (h : ¬ condition) : require condition error = .error error :=
  if_neg h

theorem transfer_ok (hsupply : SupplyBelow s) {source : Pubkey} (dest : Pubkey) {amount : UInt64}
    (hempty : s.data source = .empty) (h : amount.toNat ≤ s.balance source) :
    ∃ s', s.transfer source dest amount = .ok s' := by
  obtain ⟨mid, s', hdebit, hcredit⟩ := debit_credit_ok hsupply dest h
  refine ⟨s', ?_⟩
  rw [transfer, require_ok hempty, require_ok (UInt64.le_iff_toNat_le.mpr h)]
  show (s.debit source amount >>= fun s => s.credit dest amount) = _
  rw [hdebit]
  exact hcredit

/-! ### Vaults stay plain and locks keep their rent -/

/-- The rent of a lock account. -/
def lockRent (R : Runtime) : ℕ :=
  (R.minimumBalance (DISCRIMINATOR_SIZE + LockAccount.INIT_SPACE)).toNat

structure WellKept (R : Runtime) (s : Accounts) : Prop where
  vaults : ∀ u, s.data (vaultAddress u) = .empty
  rents : ∀ {u n lockAccount}, s.data (lockAddress u n) = .lock lockAccount →
    lockRent R ≤ s.balance (lockAddress u n)

theorem toNat_le_max (a b : UInt64) : a.toNat ≤ (max a b).toNat := by
  show a.toNat ≤ (if a ≤ b then b else a).toNat
  split_ifs with h
  · exact UInt64.le_iff_toNat_le.mp h
  · exact Nat.le_refl _

theorem rent_of_payRent {minimumBalance : ℕ → UInt64} {payer : Key} {field : Pubkey} {space : ℕ}
    (hfield : field ≠ .key payer) (h : s.payRent minimumBalance payer field space = .ok s') :
    (minimumBalance space).toNat ≤ s'.balance field := by
  have hpaid {amount : UInt64} (htransfer : s.transfer (.key payer) field amount = .ok s') :
      s'.balance field = s.balance field + amount.toNat := by
    have hmoved := (transfer_eq_ok htransfer).2 field
    rwa [if_neg hfield, if_pos rfl, Nat.add_zero] at hmoved
  unfold payRent at h
  split_ifs at h with hzero hlow
  · have hbalance := hpaid h
    omega
  · have hbalance := hpaid h
    have hmax := toNat_le_max (minimumBalance space) 1
    rw [UInt64.toNat_sub_of_le _ _ (UInt64.le_of_lt hlow)] at hbalance
    simp only [balance] at *
    omega
  · cases h
    exact (toNat_le_max (minimumBalance space) 1).trans
      (UInt64.le_iff_toNat_le.mp (UInt64.not_lt.mp hlow))

/-- What a fresh lock holds is what its creation left there. -/
theorem paid_of_lock {a : Lock} {recoverInfo : ED25519RecoverInfo} {amount : UInt64}
    (h : lock R ctx a recoverInfo amount s = .ok s')
    (huser : s.data (userAddress a.user) = .user account) :
    ∃ paid, s.payRent R.minimumBalance a.payer (lockAddress a.user account.nonce)
        (DISCRIMINATOR_SIZE + LockAccount.INIT_SPACE) = .ok paid ∧
      s'.balance (lockAddress a.user account.nonce) =
        paid.balance (lockAddress a.user account.nonce) := by
  simp only [lock, init, bind_eq_ok, require_eq_ok, pure_eq_ok, loaded_eq_ok,
    AccountData.user?_eq_some] at h
  obtain ⟨globalAccount, -, account', huser', -, -, -, -, mid,
    ⟨-, hfield, paid, hpaid, -, -, rfl⟩, -, -, -, -, -, haddr, -, -, -, -, available, -, -, -,
    nonce, -, lockedAmount, -, rfl⟩ := h
  rw [haddr, huser] at huser'
  cases huser'
  refine ⟨paid, hfield ▸ hpaid, ?_⟩
  rw [balance_setData, balance_setData, balance_setData]

theorem rent_of_lock {a : Lock} {recoverInfo : ED25519RecoverInfo} {amount : UInt64}
    (h : lock R ctx a recoverInfo amount s = .ok s')
    (huser : s.data (userAddress a.user) = .user account) :
    lockRent R ≤ s'.balance (lockAddress a.user account.nonce) := by
  obtain ⟨paid, hpaid, hbalance⟩ := paid_of_lock h huser
  rw [hbalance]
  exact rent_of_payRent Pubkey.noConfusion hpaid

theorem Done.vault_data {op : Op} (done : Done R s s' op) (u : Key) :
    s'.data (vaultAddress u) = s.data (vaultAddress u) := by
  cases done with
  | initialize_ done => rw [done.data, Function.update_of_ne vaultAddress_ne_global]
  | setBot done | setTreasury done =>
      obtain ⟨globalAccount, -, -, hdata⟩ := done.changed
      rw [hdata, Function.update_of_ne vaultAddress_ne_global]
  | register done => rw [done.data, Function.update_of_ne userAddress_ne_vault.symm]
  | deposit done | withdraw done => rw [done.data]
  | lock globalAccount account updated done =>
      rw [done.data, Function.update_of_ne vaultAddress_ne_lock,
        Function.update_of_ne userAddress_ne_vault.symm]
  | settle globalAccount account updated lockAccount done =>
      rw [done.data, Function.update_of_ne userAddress_ne_vault.symm,
        Function.update_of_ne vaultAddress_ne_lock]
  | pay globalAccount account updated done =>
      rw [done.data, Function.update_of_ne userAddress_ne_vault.symm]
  | transferIn data balance => rw [data]
  | world data balance => exact data _

theorem WellKept.step (h : WellKept R s) {op : Op} (hstep : (system R).step s op = some s') :
    WellKept R s' := by
  have done := step_done hstep
  refine ⟨fun u => (done.vault_data u).trans (h.vaults u), fun {u n lockAccount} hlock => ?_⟩
  by_cases hbefore : s.data (lockAddress u n) = .lock lockAccount
  · refine (h.rents hbefore).trans (done.balance_le fun hsource => ?_)
    -- only a settle takes from a lock, and it closes it
    cases done with
    | @settle ctx a nonce amount globalAccount account updated lockAccount done =>
        have hsame : lockAddress u n = lockAddress a.user nonce := by
          rcases List.mem_cons.mp hsource with hvault | hsource
          · exact absurd hvault.symm vaultAddress_ne_lock
          · exact List.mem_singleton.mp hsource
        rw [hsame, done.data, Function.update_of_ne userAddress_ne_lock.symm,
          Function.update_self] at hlock
        cases hlock
    | withdraw done | pay globalAccount account updated done =>
        exact vaultAddress_ne_lock (List.mem_singleton.mp hsource).symm
    | _ => cases hsource
  · obtain ⟨ctx, a, recoverInfo, globalAccount, account, updated, rfl, rfl, rfl, done⟩ :=
      opened_by_lock hstep hbefore hlock
    exact rent_of_lock (toOption_eq_some hstep) done.registered

theorem run_wellKept {s₀ : Accounts} (h₀ : Uninitialised s₀) (ops : List Op) :
    WellKept R ((system R).run s₀ ops) := by
  refine System.run_invariant (fun h hstep => WellKept.step h hstep) ⟨fun u => h₀ _, ?_⟩ ops
  intro u n lockAccount hlock
  cases (h₀ _).symm.trans hlock

/-! ### No instruction makes lamports -/

def Op.isInvoke : Op → Prop
  | .invoke _ _ => True
  | _ => False

theorem TotalBelow.step {bound : ℕ} {op : Op} (hop : op.isInvoke) (h : TotalBelow bound s)
    (hstep : (system R).step s op = some s') : TotalBelow bound s' := by
  cases step_done hstep with
  | initialize_ done =>
      obtain ⟨rent, hrent⟩ := done.rentPaid
      exact h.of_moves hrent
  | setBot done | setTreasury done =>
      intro F
      rw [done.balance]
      exact h F
  | register done =>
      obtain ⟨rent, hrent⟩ := done.rentPaid
      exact h.of_moves hrent
  | deposit done => exact h.of_moves done.moved
  | withdraw done => exact h.of_moves done.moved
  | lock globalAccount account updated done =>
      obtain ⟨rent, hrent⟩ := done.rentPaid
      exact h.of_moves hrent
  | settle globalAccount account updated lockAccount done =>
      obtain ⟨mid, hpaid, hclosed⟩ := done.moved
      exact (h.of_moves hpaid).of_moves hclosed
  | pay globalAccount account updated done => exact h.of_moves done.moved
  | transferIn data balance | world data balance => cases hop

theorem SupplyBelow.step {op : Op} (hop : op.isInvoke) (h : SupplyBelow s)
    (hstep : (system R).step s op = some s') : SupplyBelow s' :=
  TotalBelow.step hop h hstep

namespace Sample

theorem start_supply : SupplyBelow start := by
  refine totalBelow_of_held [(.key payer, 1000000000), (.key user, 100000000)]
    (fun a => ?_) (by decide)
  simp only [balance, start, List.map_cons, List.map_nil, List.sum_cons, List.sum_nil]
  split_ifs <;> decide

theorem run_supply (n : ℕ) : SupplyBelow ((system runtime).run start (ops.take n)) := by
  have hops : (system runtime).Throughout (fun _ op => op.isInvoke) start ops := by
    simp [ops, System.Throughout, Op.isInvoke]
  exact (hops.take n).invariant (fun hop h hstep => SupplyBelow.step hop h hstep) start_supply

end Sample

end DsProxy.BalancePayment
