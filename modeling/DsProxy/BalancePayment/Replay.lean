import DsProxy.BalancePayment.Refinement

/-!
# Each authorisation is spent at most once

A nonce is spent by one `lock` or one `pay`, and a lock is closed by one `settle`. Both facts are
about runs: what is spent once stays spent.
-/

namespace DsProxy.BalancePayment

open Accounts Runs System

variable {R : Runtime} {s s' : Accounts} {u : Key} {n : UInt64} {account : UserAccount} {op : Op}

/-- The user whose nonce a successful operation uses up: that of a `lock` or a `pay`. -/
def Op.consumer : Op → Option Key
  | .invoke _ (.lock a _ _) => some a.user
  | .invoke _ (.pay a _ _) => some a.user
  | _ => none

/-- The operation is a `lock` or `pay` of the user while the user's nonce is `n`. -/
def Consumes (op : Op) (s : Accounts) (u : Key) (n : UInt64) : Prop :=
  op.consumer = some u ∧ ∃ account, s.data (userAddress u) = .user account ∧ account.nonce = n

/-- The operation is a `settle` of the user's lock at nonce `n`. -/
def Settles (op : Op) (u : Key) (n amount : UInt64) : Prop :=
  ∃ ctx a, op = .invoke ctx (.settle a n amount) ∧ a.user = u

/-! ### One step -/

/-- A registered user stays registered, and the nonce moves by one exactly on a `lock` or `pay`. -/
theorem user_of_step (hstep : (system R).step s op = some s')
    (huser : s.data (userAddress u) = .user account) :
    ∃ updated, s'.data (userAddress u) = .user updated ∧
      updated.nonce.toNat = account.nonce.toNat + (if op.consumer = some u then 1 else 0) := by
  cases step_done hstep with
  | initialize_ done =>
      refine ⟨account, ?_, rfl⟩
      rw [done.data, Function.update_of_ne userAddress_ne_global, huser]
  | setBot done | setTreasury done =>
      obtain ⟨globalAccount, -, -, hdata⟩ := done.changed
      refine ⟨account, ?_, rfl⟩
      rw [hdata, Function.update_of_ne userAddress_ne_global, huser]
  | @register ctx a done =>
      refine ⟨account, ?_, rfl⟩
      have hu : userAddress u ≠ userAddress a.user := fun h => by
        cases (h ▸ huser).symm.trans done.unused
      rw [done.data, Function.update_of_ne hu, huser]
  | deposit done | withdraw done => exact ⟨account, done.data ▸ huser, rfl⟩
  | @lock ctx a recoverInfo amount globalAccount before updated done =>
      by_cases hu : a.user = u
      · subst hu
        cases huser.symm.trans done.registered
        refine ⟨updated, ?_, by rw [done.nonceNext, Op.consumer, if_pos rfl]⟩
        rw [done.data, Function.update_of_ne userAddress_ne_lock, Function.update_self]
      · refine ⟨account, ?_, by simp [Op.consumer, hu]⟩
        rw [done.data, Function.update_of_ne userAddress_ne_lock,
          Function.update_of_ne (by simpa using Ne.symm hu), huser]
  | @settle ctx a nonce amount globalAccount before updated lockAccount done =>
      by_cases hu : a.user = u
      · subst hu
        cases huser.symm.trans done.registered
        refine ⟨updated, ?_, by rw [done.nonceKept]; rfl⟩
        rw [done.data, Function.update_self]
      · refine ⟨account, ?_, rfl⟩
        rw [done.data, Function.update_of_ne (by simpa using Ne.symm hu),
          Function.update_of_ne userAddress_ne_lock, huser]
  | @pay ctx a recoverInfo amount globalAccount before updated done =>
      by_cases hu : a.user = u
      · subst hu
        cases huser.symm.trans done.registered
        refine ⟨updated, ?_, by rw [done.nonceNext, Op.consumer, if_pos rfl]⟩
        rw [done.data, Function.update_self]
      · refine ⟨account, ?_, by simp [Op.consumer, hu]⟩
        rw [done.data, Function.update_of_ne (by simpa using Ne.symm hu), huser]
  | transferIn data balance => exact ⟨account, data ▸ huser, rfl⟩
  | world data balance => exact ⟨account, (data _).trans huser, rfl⟩

/-- An open lock was opened by a `lock` of its user at its nonce, for its amount. -/
theorem opened_by_lock {lockAccount : LockAccount} (hstep : (system R).step s op = some s')
    (hbefore : s.data (lockAddress u n) ≠ .lock lockAccount)
    (hafter : s'.data (lockAddress u n) = .lock lockAccount) :
    ∃ ctx a recoverInfo globalAccount account updated,
      op = .invoke ctx (.lock a recoverInfo lockAccount.amount) ∧ a.user = u ∧
      account.nonce = n ∧
      LockDone R ctx a recoverInfo lockAccount.amount s s' globalAccount account updated := by
  cases step_done hstep with
  | initialize_ done =>
      rw [done.data, Function.update_of_ne lockAddress_ne_global] at hafter
      exact absurd hafter hbefore
  | setBot done | setTreasury done =>
      obtain ⟨globalAccount, -, -, hdata⟩ := done.changed
      rw [hdata, Function.update_of_ne lockAddress_ne_global] at hafter
      exact absurd hafter hbefore
  | register done =>
      rw [done.data, Function.update_of_ne userAddress_ne_lock.symm] at hafter
      exact absurd hafter hbefore
  | deposit done | withdraw done => exact absurd (done.data ▸ hafter) hbefore
  | @lock ctx a recoverInfo amount globalAccount account updated done =>
      by_cases hlock : lockAddress u n = lockAddress a.user account.nonce
      · obtain ⟨hu, hn⟩ := lockAddress_inj.mp hlock
        rw [done.data, hlock, Function.update_self] at hafter
        cases hafter
        exact ⟨ctx, a, recoverInfo, globalAccount, account, updated, rfl, hu.symm, hn.symm, done⟩
      · rw [done.data, Function.update_of_ne hlock,
          Function.update_of_ne userAddress_ne_lock.symm] at hafter
        exact absurd hafter hbefore
  | @settle ctx a nonce amount globalAccount account updated closed done =>
      rw [done.data, Function.update_of_ne userAddress_ne_lock.symm] at hafter
      by_cases hlock : lockAddress u n = lockAddress a.user nonce
      · rw [hlock, Function.update_self] at hafter
        cases hafter
      · rw [Function.update_of_ne hlock] at hafter
        exact absurd hafter hbefore
  | pay globalAccount account updated done =>
      rw [done.data, Function.update_of_ne userAddress_ne_lock.symm] at hafter
      exact absurd hafter hbefore
  | transferIn data balance => exact absurd (data ▸ hafter) hbefore
  | world data balance => exact absurd ((data _).symm.trans hafter) hbefore

/-- The lock at nonce `n` was opened and is closed again. -/
def Closed (s : Accounts) (u : Key) (n : UInt64) : Prop :=
  ∃ e, Refines s u (some e) ∧ n.toNat < e.next ∧ e.held n.toNat = none

theorem closed_of_step (hstep : (system R).step s op = some s') (h : Closed s u n) :
    Closed s' u n := by
  obtain ⟨e, href, hlt, hnone⟩ := h
  obtain ⟨o', hlife, href'⟩ := step_refines hstep href
  cases hlife with
  | used steps =>
      obtain ⟨hlt', hnone'⟩ := Escrow.closed_of_steps steps hlt hnone
      exact ⟨_, href', hlt', hnone'⟩

theorem SettleDone.held {ctx : Context} {a : Settle} {nonce amount : UInt64}
    {globalAccount : GlobalAccount} {updated : UserAccount} {lockAccount : LockAccount}
    (done : SettleDone R ctx a nonce amount s s' globalAccount account updated lockAccount)
    {e : Escrow} (tracks : Tracks s a.user account e) :
    e.held nonce.toNat = some lockAccount.amount.toNat :=
  holds_lock.mp (done.opened ▸ tracks.locks nonce)

theorem settle_closes {amount : UInt64} {o : Option Escrow} (hsettles : Settles op u n amount)
    (href : Refines s u o) (hstep : (system R).step s op = some s') : Closed s' u n := by
  obtain ⟨ctx, a, rfl, rfl⟩ := hsettles
  cases step_done hstep with
  | settle globalAccount account updated lockAccount done =>
      obtain ⟨e, rfl, tracks⟩ := href.tracks done.registered
      have hlt := Escrow.lt_next_of_held (done.held tracks)
      obtain ⟨o', -, href'⟩ := step_refines hstep href
      have huser : s'.data (userAddress a.user) = .user updated := by
        rw [done.data, Function.update_self]
      obtain ⟨e', rfl, tracks'⟩ := href'.tracks huser
      refine ⟨e', href', ?_, ?_⟩
      · rw [← tracks'.nonce, done.nonceKept, tracks.nonce]
        exact hlt
      · have hholds := tracks'.locks n
        rw [done.data, Function.update_of_ne userAddress_ne_lock.symm, Function.update_self]
          at hholds
        exact holds_empty.mp hholds

theorem not_settles_of_closed {amount : UInt64} (hclosed : Closed s u n)
    (hsettles : Settles op u n amount) (hstep : (system R).step s op = some s') : False := by
  obtain ⟨ctx, a, rfl, rfl⟩ := hsettles
  obtain ⟨e, href, -, hnone⟩ := hclosed
  cases step_done hstep with
  | settle globalAccount account updated lockAccount done =>
      obtain ⟨_, ⟨⟩, tracks⟩ := href.tracks done.registered
      exact absurd ((done.held tracks).symm.trans hnone) (by simp)

/-! ### Whole runs -/

/-- Replay safety of a run. -/
structure SpentOnce (R : Runtime) (s₀ : Accounts) (ops : List Op) : Prop where
  /-- At most one successful `lock` or `pay` consumes nonce `n` of `u`. -/
  consumed_once : ∀ {u : Key} {n : UInt64} {i j : ℕ} {a b : Op} {s s' t t' : Accounts},
    StepAt (system R) s₀ ops i a s s' → StepAt (system R) s₀ ops j b t t' →
    Consumes a s u n → Consumes b t u n → i = j
  /-- A nonce grows by one on each successful `lock` or `pay` of its user and on nothing else. -/
  nonce_step : ∀ {u : Key} {account : UserAccount} {i : ℕ} {op : Op} {s s' : Accounts},
    StepAt (system R) s₀ ops i op s s' → s.data (userAddress u) = .user account →
    ∃ updated, s'.data (userAddress u) = .user updated ∧
      updated.nonce.toNat = account.nonce.toNat + (if op.consumer = some u then 1 else 0)
  /-- Every open lock lies below its user's nonce. -/
  open_lt : ∀ {u : Key} {n : UInt64} {lockAccount : LockAccount},
    ((system R).run s₀ ops).data (lockAddress u n) = .lock lockAccount →
    ∃ account, ((system R).run s₀ ops).data (userAddress u) = .user account ∧
      n.toNat < account.nonce.toNat
  /-- The address of the next lock is unused. -/
  next_unused : ∀ {u : Key} {account : UserAccount},
    ((system R).run s₀ ops).data (userAddress u) = .user account →
    ((system R).run s₀ ops).data (lockAddress u account.nonce) = .empty
  /-- At most one `settle` succeeds for each lock. -/
  settled_once : ∀ {u : Key} {n amount amount' : UInt64} {i j : ℕ} {a b : Op}
      {s s' t t' : Accounts},
    StepAt (system R) s₀ ops i a s s' → StepAt (system R) s₀ ops j b t t' →
    Settles a u n amount → Settles b u n amount' → i = j
  /-- It comes after the lock and moves at most the lock's amount out of the vault. -/
  settled_after_lock : ∀ {u : Key} {n amount : UInt64} {i : ℕ} {op : Op} {s s' : Accounts},
    StepAt (system R) s₀ ops i op s s' → Settles op u n amount →
    ∃ j ctx a recoverInfo locked t t', j < i ∧
      StepAt (system R) s₀ ops j (.invoke ctx (.lock a recoverInfo locked)) t t' ∧
      Consumes (.invoke ctx (.lock a recoverInfo locked)) t u n ∧ amount ≤ locked ∧
      s.balance (vaultAddress u) ≤ s'.balance (vaultAddress u) + locked.toNat

variable {s₀ : Accounts} {ops : List Op}

/-- Once consumed, a nonce is below the user's nonce for good. -/
theorem consumed_once {i j : ℕ} {a b : Op} {t t' : Accounts}
    (hi : StepAt (system R) s₀ ops i a s s') (hj : StepAt (system R) s₀ ops j b t t')
    (ha : Consumes a s u n) (hb : Consumes b t u n) : i = j := by
  refine StepAt.unique (fun op s => Consumes op s u n)
    (fun s => ∃ account, s.data (userAddress u) = .user account ∧
      n.toNat < account.nonce.toNat) ?_ ?_ ?_ hi hj ha hb
  · rintro s op s' ⟨hop, account, huser, rfl⟩ hstep
    obtain ⟨updated, huser', hnonce⟩ := user_of_step hstep huser
    rw [if_pos hop] at hnonce
    exact ⟨updated, huser', by omega⟩
  · rintro s op s' ⟨account, huser, hlt⟩ hstep
    obtain ⟨updated, huser', hnonce⟩ := user_of_step hstep huser
    exact ⟨updated, huser', by omega⟩
  · rintro s op s' ⟨account, huser, hlt⟩ ⟨-, account', huser', rfl⟩ -
    cases huser.symm.trans huser'
    exact Nat.lt_irrefl _ hlt

theorem settled_once (h₀ : Uninitialised s₀) {i j : ℕ} {a b : Op} {t t' : Accounts}
    {amount amount' : UInt64} (hi : StepAt (system R) s₀ ops i a s s')
    (hj : StepAt (system R) s₀ ops j b t t') (ha : Settles a u n amount)
    (hb : Settles b u n amount') : i = j := by
  refine StepAt.unique (fun op s => ∃ amount o, Settles op u n amount ∧ Refines s u o)
    (fun s => Closed s u n) ?_ (fun h hstep => closed_of_step hstep h) ?_ hi hj ?_ ?_
  · rintro s op s' ⟨amount, o, hop, href⟩ hstep
    exact settle_closes hop href hstep
  · rintro s op s' hclosed ⟨amount, o, hop, -⟩ hstep
    exact not_settles_of_closed hclosed hop hstep
  · obtain ⟨o, href⟩ := run_refines (R := R) h₀ (ops.take i) u
    exact ⟨amount, o, ha, hi.before ▸ href⟩
  · obtain ⟨o, href⟩ := run_refines (R := R) h₀ (ops.take j) u
    exact ⟨amount', o, hb, hj.before ▸ href⟩

/-- Any lock found open in a run was opened by an earlier `lock` of that run. -/
theorem exists_lock_step (h₀ : Uninitialised s₀) {i : ℕ} {lockAccount : LockAccount}
    (hlock : ((system R).run s₀ (ops.take i)).data (lockAddress u n) = .lock lockAccount) :
    ∃ j ctx a recoverInfo t t' globalAccount account updated, j < i ∧
      StepAt (system R) s₀ ops j (.invoke ctx (.lock a recoverInfo lockAccount.amount)) t t' ∧
      a.user = u ∧ account.nonce = n ∧
      LockDone R ctx a recoverInfo lockAccount.amount t t' globalAccount account updated := by
  have hfirst : s₀.data (lockAddress u n) ≠ .lock lockAccount := by
    rw [lockAddress, h₀]
    exact AccountData.noConfusion
  obtain ⟨j, op, t, t', -, hj, hat, hbefore, hafter⟩ := exists_step_between
    (P := fun s : Accounts => s.data (lockAddress u n) = .lock lockAccount) (Nat.zero_le i) hfirst
    hlock
  obtain ⟨ctx, a, recoverInfo, globalAccount, account, updated, rfl, hu, hn, done⟩ :=
    opened_by_lock hat.step hbefore hafter
  exact ⟨j, ctx, a, recoverInfo, t, t', globalAccount, account, updated, hj, hat, hu, hn, done⟩

theorem settled_after_lock (h₀ : Uninitialised s₀) {i : ℕ} {amount : UInt64}
    (hi : StepAt (system R) s₀ ops i op s s') (hop : Settles op u n amount) :
    ∃ j ctx a recoverInfo locked t t', j < i ∧
      StepAt (system R) s₀ ops j (.invoke ctx (.lock a recoverInfo locked)) t t' ∧
      Consumes (.invoke ctx (.lock a recoverInfo locked)) t u n ∧ amount ≤ locked ∧
      s.balance (vaultAddress u) ≤ s'.balance (vaultAddress u) + locked.toNat := by
  obtain ⟨ctx, a, rfl, rfl⟩ := hop
  cases step_done hi.step with
  | settle globalAccount account updated lockAccount done =>
      have hopened := done.opened
      rw [hi.before] at hopened
      obtain ⟨j, ctx', a', recoverInfo, t, t', globalAccount', account', updated', hj, hat, hu, hn,
        locked⟩ := exists_lock_step h₀ hopened
      refine ⟨j, ctx', a', recoverInfo, lockAccount.amount, t, t', hj, hat, ⟨?_, account', ?_, hn⟩,
        UInt64.le_iff_toNat_le.mpr done.atMost, ?_⟩
      · rw [Op.consumer, hu]
      · exact hu ▸ locked.registered
      · obtain ⟨mid, hpaid, hclosed⟩ := done.moved
        have hpaid := hpaid (vaultAddress a.user)
        have hclosed := hclosed (vaultAddress a.user)
        have hatMost := done.atMost
        rw [if_pos rfl] at hpaid
        rw [if_neg vaultAddress_ne_lock, if_neg key_ne_vault.symm] at hclosed
        omega

/-- Every run spends each nonce and each lock at most once. -/
theorem authorisation_spent_once (R : Runtime) (h₀ : Uninitialised s₀) (ops : List Op) :
    SpentOnce R s₀ ops where
  consumed_once := consumed_once
  nonce_step hi huser := user_of_step hi.step huser
  open_lt {u n lockAccount} hlock := by
    obtain ⟨o, href⟩ := run_refines (R := R) h₀ ops u
    cases href with
    | unregistered user locks => cases (locks n).symm.trans hlock
    | @registered account e tracks =>
        refine ⟨account, tracks.user, ?_⟩
        rw [tracks.nonce]
        exact Escrow.lt_next_of_held (holds_lock.mp (hlock ▸ tracks.locks n))
  next_unused {u account} huser := by
    obtain ⟨e, tracks⟩ := run_tracks h₀ huser
    have hholds := tracks.locks account.nonce
    rwa [tracks.nonce, e.fresh e.next le_rfl] at hholds
  settled_once := settled_once h₀
  settled_after_lock := settled_after_lock h₀

theorem authorisation_spent_once_sample :
    SpentOnce Sample.runtime Sample.start Sample.ops ∧
      ((system Sample.runtime).run Sample.start Sample.ops).data (userAddress Sample.user) =
        .user ⟨2, 20000000, vaultAddress Sample.user⟩ :=
  ⟨authorisation_spent_once Sample.runtime (fun _ => rfl) Sample.ops, Sample.run_user⟩

end DsProxy.BalancePayment
