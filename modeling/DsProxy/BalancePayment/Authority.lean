import DsProxy.BalancePayment.Replay

/-!
# Who may take money out of a vault

Every step that lowers a vault is a withdrawal of its owner, or a payment or settlement by the
configured bot to the configured treasury that a signature of the owner stands behind. For a
settlement the signature is in the past, at the `lock` that opened what is settled.
-/

namespace DsProxy.BalancePayment

open Accounts Runs System

variable {R : Runtime} {s₀ s s' : Accounts} {u : Key} {n : UInt64} {op : Op} {ops : List Op}

/-- The instruction is signed by the bot of the global account. -/
def ByBot (ctx : Context) (bot : Key) (s : Accounts) (globalAccount : GlobalAccount) : Prop :=
  s.data globalAddress = .global globalAccount ∧ globalAccount.bot = .key bot ∧ bot ∈ ctx.signers

/-- The info carries the user's signature over the user's nonce in this state, still alive. -/
def Authorisation (R : Runtime) (ctx : Context) (recoverInfo : ED25519RecoverInfo) (u : Key)
    (n : UInt64) (s : Accounts) : Prop :=
  (∃ account, s.data (userAddress u) = .user account ∧ account.nonce = n) ∧
    recoverInfo.SignedBy R.toCrypto n u ∧ ctx.unixTimestamp ≤ recoverInfo.deadline

/-- What an operation at position `i` of a run must be to take lamports out of `u`'s vault. -/
def Debits (R : Runtime) (s₀ : Accounts) (ops : List Op) (i : ℕ) (u : Key) (s s' : Accounts) :
    Op → Prop
  | .invoke ctx (.withdraw a amount) =>
    a.user = u ∧ u ∈ ctx.signers ∧ s.Moves s' (vaultAddress u) (.key u) amount.toNat
  | .invoke ctx (.pay a recoverInfo amount) =>
    a.user = u ∧ ∃ globalAccount n, ByBot ctx a.bot s globalAccount ∧
      Authorisation R ctx recoverInfo u n s ∧
      s.Moves s' (vaultAddress u) globalAccount.treasury amount.toNat
  | .invoke ctx (.settle a n amount) =>
    a.user = u ∧ ∃ globalAccount, ByBot ctx a.bot s globalAccount ∧
      (∃ mid rent, s.Moves mid (vaultAddress u) globalAccount.treasury amount.toNat ∧
        mid.Moves s' (lockAddress u n) (.key a.payer) rent) ∧
      ∃ j ctx' a' recoverInfo locked t t', j < i ∧
        StepAt (system R) s₀ ops j (.invoke ctx' (.lock a' recoverInfo locked)) t t' ∧
        a'.user = u ∧ Authorisation R ctx' recoverInfo u n t ∧ amount ≤ locked
  | _ => False

theorem Authorised.authorisation {ctx : Context} {bot : Key} {recoverInfo : ED25519RecoverInfo}
    {amount : UInt64} {globalAccount : GlobalAccount} {account updated : UserAccount}
    (h : Authorised R ctx bot u recoverInfo amount s globalAccount account updated) :
    ByBot ctx bot s globalAccount ∧ Authorisation R ctx recoverInfo u account.nonce s :=
  ⟨⟨h.configured, h.botIsConfigured, h.botSigned⟩, ⟨account, h.registered, rfl⟩, h.signedByUser,
    h.live⟩

theorem debits_of_lt (h₀ : Uninitialised s₀) {i : ℕ} (hi : StepAt (system R) s₀ ops i op s s')
    (hlt : s'.balance (vaultAddress u) < s.balance (vaultAddress u)) :
    Debits R s₀ ops i u s s' op := by
  cases step_done hi.step with
  | initialize_ done =>
      obtain ⟨rent, hrent⟩ := done.rentPaid
      exact absurd hlt (balance_vault_of_payer_moves hrent vaultAddress_ne_global.symm).ge.not_gt
  | setBot done | setTreasury done => exact absurd hlt (by rw [done.balance]; exact lt_irrefl _)
  | register done =>
      obtain ⟨rent, hrent⟩ := done.rentPaid
      exact absurd hlt (balance_vault_of_payer_moves hrent userAddress_ne_vault).ge.not_gt
  | deposit done =>
      have hmoved := done.moved (vaultAddress u)
      rw [if_neg key_ne_vault.symm] at hmoved
      omega
  | @withdraw ctx a amount done =>
      have hmoved := done.moved (vaultAddress u)
      by_cases hu : a.user = u
      · subst hu
        exact ⟨rfl, done.signed, done.moved⟩
      · rw [if_neg (by simpa using Ne.symm hu)] at hmoved
        omega
  | lock globalAccount account updated done =>
      obtain ⟨rent, hrent⟩ := done.rentPaid
      exact absurd hlt (balance_vault_of_payer_moves hrent vaultAddress_ne_lock.symm).ge.not_gt
  | @settle ctx a nonce amount globalAccount account updated lockAccount done =>
      obtain ⟨mid, hpaid, hclosed⟩ := done.moved
      by_cases hu : a.user = u
      · subst hu
        have hopened := done.opened
        rw [hi.before] at hopened
        obtain ⟨j, ctx', a', recoverInfo, t, t', globalAccount', account', updated', hj, hat, hu,
          rfl, locked⟩ := exists_lock_step h₀ hopened
        exact ⟨rfl, globalAccount, ⟨done.configured, done.botIsConfigured, done.botSigned⟩,
          ⟨mid, _, hpaid, hclosed⟩, j, ctx', a', recoverInfo, lockAccount.amount, t, t', hj, hat,
          hu, hu ▸ locked.authorisation.2, UInt64.le_iff_toNat_le.mpr done.atMost⟩
      · have hpaid := hpaid (vaultAddress u)
        have hclosed := hclosed (vaultAddress u)
        rw [if_neg (by simpa using Ne.symm hu)] at hpaid
        rw [if_neg vaultAddress_ne_lock] at hclosed
        omega
  | @pay ctx a recoverInfo amount globalAccount account updated done =>
      by_cases hu : a.user = u
      · subst hu
        obtain ⟨hbot, hauthorised⟩ := done.authorisation
        exact ⟨rfl, globalAccount, account.nonce, hbot, hauthorised, done.moved⟩
      · have hmoved := done.moved (vaultAddress u)
        rw [if_neg (by simpa using Ne.symm hu)] at hmoved
        omega
  | transferIn data balance =>
      rw [balance] at hlt
      omega
  | world data balance => exact absurd hlt (balance _).ge.not_gt

/-! ### The global account -/

def globalAccount? (s : Accounts) : Option GlobalAccount := (s.data globalAddress).global?

/-- The two configured keys of the global account. -/
inductive Role
  | bot
  | treasury

def Role.read : Role → GlobalAccount → Pubkey
  | bot, account => account.bot
  | treasury, account => account.treasury

/-- The key an operation configures for a role, when it is accepted. -/
def Role.setBy : Role → Op → Option Pubkey
  | bot, .invoke _ (.initialize_ a) => some a.bot
  | bot, .invoke _ (.setBot a) => some a.bot
  | treasury, .invoke _ (.initialize_ a) => some a.treasury
  | treasury, .invoke _ (.setTreasury a) => some a.treasury
  | _, _ => none

/-- A change of configuration carries the authority's signature. -/
def SignedByAuthority (authority : Pubkey) : Op → Prop
  | .invoke ctx (.setBot a) => authority = .key a.authority ∧ a.authority ∈ ctx.signers
  | .invoke ctx (.setTreasury a) => authority = .key a.authority ∧ a.authority ∈ ctx.signers
  | _ => True

theorem ConfigDone.global {ctx : Context} {authority : Key} {change : GlobalAccount → GlobalAccount}
    (done : ConfigDone ctx authority change s s') :
    ∃ account, globalAccount? s = some account ∧ account.authority = .key authority ∧
      globalAccount? s' = some (change account) := by
  obtain ⟨account, hglobal, hauthority, hdata⟩ := done.changed
  refine ⟨account, AccountData.global?_eq_some.mpr hglobal, hauthority, ?_⟩
  rw [globalAccount?, hdata, Function.update_self]
  rfl

theorem InitializeDone.global {ctx : Context} {a : Initialize} (done : InitializeDone ctx a s s') :
    globalAccount? s = none ∧ globalAccount? s' = some ⟨a.authority, a.bot, a.treasury⟩ := by
  constructor
  · rw [globalAccount?, done.unused]
    rfl
  · rw [globalAccount?, done.data, Function.update_self]
    rfl

theorem global_of_step (hstep : (system R).step s op = some s')
    (hop : ∀ role, Role.setBy role op = none) : globalAccount? s' = globalAccount? s := by
  unfold globalAccount?
  cases step_done hstep with
  | initialize_ | setBot => cases hop .bot
  | setTreasury => cases hop .treasury
  | register done => rw [done.data, Function.update_of_ne userAddress_ne_global.symm]
  | deposit done | withdraw done => rw [done.data]
  | lock globalAccount account updated done =>
      rw [done.data, Function.update_of_ne lockAddress_ne_global.symm,
        Function.update_of_ne userAddress_ne_global.symm]
  | settle globalAccount account updated lockAccount done =>
      rw [done.data, Function.update_of_ne userAddress_ne_global.symm,
        Function.update_of_ne lockAddress_ne_global.symm]
  | pay globalAccount account updated done =>
      rw [done.data, Function.update_of_ne userAddress_ne_global.symm]
  | transferIn data balance => rw [data]
  | world data balance => rw [globalAddress, data]

theorem role_of_step (role : Role) (hstep : (system R).step s op = some s') :
    (globalAccount? s').map role.read =
      (role.setBy op).or ((globalAccount? s).map role.read) := by
  cases step_done hstep with
  | initialize_ done =>
      rw [done.global.2]
      cases role <;> rfl
  | setBot done | setTreasury done =>
      obtain ⟨account, hbefore, -, hafter⟩ := done.global
      rw [hbefore, hafter]
      cases role <;> rfl
  | _ =>
      rw [global_of_step hstep (by rintro (_ | _) <;> rfl)]
      cases role <;> rfl

/-- What one accepted operation does to the authority: nothing, once there is one. -/
theorem authority_of_step (hstep : (system R).step s op = some s') {account : GlobalAccount}
    (h : globalAccount? s = some account) : SignedByAuthority account.authority op ∧
      ∃ account', globalAccount? s' = some account' ∧ account'.authority = account.authority := by
  cases step_done hstep with
  | initialize_ done => cases h.symm.trans done.global.1
  | setBot done | setTreasury done =>
      obtain ⟨before, hbefore, hauthority, hafter⟩ := done.global
      cases h.symm.trans hbefore
      exact ⟨⟨hauthority, done.signed⟩, _, hafter, rfl⟩
  | _ =>
      rw [global_of_step hstep (by rintro (_ | _) <;> rfl)]
      exact ⟨trivial, account, h, rfl⟩

theorem authority_kept {account : GlobalAccount} (h : globalAccount? s = some account)
    (ops : List Op) : ∃ account', globalAccount? ((system R).run s ops) = some account' ∧
      account'.authority = account.authority := by
  refine run_invariant (P := fun s => ∃ account', globalAccount? s = some account' ∧
    account'.authority = account.authority) ?_ ⟨account, h, rfl⟩ ops
  rintro s op s' ⟨before, hbefore, hkept⟩ hstep
  obtain ⟨-, after, hafter, hsame⟩ := authority_of_step hstep hbefore
  exact ⟨after, hafter, hsame.trans hkept⟩

/-- A configured key is the one of `initialize` or of the latest change, signed by the authority. -/
theorem latest_configuration (role : Role) (h₀ : Uninitialised s₀) {n : ℕ}
    {account : GlobalAccount}
    (h : globalAccount? ((system R).run s₀ (ops.take n)) = some account) :
    ∃ i op s s', StepAt (system R) s₀ ops i op s s' ∧ i < n ∧
      role.setBy op = some (role.read account) ∧ SignedByAuthority account.authority op ∧
      ∀ j op' t t', i < j → j < n → StepAt (system R) s₀ ops j op' t t' →
        role.setBy op' = none := by
  have hfirst : (globalAccount? s₀).map role.read = none := by
    rw [globalAccount?, globalAddress, h₀]
    rfl
  have hread : (globalAccount? ((system R).run s₀ (ops.take n))).map role.read =
      some (role.read account) := by
    rw [h]
    rfl
  obtain ⟨i, op, s, s', hat, hin, hset, hlatest⟩ | ⟨hnow, -⟩ := last_write
    (fun s => (globalAccount? s).map role.read) role.setBy
    (fun hat => role_of_step role hat.step) hread
  rotate_left
  · cases hfirst.symm.trans hnow
  refine ⟨i, op, s, s', hat, hin, hset, ?_, hlatest⟩
  cases hglobal : globalAccount? s with
  | some before =>
      -- the authority has not changed between the change and now
      obtain ⟨hsigned, -⟩ := authority_of_step hat.step hglobal
      obtain ⟨mid, hmid⟩ := run_take_of_le (M := system R) s₀ ops hin.le
      obtain ⟨account', haccount', hsame⟩ := authority_kept (R := R) hglobal mid
      rw [hat.before, ← hmid, h] at haccount'
      cases haccount'
      rwa [hsame]
  | none =>
      cases step_done hat.step with
      | setBot done | setTreasury done =>
          obtain ⟨_, hbefore, -, -⟩ := done.global
          cases hglobal.symm.trans hbefore
      | _ => trivial

/-! ### Runs -/

/-- Who acts on the vaults and on the configuration in a run. -/
structure Governed (R : Runtime) (s₀ : Accounts) (ops : List Op) : Prop where
  /-- A step that lowers a vault is an authorised withdrawal, payment or settlement. -/
  debits : ∀ {u : Key} {i : ℕ} {op : Op} {s s' : Accounts}, StepAt (system R) s₀ ops i op s s' →
    s'.balance (vaultAddress u) < s.balance (vaultAddress u) → Debits R s₀ ops i u s s' op
  /-- The authority is that of the one successful `initialize`. -/
  initialized : ∀ {n : ℕ} {account : GlobalAccount},
    globalAccount? ((system R).run s₀ (ops.take n)) = some account →
    ∃ i ctx a s s', i < n ∧ StepAt (system R) s₀ ops i (.invoke ctx (.initialize_ a)) s s' ∧
      a.authority = account.authority ∧
      ∀ j ctx' a' t t', StepAt (system R) s₀ ops j (.invoke ctx' (.initialize_ a')) t t' → j = i
  /-- It never changes. -/
  authority_kept : ∀ {m n : ℕ} {account : GlobalAccount}, m ≤ n →
    globalAccount? ((system R).run s₀ (ops.take m)) = some account →
    ∃ account', globalAccount? ((system R).run s₀ (ops.take n)) = some account' ∧
      account'.authority = account.authority
  /-- Bot and treasury are those of `initialize` or the latest change, signed by the authority. -/
  configured : ∀ (role : Role) {n : ℕ} {account : GlobalAccount},
    globalAccount? ((system R).run s₀ (ops.take n)) = some account →
    ∃ i op s s', StepAt (system R) s₀ ops i op s s' ∧ i < n ∧
      role.setBy op = some (role.read account) ∧ SignedByAuthority account.authority op ∧
      ∀ j op' t t', i < j → j < n → StepAt (system R) s₀ ops j op' t t' → role.setBy op' = none

theorem initialized_once {i j : ℕ} {ctx ctx' : Context} {a a' : Initialize} {t t' : Accounts}
    (hi : StepAt (system R) s₀ ops i (.invoke ctx (.initialize_ a)) s s')
    (hj : StepAt (system R) s₀ ops j (.invoke ctx' (.initialize_ a')) t t') : i = j := by
  refine StepAt.unique (fun op _ => ∃ ctx a, op = .invoke ctx (.initialize_ a))
    (fun s => ∃ account, globalAccount? s = some account) ?_ ?_ ?_ hi hj
    ⟨ctx, a, rfl⟩ ⟨ctx', a', rfl⟩
  · rintro s op s' ⟨ctx, a, rfl⟩ hstep
    cases step_done hstep with
    | initialize_ done => exact ⟨_, done.global.2⟩
  · rintro s op s' ⟨account, h⟩ hstep
    obtain ⟨-, account', h', -⟩ := authority_of_step hstep h
    exact ⟨account', h'⟩
  · rintro s op s' ⟨account, h⟩ ⟨ctx, a, rfl⟩ hstep
    cases step_done hstep with
    | initialize_ done => cases h.symm.trans done.global.1

theorem exists_initialize (h₀ : Uninitialised s₀) {n : ℕ} {account : GlobalAccount}
    (h : globalAccount? ((system R).run s₀ (ops.take n)) = some account) :
    ∃ i ctx a s s', i < n ∧ StepAt (system R) s₀ ops i (.invoke ctx (.initialize_ a)) s s' ∧
      a.authority = account.authority := by
  have hfirst : ¬ ∃ account, globalAccount? s₀ = some account := by
    rintro ⟨account, h⟩
    rw [globalAccount?, globalAddress, h₀] at h
    cases h
  obtain ⟨i, op, s, s', -, hin, hat, hbefore, hafter⟩ := exists_step_between
    (P := fun s => ∃ account, globalAccount? s = some account) (Nat.zero_le n) hfirst ⟨account, h⟩
  cases step_done hat.step with
  | @initialize_ ctx a done =>
      refine ⟨i, ctx, a, s, s', hin, hat, ?_⟩
      obtain ⟨mid, hmid⟩ := hat.later hin
      obtain ⟨account', haccount', hsame⟩ := authority_kept (R := R) done.global.2 mid
      rw [← hmid, h] at haccount'
      cases haccount'
      exact hsame.symm
  | setBot done | setTreasury done =>
      obtain ⟨account, h, -, -⟩ := done.global
      exact absurd ⟨account, h⟩ hbefore
  | _ =>
      rw [global_of_step hat.step (by rintro (_ | _) <;> rfl)] at hafter
      exact absurd hafter hbefore

/-- Every debit of a vault is authorised, and the configuration is the authority's. -/
theorem vault_debits_authorised (R : Runtime) (h₀ : Uninitialised s₀) (ops : List Op) :
    Governed R s₀ ops where
  debits hat hlt := debits_of_lt h₀ hat hlt
  initialized h := by
    obtain ⟨i, ctx, a, s, s', hin, hat, hauthority⟩ := exists_initialize h₀ h
    exact ⟨i, ctx, a, s, s', hin, hat, hauthority, fun j ctx' a' t t' hj => initialized_once hj hat⟩
  authority_kept {m n account} hmn h := by
    obtain ⟨mid, hmid⟩ := run_take_of_le (M := system R) s₀ ops hmn
    rw [hmid]
    exact BalancePayment.authority_kept h mid
  configured role {n account} h := latest_configuration role h₀ h

theorem vault_debits_authorised_sample :
    Governed Sample.runtime Sample.start (Sample.ops ++ [Sample.settleOp]) :=
  vault_debits_authorised Sample.runtime (fun _ => rfl) (Sample.ops ++ [Sample.settleOp])

end DsProxy.BalancePayment
