import DsProxy.BalancePayment.Program

/-!
# Users are isolated

An instruction names one user. The seeds of the program's addresses differ for different users and
nonces, so the instruction reaches no account of another user; only the vault of another user may
gain, when it is the configured treasury.
-/

namespace DsProxy.BalancePayment

open Accounts Runs

/-! ### Seeds -/

/-- The accounts the program derives an address for. -/
inductive Derived
  | global
  | user (u : Key)
  | vault (u : Key)
  | lock (u : Key) (nonce : UInt64)

/-- The seeds of an account, concatenated. -/
def Derived.seeds : Derived → List UInt8
  | global => Bytes.ascii "GLOBAL"
  | user u => Bytes.ascii "USER" ++ u.toList
  | vault u => Bytes.ascii "VAULT" ++ u.toList
  | lock u nonce => Bytes.ascii "LOCK" ++ u.toList ++ Bytes.le64 nonce

def Derived.address : Derived → Pubkey
  | global => globalAddress
  | user u => userAddress u
  | vault u => vaultAddress u
  | lock u nonce => lockAddress u nonce

theorem Derived.address_eq (account : Derived) : account.address = .derived account.seeds := by
  cases account <;> rfl

/-- Without separators, the concatenations still tell the accounts apart. -/
theorem Derived.seeds_injective : Function.Injective Derived.seeds := by
  have haddress : Function.Injective Derived.address := by
    intro first second h
    cases first with
    | global =>
        cases second with
        | global => rfl
        | user v => exact absurd h.symm userAddress_ne_global
        | vault v => exact absurd h.symm vaultAddress_ne_global
        | lock v n => exact absurd h.symm lockAddress_ne_global
    | user u =>
        cases second with
        | global => exact absurd h userAddress_ne_global
        | user v => exact congrArg user (userAddress_inj.mp h)
        | vault v => exact absurd h userAddress_ne_vault
        | lock v n => exact absurd h userAddress_ne_lock
    | vault u =>
        cases second with
        | global => exact absurd h vaultAddress_ne_global
        | user v => exact absurd h.symm userAddress_ne_vault
        | vault v => exact congrArg vault (vaultAddress_inj.mp h)
        | lock v n => exact absurd h vaultAddress_ne_lock
    | lock u m =>
        cases second with
        | global => exact absurd h lockAddress_ne_global
        | user v => exact absurd h.symm userAddress_ne_lock
        | vault v => exact absurd h.symm vaultAddress_ne_lock
        | lock v n =>
            obtain ⟨rfl, rfl⟩ := lockAddress_inj.mp h
            rfl
  intro first second h
  exact haddress (by rw [first.address_eq, second.address_eq, h])

/-! ### The reach of an operation -/

/-- The user whose user account an instruction takes. -/
def Instruction.user? : Instruction → Option Key
  | .register a => some a.user
  | .deposit a _ => some a.user
  | .withdraw a _ => some a.user
  | .lock a _ _ => some a.user
  | .settle a _ _ => some a.user
  | .pay a _ _ => some a.user
  | _ => none

def Op.user? : Op → Option Key
  | .invoke _ ix => ix.user?
  | _ => none

/-- The derived addresses that an operation takes lamports from. -/
def Op.sources : Op → List Pubkey
  | .invoke _ (.withdraw a _) => [vaultAddress a.user]
  | .invoke _ (.settle a nonce _) => [vaultAddress a.user, lockAddress a.user nonce]
  | .invoke _ (.pay a _ _) => [vaultAddress a.user]
  | _ => []

variable {R : Runtime} {s s' : Accounts} {op : Op} {u v : Key}

theorem Moves.le_of_ne_source {source dest a : Pubkey} {n : ℕ} (h : s.Moves s' source dest n)
    (ha : a ≠ source) : s.balance a ≤ s'.balance a := by
  have hmoved := h a
  rw [if_neg ha] at hmoved
  omega

theorem Moves.eq_of_ne {source dest a : Pubkey} {n : ℕ} (h : s.Moves s' source dest n)
    (hsource : a ≠ source) (hdest : a ≠ dest) : s'.balance a = s.balance a := by
  have hmoved := h a
  rw [if_neg hsource, if_neg hdest] at hmoved
  omega

theorem Done.balance_le (done : Done R s s' op) {seeds : List UInt8}
    (h : .derived seeds ∉ op.sources) :
    s.balance (.derived seeds) ≤ s'.balance (.derived seeds) := by
  have hkey (k : Key) : Pubkey.derived seeds ≠ .key k := Pubkey.noConfusion
  cases done with
  | initialize_ done =>
      obtain ⟨rent, hrent⟩ := done.rentPaid
      exact Moves.le_of_ne_source hrent (hkey _)
  | setBot done | setTreasury done => rw [done.balance]
  | register done =>
      obtain ⟨rent, hrent⟩ := done.rentPaid
      exact Moves.le_of_ne_source hrent (hkey _)
  | deposit done => exact Moves.le_of_ne_source done.moved (hkey _)
  | withdraw done =>
      exact Moves.le_of_ne_source done.moved fun hvault => h (by simp [Op.sources, hvault])
  | lock globalAccount account updated done =>
      obtain ⟨rent, hrent⟩ := done.rentPaid
      exact Moves.le_of_ne_source hrent (hkey _)
  | settle globalAccount account updated lockAccount done =>
      obtain ⟨mid, hpaid, hclosed⟩ := done.moved
      have hvault : Pubkey.derived seeds ≠ _ := List.ne_of_not_mem_cons h
      have hlock : Pubkey.derived seeds ≠ _ :=
        List.ne_of_not_mem_cons (List.not_mem_of_not_mem_cons h)
      exact (Moves.le_of_ne_source hpaid hvault).trans (Moves.le_of_ne_source hclosed hlock)
  | pay globalAccount account updated done =>
      exact Moves.le_of_ne_source done.moved fun hvault => h (by simp [Op.sources, hvault])
  | transferIn data balance =>
      rw [balance]
      exact Nat.le_add_right _ _
  | world data balance => exact (balance seeds).ge

/-- What an operation on others leaves of a user. -/
structure Untouched (s s' : Accounts) (u : Key) : Prop where
  user : s'.data (userAddress u) = s.data (userAddress u)
  locks : ∀ n, s'.data (lockAddress u n) = s.data (lockAddress u n)
  userLamports : s.balance (userAddress u) ≤ s'.balance (userAddress u)
  lockLamports : ∀ n, s.balance (lockAddress u n) ≤ s'.balance (lockAddress u n)
  vault : s.balance (vaultAddress u) ≤ s'.balance (vaultAddress u)

theorem Done.untouched (done : Done R s s' op) (hu : op.user? ≠ some u) : Untouched s s' u := by
  have hle (seeds : List UInt8) (h : .derived seeds ∉ op.sources) := done.balance_le h
  have hdata : s'.data (userAddress u) = s.data (userAddress u) ∧
      ∀ n, s'.data (lockAddress u n) = s.data (lockAddress u n) := by
    cases done with
    | initialize_ done =>
        constructor
        · rw [done.data, Function.update_of_ne userAddress_ne_global]
        · intro n
          rw [done.data, Function.update_of_ne lockAddress_ne_global]
    | setBot done | setTreasury done =>
        obtain ⟨account, -, -, hdata⟩ := done.changed
        constructor
        · rw [hdata, Function.update_of_ne userAddress_ne_global]
        · intro n
          rw [hdata, Function.update_of_ne lockAddress_ne_global]
    | @register ctx a done =>
        have hne : u ≠ a.user := fun h => hu (congrArg some h.symm)
        constructor
        · rw [done.data, Function.update_of_ne (by simpa using hne)]
        · intro n
          rw [done.data, Function.update_of_ne userAddress_ne_lock.symm]
    | deposit done | withdraw done => exact ⟨by rw [done.data], fun n => by rw [done.data]⟩
    | @lock ctx a recoverInfo amount globalAccount account updated done =>
        have hne : u ≠ a.user := fun h => hu (congrArg some h.symm)
        constructor
        · rw [done.data, Function.update_of_ne userAddress_ne_lock,
            Function.update_of_ne (by simpa using hne)]
        · intro n
          rw [done.data, Function.update_of_ne (by simp [hne]),
            Function.update_of_ne userAddress_ne_lock.symm]
    | @settle ctx a nonce amount globalAccount account updated lockAccount done =>
        have hne : u ≠ a.user := fun h => hu (congrArg some h.symm)
        constructor
        · rw [done.data, Function.update_of_ne (by simpa using hne),
            Function.update_of_ne userAddress_ne_lock]
        · intro n
          rw [done.data, Function.update_of_ne userAddress_ne_lock.symm,
            Function.update_of_ne (by simp [hne])]
    | @pay ctx a recoverInfo amount globalAccount account updated done =>
        have hne : u ≠ a.user := fun h => hu (congrArg some h.symm)
        constructor
        · rw [done.data, Function.update_of_ne (by simpa using hne)]
        · intro n
          rw [done.data, Function.update_of_ne userAddress_ne_lock.symm]
    | transferIn data balance => exact ⟨by rw [data], fun n => by rw [data]⟩
    | world data balance => exact ⟨data _, fun n => data _⟩
  have hsources : userAddress u ∉ op.sources ∧ vaultAddress u ∉ op.sources ∧
      ∀ n, lockAddress u n ∉ op.sources := by
    cases op with
    | invoke ctx ix =>
        cases ix with
        | withdraw a amount | pay a recoverInfo amount | settle a nonce amount =>
            have hne : u ≠ a.user := fun h => hu (congrArg some h.symm)
            have hlock (n : UInt64) : lockAddress u n ≠ vaultAddress a.user :=
              vaultAddress_ne_lock.symm
            simp [Op.sources, hne, hlock]
        | _ => simp [Op.sources]
    | _ => simp [Op.sources]
  exact ⟨hdata.1, hdata.2, hle _ hsources.1, fun n => hle _ (hsources.2.2 n), hle _ hsources.2.1⟩

/-- Where an instruction on others adds to a user's vault, the vault is the treasury. -/
theorem Done.treasury_of_vault_ne {ctx : Context} {ix : Instruction}
    (done : Done R s s' (.invoke ctx ix)) (hu : ix.user? ≠ some u)
    (hvault : s'.balance (vaultAddress u) ≠ s.balance (vaultAddress u)) :
    ∃ globalAccount, s.data globalAddress = .global globalAccount ∧
      globalAccount.treasury = vaultAddress u := by
  have hkey (k : Key) : vaultAddress u ≠ .key k := key_ne_vault.symm
  cases done with
  | initialize_ done =>
      obtain ⟨rent, hrent⟩ := done.rentPaid
      exact absurd (Moves.eq_of_ne hrent (hkey _) vaultAddress_ne_global) hvault
  | setBot done | setTreasury done => exact absurd (congrFun done.balance _) hvault
  | register done =>
      obtain ⟨rent, hrent⟩ := done.rentPaid
      exact absurd (Moves.eq_of_ne hrent (hkey _) userAddress_ne_vault.symm) hvault
  | @deposit ctx a amount done =>
      have hne : vaultAddress u ≠ vaultAddress a.user := fun h =>
        hu (congrArg some (vaultAddress_inj.mp h).symm)
      exact absurd (Moves.eq_of_ne done.moved (hkey _) hne) hvault
  | @withdraw ctx a amount done =>
      have hne : vaultAddress u ≠ vaultAddress a.user := fun h =>
        hu (congrArg some (vaultAddress_inj.mp h).symm)
      exact absurd (Moves.eq_of_ne done.moved hne (hkey _)) hvault
  | lock globalAccount account updated done =>
      obtain ⟨rent, hrent⟩ := done.rentPaid
      exact absurd (Moves.eq_of_ne hrent (hkey _) vaultAddress_ne_lock) hvault
  | @settle ctx a nonce amount globalAccount account updated lockAccount done =>
      have hne : vaultAddress u ≠ vaultAddress a.user := fun h =>
        hu (congrArg some (vaultAddress_inj.mp h).symm)
      obtain ⟨mid, hpaid, hclosed⟩ := done.moved
      have hback := Moves.eq_of_ne hclosed vaultAddress_ne_lock (hkey _)
      by_contra hnone
      refine hvault (hback.trans (Moves.eq_of_ne hpaid hne fun htreasury => hnone ?_))
      exact ⟨globalAccount, done.configured, htreasury.symm⟩
  | @pay ctx a recoverInfo amount globalAccount account updated done =>
      have hne : vaultAddress u ≠ vaultAddress a.user := fun h =>
        hu (congrArg some (vaultAddress_inj.mp h).symm)
      by_contra hnone
      refine hvault (Moves.eq_of_ne done.moved hne fun htreasury => hnone ?_)
      exact ⟨globalAccount, done.configured, htreasury.symm⟩

/-- What an instruction on another user leaves of a user: the vault may gain as the treasury. -/
structure Isolated (s s' : Accounts) (u : Key) : Prop extends Untouched s s' u where
  treasury : s'.balance (vaultAddress u) ≠ s.balance (vaultAddress u) →
    ∃ globalAccount, s.data globalAddress = .global globalAccount ∧
      globalAccount.treasury = vaultAddress u

/-- In any run, a successful instruction on one user leaves every other user alone, and no two of
the program's accounts share a seed string. -/
theorem users_isolated (R : Runtime) (s₀ : Accounts) (ops : List Op) {ctx : Context}
    {ix : Instruction} (hstep : (system R).step ((system R).run s₀ ops) (.invoke ctx ix) = some s')
    (hv : ix.user? = some v) (huv : u ≠ v) :
    Isolated ((system R).run s₀ ops) s' u ∧ Function.Injective Derived.seeds := by
  have done := step_done hstep
  have hu : ix.user? ≠ some u := fun h => huv (Option.some.inj (h.symm.trans hv))
  exact ⟨⟨done.untouched hu, done.treasury_of_vault_ne hu⟩, Derived.seeds_injective⟩

namespace Sample

/-- The user has an open lock, and the payer is registered as well. -/
def neighbours : List Op :=
  ops.take 4 ++ [.invoke ctx (.register ⟨userAddress payer, payer, vaultAddress payer, payer⟩)]

def neighbourDeposit : Op :=
  .invoke ctx (.deposit ⟨userAddress payer, payer, vaultAddress payer, payer⟩ 10000000)

end Sample

/-- The payer's deposit leaves the user's account, vault and lock alone. -/
theorem users_isolated_sample :
    Isolated ((system Sample.runtime).run Sample.start Sample.neighbours)
        ((system Sample.runtime).next ((system Sample.runtime).run Sample.start Sample.neighbours)
          Sample.neighbourDeposit) Sample.user ∧
      Function.Injective Derived.seeds :=
  users_isolated Sample.runtime Sample.start Sample.neighbours
    (System.step_of_isSome (by decide +kernel)) rfl (by decide +kernel)

end DsProxy.BalancePayment
