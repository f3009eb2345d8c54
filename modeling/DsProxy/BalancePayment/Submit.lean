import DsProxy.BalancePayment.Replay
import DsProxy.BalancePayment.Sdk
import DsProxy.BalancePayment.Upkeep

/-!
# What the SDK read before it submitted

`lock`, `settle` and `pay` of the SDK's `lib.rs` fetch one account, put what they read there into
the accounts of an instruction, and submit it. By then the chain may have gone on. What was read is
checked again by the program, so a transaction that another state would have made different is
refused.
-/

namespace DsProxy.BalancePayment

open Accounts Runs System

namespace Sdk

/-- `lock` up to its instruction: the nonce is read off the user's account. -/
def lockInstruction (sdk : Sdk) (seen : Accounts) (user : String) (amount : UInt64)
    (recoverInfo : String) : Option Instruction := do
  let user ← sdk.parsePubkey user
  let recoverInfo ← sdk.parseRecoverInfo recoverInfo
  let userAccount ← (seen.data (userAddress user)).user?
  return .lock ⟨globalAddress, userAddress user, user, lockAddress user userAccount.nonce,
    vaultAddress user, sdk.bot, sdk.bot⟩ recoverInfo amount

/-- `settle` up to its instruction: the treasury is read off the global account. -/
def settleInstruction (sdk : Sdk) (seen : Accounts) (user : String)
    (nonce amountToTransfer : UInt64) : Option Instruction := do
  let user ← sdk.parsePubkey user
  let globalAccount ← (seen.data globalAddress).global?
  return .settle ⟨globalAddress, userAddress user, user, globalAccount.treasury,
    lockAddress user nonce, vaultAddress user, sdk.bot, sdk.bot⟩ nonce amountToTransfer

end Sdk

/-- A call of the SDK that submits a transaction. -/
inductive SdkCall
  | lock (user : String) (amount : UInt64) (recoverInfo : String)
  | settle (user : String) (nonce amountToTransfer : UInt64)
  | pay (user : String) (amountToTransfer : UInt64) (recoverInfo : String)

namespace SdkCall

def instruction (sdk : Sdk) (seen : Accounts) : SdkCall → Option Instruction
  | lock user amount recoverInfo => sdk.lockInstruction seen user amount recoverInfo
  | settle user nonce amountToTransfer => sdk.settleInstruction seen user nonce amountToTransfer
  | pay user amountToTransfer recoverInfo => do
    let globalAccount ← (seen.data globalAddress).global?
    sdk.payInstruction globalAccount.treasury user amountToTransfer recoverInfo

/-- The transaction: bot and payer are one keypair, the clock is that of its execution. -/
def op (sdk : Sdk) (unixTimestamp : Int64) (seen : Accounts) (call : SdkCall) : Option Op :=
  (call.instruction sdk seen).map (.invoke ⟨[sdk.bot], unixTimestamp⟩)

end SdkCall

/-! ### One submission -/

section Submission

variable {R : Runtime} {sdk : Sdk} {call : SdkCall} {unixTimestamp : Int64}
  {seen s s' : Accounts} {op : Op}

theorem lockAccount_of_lock {ctx : Context} {a : Lock} {recoverInfo : ED25519RecoverInfo}
    {amount : UInt64} (h : lock R ctx a recoverInfo amount s = .ok s') :
    ∃ account, s.data a.userAccount = .user account ∧
      a.lockAccount = lockAddress a.user account.nonce := by
  simp only [lock, bind_eq_ok, loaded_eq_ok, AccountData.user?_eq_some] at h
  obtain ⟨-, -, account, huser, -, -, -, -, mid, hinit, -⟩ := h
  exact ⟨account, huser, (init_eq_ok hinit).1⟩

/-- What the program accepts is what the SDK would have built from the state it meets. -/
theorem op_of_accepted (hop : call.op sdk unixTimestamp seen = some op)
    (h : (system R).step s op = some s') : call.op sdk unixTimestamp s = some op := by
  obtain ⟨ix, hix, rfl⟩ := Option.map_eq_some_iff.mp hop
  rw [SdkCall.op, Option.map_eq_some_iff]
  refine ⟨ix, ?_, rfl⟩
  cases call with
  | lock user amount recoverInfo =>
      simp only [SdkCall.instruction, Sdk.lockInstruction, Option.bind_eq_bind,
        Option.bind_eq_some_iff, Option.pure_def, Option.some.injEq] at hix ⊢
      obtain ⟨key, hkey, info, hinfo, read, -, rfl⟩ := hix
      obtain ⟨account, huser, hlock⟩ := lockAccount_of_lock (toOption_eq_some h)
      have hnonce : read.nonce = account.nonce := (lockAddress_inj.mp hlock).2
      exact ⟨key, hkey, info, hinfo, account, AccountData.user?_eq_some.mpr huser,
        by rw [hnonce]⟩
  | settle user nonce amount =>
      simp only [SdkCall.instruction, Sdk.settleInstruction, Option.bind_eq_bind,
        Option.bind_eq_some_iff, Option.pure_def, Option.some.injEq] at hix ⊢
      obtain ⟨key, hkey, read, -, rfl⟩ := hix
      obtain ⟨globalAccount, account, updated, lockAccount, done⟩ :=
        settle_done (toOption_eq_some h)
      have htreasury : read.treasury = globalAccount.treasury := done.toTreasury
      exact ⟨key, hkey, globalAccount, AccountData.global?_eq_some.mpr done.configured,
        by rw [htreasury]⟩
  | pay user amount recoverInfo =>
      simp only [SdkCall.instruction, Sdk.payInstruction, Option.bind_eq_bind,
        Option.bind_eq_some_iff, Option.pure_def, Option.some.injEq] at hix ⊢
      obtain ⟨read, -, key, hkey, info, hinfo, rfl⟩ := hix
      obtain ⟨globalAccount, account, updated, done⟩ := pay_done (toOption_eq_some h)
      have htreasury : read.treasury = globalAccount.treasury := done.toTreasury
      exact ⟨globalAccount, AccountData.global?_eq_some.mpr done.configured, key, hkey, info, hinfo,
        by rw [htreasury]⟩

theorem registered_of_lock_op {user recoverInfo : String} {amount : UInt64} {u : Key}
    (hop : (SdkCall.lock user amount recoverInfo).op sdk unixTimestamp seen = some op)
    (hu : sdk.parsePubkey user = some u) :
    ∃ account ctx a info, seen.data (userAddress u) = .user account ∧
      op = .invoke ctx (.lock a info amount) ∧ a.user = u ∧
      a.lockAccount = lockAddress u account.nonce := by
  simp only [SdkCall.op, SdkCall.instruction, Sdk.lockInstruction, Option.map_eq_some_iff,
    Option.bind_eq_bind, Option.bind_eq_some_iff, Option.pure_def, Option.some.injEq, hu] at hop
  obtain ⟨ix, ⟨key, rfl, info, -, account, huser, rfl⟩, rfl⟩ := hop
  exact ⟨account, _, _, info, AccountData.user?_eq_some.mp huser, rfl, rfl, rfl⟩

end Submission

/-! ### Along a run -/

section Runs

variable {R : Runtime} {sdk : Sdk} {call : SdkCall} {unixTimestamp : Int64} {s₀ s s' : Accounts}
  {ops : List Op} {op : Op} {i j : ℕ}

/-- The user is registered, with at least this nonce. -/
def NonceFrom (u : Key) (n : ℕ) (s : Accounts) : Prop :=
  ∃ account, s.data (userAddress u) = .user account ∧ n ≤ account.nonce.toNat

theorem NonceFrom.step {u : Key} {n : ℕ} (h : NonceFrom u n s)
    (hstep : (system R).step s op = some s') :
    NonceFrom u (n + if op.consumer = some u then 1 else 0) s' := by
  obtain ⟨account, huser, hle⟩ := h
  obtain ⟨updated, hupdated, hnonce⟩ := user_of_step hstep huser
  exact ⟨updated, hupdated, by omega⟩

theorem NonceFrom.mono {u : Key} {m n : ℕ} (h : NonceFrom u n s) (hmn : m ≤ n) :
    NonceFrom u m s := by
  obtain ⟨account, huser, hle⟩ := h
  exact ⟨account, huser, hmn.trans hle⟩

theorem NonceFrom.run {u : Key} {n : ℕ} (hij : i ≤ j)
    (h : NonceFrom u n ((system R).run s₀ (ops.take i))) :
    NonceFrom u n ((system R).run s₀ (ops.take j)) :=
  System.run_take_rel (R := fun s s' => NonceFrom u n s → NonceFrom u n s') (fun _ h => h)
    (fun hst htu h => htu (hst h))
    (fun hat h => (h.step hat.step).mono (Nat.le_add_right _ _)) hij h

variable (R) in
/-- Between what the SDK read and its transaction's execution anything may have happened, but the
transaction is the one the SDK would build now; and a lock comes before any other use of the nonce
that was read. -/
theorem submission_current
    (hop : call.op sdk unixTimestamp ((system R).run s₀ (ops.take i)) = some op)
    (hat : StepAt (system R) s₀ ops j op s s') :
    call.op sdk unixTimestamp s = some op ∧
      ∀ {user amount recoverInfo u}, call = .lock user amount recoverInfo →
        sdk.parsePubkey user = some u →
        ∀ {k b t t'}, i ≤ k → k < j → StepAt (system R) s₀ ops k b t t' → b.consumer ≠ some u := by
  refine ⟨op_of_accepted hop hat.step, ?_⟩
  rintro user amount recoverInfo u rfl hu k b t t' hik hkj hk hconsumes
  obtain ⟨account, ctx, a, info, huser, rfl, rfl, hlock⟩ := registered_of_lock_op hop hu
  have hstart : NonceFrom a.user account.nonce.toNat ((system R).run s₀ (ops.take i)) :=
    ⟨account, huser, le_rfl⟩
  have hat_k := hstart.run hik
  rw [← hk.before] at hat_k
  -- the use of the nonce moves it past what was read
  have hpast := hat_k.step hk.step
  rw [if_pos hconsumes, hk.after] at hpast
  obtain ⟨current, hcurrent, hlt⟩ := hpast.run (Nat.succ_le_of_lt hkj)
  obtain ⟨account', ctx', a', info', huser', heq, -, hlock'⟩ :=
    registered_of_lock_op (op_of_accepted hop hat.step) hu
  cases heq
  rw [← hat.before] at hcurrent
  cases hcurrent.symm.trans huser'
  obtain ⟨-, hnonce⟩ := lockAddress_inj.mp (hlock.symm.trans hlock')
  rw [hnonce] at hlt
  omega

end Runs

namespace Sample

def sdk : Sdk := Sdk.serde bot

def lockCall : SdkCall := .lock (Sdk.keyText user) 20000000 (Sdk.recoverInfoText first)

/-- The bot is given money for the rent after the SDK has read the account. -/
def submittedOps : List Op :=
  ops.take 3 ++ [.transferIn (.key bot) 1000000000,
    .invoke ⟨[bot], 1735000000⟩ (.lock ⟨globalAddress, userAddress user, user, lockAddress user 0,
      vaultAddress user, bot, bot⟩ first 20000000)]

theorem lockCall_op :
    lockCall.op sdk 1735000000 ((system runtime).run start (submittedOps.take 3)) =
      submittedOps[4]? := by
  have hread : (((system runtime).run start (submittedOps.take 3)).data (userAddress user)).user? =
      some ⟨0, 0, vaultAddress user⟩ := by
    decide +kernel
  have hkey : sdk.parsePubkey (Sdk.keyText user) = some user := Sdk.parsePubkey_keyText bot user
  have hinfo : sdk.parseRecoverInfo (Sdk.recoverInfoText first) = some first :=
    Sdk.parseRecoverInfo_recoverInfoText bot first
  simp only [SdkCall.op, SdkCall.instruction, lockCall, Sdk.lockInstruction, hkey, hinfo, hread,
    Option.bind_eq_bind, Option.bind_some]
  rfl

end Sample

open Sample in
theorem submission_current_sample : ∃ op s', submittedOps[4]? = some op ∧
    lockCall.op sdk 1735000000 ((system runtime).run start (submittedOps.take 4)) = some op ∧
    (system runtime).step ((system runtime).run start (submittedOps.take 4)) op = some s' := by
  have haccepted : ((system runtime).step ((system runtime).run start (submittedOps.take 4))
      (submittedOps.getLast (by decide))).isSome = true := by
    decide +kernel
  have hstep := System.step_of_isSome haccepted
  exact ⟨_, _, rfl, (submission_current runtime lockCall_op
    ⟨rfl, rfl, hstep⟩).1, hstep⟩

end DsProxy.BalancePayment
