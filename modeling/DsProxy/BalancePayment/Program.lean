import DsProxy.BalancePayment.Curve
import DsProxy.BalancePayment.Effect
import DsProxy.Lib.Run

/-!
# Runs of the program

An operation is one instruction, lamports sent to any address by anyone, or anything else other
programs do to an address this program does not derive. A failed instruction is refused and leaves
the accounts as they were.
-/

namespace DsProxy.BalancePayment

open Accounts Runs

inductive Instruction
  | initialize_ (accounts : Initialize)
  | setBot (accounts : SetBot)
  | setTreasury (accounts : SetTreasury)
  | register (accounts : Register)
  | deposit (accounts : Deposit) (amount : UInt64)
  | withdraw (accounts : Withdraw) (amount : UInt64)
  | lock (accounts : Lock) (recoverInfo : ED25519RecoverInfo) (amount : UInt64)
  | settle (accounts : Settle) (nonce amountToTransfer : UInt64)
  | pay (accounts : Pay) (recoverInfo : ED25519RecoverInfo) (amountToTransfer : UInt64)

def process (R : Runtime) (ctx : Context) (ix : Instruction) (s : Accounts) :
    Except ProgramError Accounts :=
  match ix with
  | .initialize_ a => initialize_ R ctx a s
  | .setBot a => setBot ctx a s
  | .setTreasury a => setTreasury ctx a s
  | .register a => register R ctx a s
  | .deposit a amount => deposit ctx a amount s
  | .withdraw a amount => withdraw ctx a amount s
  | .lock a recoverInfo amount => lock R ctx a recoverInfo amount s
  | .settle a nonce amountToTransfer => settle R ctx a nonce amountToTransfer s
  | .pay a recoverInfo amountToTransfer => pay R ctx a recoverInfo amountToTransfer s

inductive Op
  | invoke (ctx : Context) (ix : Instruction)
  | transferIn (dest : Pubkey) (amount : UInt64)
  | world (address : Key) (lamports : UInt64) (foreign : Option Bool)

/-- The balance-payment program as a system over the account store. -/
def system (R : Runtime) : System Accounts Op where
  step s op :=
    match op with
    | .invoke ctx ix => (process R ctx ix s).toOption
    | .transferIn dest amount => (s.credit dest amount).toOption
    | .world address lamports foreign =>
      some ((s.setLamports (.key address) lamports).setData (.key address)
        (foreign.elim .empty .foreign))

/-- None of the program's addresses is in use. -/
def Uninitialised (s : Accounts) : Prop := ∀ seeds, s.data (.derived seeds) = .empty

/-! ### One accepted operation -/

/-- What an accepted operation did, by kind. -/
inductive Done (R : Runtime) (s s' : Accounts) : Op → Prop
  | initialize_ {ctx a} (done : InitializeDone ctx a s s') :
    Done R s s' (.invoke ctx (.initialize_ a))
  | setBot {ctx a}
      (done : ConfigDone ctx a.authority (fun account => { account with bot := a.bot }) s s') :
      Done R s s' (.invoke ctx (.setBot a))
  | setTreasury {ctx a}
      (done : ConfigDone ctx a.authority (fun account => { account with treasury := a.treasury })
        s s') :
      Done R s s' (.invoke ctx (.setTreasury a))
  | register {ctx a} (done : RegisterDone ctx a s s') : Done R s s' (.invoke ctx (.register a))
  | deposit {ctx a amount} (done : DepositDone ctx a amount s s') :
      Done R s s' (.invoke ctx (.deposit a amount))
  | withdraw {ctx a amount} (done : WithdrawDone ctx a amount s s') :
      Done R s s' (.invoke ctx (.withdraw a amount))
  | lock {ctx a recoverInfo amount} (globalAccount account updated)
      (done : LockDone R ctx a recoverInfo amount s s' globalAccount account updated) :
      Done R s s' (.invoke ctx (.lock a recoverInfo amount))
  | settle {ctx a nonce amount} (globalAccount account updated lockAccount)
      (done : SettleDone R ctx a nonce amount s s' globalAccount account updated lockAccount) :
      Done R s s' (.invoke ctx (.settle a nonce amount))
  | pay {ctx a recoverInfo amount} (globalAccount account updated)
      (done : PayDone R ctx a recoverInfo amount s s' globalAccount account updated) :
      Done R s s' (.invoke ctx (.pay a recoverInfo amount))
  | transferIn {dest amount} (data : s'.data = s.data)
      (balance : ∀ a, s'.balance a = s.balance a + (if a = dest then amount.toNat else 0)) :
      Done R s s' (.transferIn dest amount)
  | world {address lamports foreign}
      (data : ∀ seeds, s'.data (.derived seeds) = s.data (.derived seeds))
      (balance : ∀ seeds, s'.balance (.derived seeds) = s.balance (.derived seeds)) :
      Done R s s' (.world address lamports foreign)

variable {R : Runtime} {s s' : Accounts} {op : Op}

theorem toOption_eq_some {result : Except ProgramError Accounts} (h : result.toOption = some s') :
    result = .ok s' := by
  cases result with
  | error e => cases h
  | ok a => exact congrArg Except.ok (Option.some.inj h)

theorem exists_ok_of_isOk {ε α : Type} {result : Except ε α} (h : result.isOk = true) :
    ∃ a, result = .ok a := by
  cases result with
  | error e => cases h
  | ok a => exact ⟨a, rfl⟩

theorem step_done (h : (system R).step s op = some s') : Done R s s' op := by
  cases op with
  | invoke ctx ix =>
      have hok := toOption_eq_some h
      cases ix with
      | initialize_ a => exact .initialize_ (initialize_done hok)
      | setBot a => exact .setBot (setBot_done hok)
      | setTreasury a => exact .setTreasury (setTreasury_done hok)
      | register a => exact .register (register_done hok)
      | deposit a amount => exact .deposit (deposit_done hok)
      | withdraw a amount => exact .withdraw (withdraw_done hok)
      | lock a recoverInfo amount =>
          obtain ⟨globalAccount, account, updated, done⟩ := lock_done hok
          exact .lock globalAccount account updated done
      | settle a nonce amount =>
          obtain ⟨globalAccount, account, updated, lockAccount, done⟩ := settle_done hok
          exact .settle globalAccount account updated lockAccount done
      | pay a recoverInfo amount =>
          obtain ⟨globalAccount, account, updated, done⟩ := pay_done hok
          exact .pay globalAccount account updated done
  | transferIn dest amount =>
      obtain ⟨hdata, hbalance⟩ := credit_eq_ok (toOption_eq_some h)
      exact .transferIn hdata hbalance
  | world address lamports foreign =>
      cases h
      refine .world (fun seeds => ?_) (fun seeds => ?_)
      · have hne : Pubkey.derived seeds ≠ .key address := Pubkey.noConfusion
        rw [data_setData, Function.update_of_ne hne, data_setLamports]
      · rw [balance_setData, balance_setLamports]
        exact if_neg Pubkey.noConfusion

/-! ### A run -/

namespace Sample

def runtime : Runtime := {
  crypto with minimumBalance := fun space => UInt64.ofNat (6960 * (128 + space)) }

def payer : Key := Vector.replicate 32 1
def bot : Key := Vector.replicate 32 2
def authority : Key := Vector.replicate 32 3
def treasury : Pubkey := .key (Vector.replicate 32 4)

/-- Only the payer and the user have money, and nothing is initialised. -/
def start : Accounts where
  lamports a := if a = .key payer then 1000000000 else if a = .key user then 100000000 else 0
  data _ := .empty

def ctx : Context := ⟨[payer, user, bot, authority], 1735000000⟩

def ownerAccounts : OwnerAccounts := ⟨userAddress user, user, vaultAddress user, payer⟩

/-- Deposit 50 million, lock 20 of them with the first signature, pay 10 with the second. -/
def ops : List Op :=
  [.invoke ctx (.initialize_ ⟨globalAddress, .key authority, treasury, .key bot, payer⟩),
    .invoke ctx (.register ⟨userAddress user, user, vaultAddress user, payer⟩),
    .invoke ctx (.deposit ownerAccounts 50000000),
    .invoke ctx (.lock ⟨globalAddress, userAddress user, user, lockAddress user 0,
      vaultAddress user, bot, payer⟩ first 20000000),
    .invoke ctx (.pay ⟨globalAddress, userAddress user, user, treasury, vaultAddress user, bot,
      payer⟩ second 10000000)]

def settleOp : Op :=
  .invoke ctx (.settle ⟨globalAddress, userAddress user, user, treasury, lockAddress user 0,
    vaultAddress user, bot, payer⟩ 0 15000000)

theorem run_user : ((system runtime).run start ops).data (userAddress user) =
    .user ⟨2, 20000000, vaultAddress user⟩ := by
  decide +kernel

end Sample

end DsProxy.BalancePayment
