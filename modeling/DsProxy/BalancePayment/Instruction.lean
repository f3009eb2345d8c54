import DsProxy.BalancePayment.Account

/-!
# The nine instructions

Each instruction is its `#[derive(Accounts)]` validation followed by its handler, in the source's
order: accounts are loaded and signers checked, `init` accounts are created, the remaining
constraints are checked, then the handler runs and the changed accounts are written back. A failed
or panicking instruction is an `error` and leaves no state.
-/

namespace DsProxy.BalancePayment

open Accounts

/-- The program's surroundings: cryptography and the rent sysvar. -/
structure Runtime extends Crypto where
  minimumBalance : ℕ → UInt64

/-- What a transaction carries besides its instruction. Only keys sign. -/
structure Context where
  signers : List Key
  unixTimestamp : Int64

def Context.requireSigner (ctx : Context) (k : Key) : Except ProgramError Unit :=
  require (k ∈ ctx.signers) .accountNotSigner

theorem requireSigner_eq_ok {ctx : Context} {k : Key} {u : Unit} :
    ctx.requireSigner k = .ok u ↔ k ∈ ctx.signers :=
  require_eq_ok

def customResult {α : Type} (result : Except CustomError α) : Except ProgramError α :=
  result.mapError .custom

theorem customResult_eq_ok {α : Type} {result : Except CustomError α} {a : α} :
    customResult result = .ok a ↔ result = .ok a := by
  cases result <;> simp [customResult, Except.mapError]

/-! ### `initialize`, `set_bot`, `set_treasury` -/

structure Initialize where
  globalAccount : Pubkey
  authority : Pubkey
  treasury : Pubkey
  bot : Pubkey
  payer : Key

def initialize_ (R : Runtime) (ctx : Context) (a : Initialize) (s : Accounts) :
    Except ProgramError Accounts := do
  ctx.requireSigner a.payer
  let account : GlobalAccount := ⟨a.authority, a.bot, a.treasury⟩
  let s ← s.init R.minimumBalance a.payer a.globalAccount globalAddress (.global account)
  require ((s.data a.authority).dataIsEmpty = true) .constraintRaw
  require ((s.data a.treasury).dataIsEmpty = true) .constraintRaw
  require ((s.data a.bot).dataIsEmpty = true) .constraintRaw
  return s

structure SetBot where
  globalAccount : Pubkey
  authority : Key
  bot : Pubkey
  payer : Key

def setBot (ctx : Context) (a : SetBot) (s : Accounts) : Except ProgramError Accounts := do
  let globalAccount ← loaded (s.data a.globalAccount).global?
  ctx.requireSigner a.authority
  ctx.requireSigner a.payer
  require (a.globalAccount = globalAddress) .constraintSeeds
  require (globalAccount.authority = .key a.authority) (.custom .unauthorized)
  require ((s.data a.bot).dataIsEmpty = true) .constraintRaw
  return s.setData a.globalAccount (.global { globalAccount with bot := a.bot })

structure SetTreasury where
  globalAccount : Pubkey
  authority : Key
  treasury : Pubkey
  payer : Key

def setTreasury (ctx : Context) (a : SetTreasury) (s : Accounts) :
    Except ProgramError Accounts := do
  let globalAccount ← loaded (s.data a.globalAccount).global?
  ctx.requireSigner a.authority
  ctx.requireSigner a.payer
  require (a.globalAccount = globalAddress) .constraintSeeds
  require (globalAccount.authority = .key a.authority) (.custom .unauthorized)
  require ((s.data a.treasury).dataIsEmpty = true) .constraintRaw
  return s.setData a.globalAccount (.global { globalAccount with treasury := a.treasury })

/-! ### `register`, `deposit`, `withdraw` -/

structure Register where
  userAccount : Pubkey
  user : Key
  vault : Pubkey
  payer : Key

def register (R : Runtime) (ctx : Context) (a : Register) (s : Accounts) :
    Except ProgramError Accounts := do
  ctx.requireSigner a.user
  ctx.requireSigner a.payer
  let account : UserAccount := ⟨0, 0, a.vault⟩
  let s ← s.init R.minimumBalance a.payer a.userAccount (userAddress a.user) (.user account)
  require ((s.data a.vault).dataIsEmpty = true) .constraintRaw
  require (a.vault = vaultAddress a.user) .constraintSeeds
  return s

/-- The accounts of `deposit` and of `withdraw`, which are the same. -/
structure OwnerAccounts where
  userAccount : Pubkey
  user : Key
  vault : Pubkey
  payer : Key

abbrev Deposit := OwnerAccounts
abbrev Withdraw := OwnerAccounts

def OwnerAccounts.tryAccounts (ctx : Context) (a : OwnerAccounts) (s : Accounts) :
    Except ProgramError UserAccount := do
  let userAccount ← loaded (s.data a.userAccount).user?
  ctx.requireSigner a.user
  ctx.requireSigner a.payer
  require (a.userAccount = userAddress a.user) .constraintSeeds
  require (a.vault = vaultAddress a.user) .constraintSeeds
  return userAccount

def deposit (ctx : Context) (a : Deposit) (amount : UInt64) (s : Accounts) :
    Except ProgramError Accounts := do
  let _ ← a.tryAccounts ctx s
  s.transfer (.key a.user) a.vault amount

def withdraw (ctx : Context) (a : Withdraw) (amount : UInt64) (s : Accounts) :
    Except ProgramError Accounts := do
  let userAccount ← a.tryAccounts ctx s
  let availableBalance ← checkedSub (s.lamports a.vault) userAccount.lockedAmount
  require (amount ≤ availableBalance) (.custom .insufficientFunds)
  s.transfer a.vault (.key a.user) amount

/-! ### `lock`, `settle`, `pay` -/

structure Lock where
  globalAccount : Pubkey
  userAccount : Pubkey
  user : Key
  lockAccount : Pubkey
  vault : Pubkey
  bot : Key
  payer : Key

def lock (R : Runtime) (ctx : Context) (a : Lock) (recoverInfo : ED25519RecoverInfo)
    (amount : UInt64) (s : Accounts) : Except ProgramError Accounts := do
  let globalAccount ← loaded (s.data a.globalAccount).global?
  let userAccount ← loaded (s.data a.userAccount).user?
  ctx.requireSigner a.bot
  ctx.requireSigner a.payer
  let s ← s.init R.minimumBalance a.payer a.lockAccount (lockAddress a.user userAccount.nonce)
    (.lock ⟨0⟩)
  require (a.globalAccount = globalAddress) .constraintSeeds
  require (globalAccount.bot = .key a.bot) (.custom .unauthorized)
  require (a.userAccount = userAddress a.user) .constraintSeeds
  require (a.vault = vaultAddress a.user) .constraintSeeds
  customResult (recoverInfo.verify R.toCrypto ctx.unixTimestamp userAccount.nonce a.user)
  let availableBalance ← checkedSub (s.lamports a.vault) userAccount.lockedAmount
  require (amount ≤ availableBalance) (.custom .insufficientFunds)
  let nonce ← checkedAdd userAccount.nonce 1
  let lockedAmount ← checkedAdd userAccount.lockedAmount amount
  let s := s.setData a.userAccount (.user { userAccount with nonce, lockedAmount })
  return s.setData a.lockAccount (.lock ⟨amount⟩)

structure Settle where
  globalAccount : Pubkey
  userAccount : Pubkey
  user : Key
  treasury : Pubkey
  lockAccount : Pubkey
  vault : Pubkey
  bot : Key
  payer : Key

def settle (R : Runtime) (ctx : Context) (a : Settle) (nonce amountToTransfer : UInt64)
    (s : Accounts) : Except ProgramError Accounts := do
  let globalAccount ← loaded (s.data a.globalAccount).global?
  let userAccount ← loaded (s.data a.userAccount).user?
  let lockAccount ← loaded (s.data a.lockAccount).lock?
  ctx.requireSigner a.bot
  ctx.requireSigner a.payer
  require (a.globalAccount = globalAddress) .constraintSeeds
  require (globalAccount.bot = .key a.bot) (.custom .unauthorized)
  require (a.userAccount = userAddress a.user) .constraintSeeds
  require (a.treasury = globalAccount.treasury) .constraintRaw
  require (a.lockAccount = lockAddress a.user nonce) .constraintSeeds
  require (a.vault = vaultAddress a.user) .constraintSeeds
  require (amountToTransfer ≤ lockAccount.amount) (.custom .insufficientFunds)
  let lockedAmount ← checkedSub userAccount.lockedAmount lockAccount.amount
  let s ← s.transfer a.vault a.treasury amountToTransfer
  -- close the lock account by hand: only the rent of its space goes to the payer
  let rent := R.minimumBalance (s.data a.lockAccount).dataLen
  let s ← s.debit a.lockAccount rent
  let s ← s.credit (.key a.payer) rent
  let s := s.setData a.lockAccount .empty
  return s.setData a.userAccount (.user { userAccount with lockedAmount })

structure Pay where
  globalAccount : Pubkey
  userAccount : Pubkey
  user : Key
  treasury : Pubkey
  vault : Pubkey
  bot : Key
  payer : Key

def pay (R : Runtime) (ctx : Context) (a : Pay) (recoverInfo : ED25519RecoverInfo)
    (amountToTransfer : UInt64) (s : Accounts) : Except ProgramError Accounts := do
  let globalAccount ← loaded (s.data a.globalAccount).global?
  let userAccount ← loaded (s.data a.userAccount).user?
  ctx.requireSigner a.bot
  ctx.requireSigner a.payer
  require (a.globalAccount = globalAddress) .constraintSeeds
  require (globalAccount.bot = .key a.bot) (.custom .unauthorized)
  require (a.userAccount = userAddress a.user) .constraintSeeds
  require (a.treasury = globalAccount.treasury) .constraintRaw
  require (a.vault = vaultAddress a.user) .constraintSeeds
  customResult (recoverInfo.verify R.toCrypto ctx.unixTimestamp userAccount.nonce a.user)
  let availableBalance ← checkedSub (s.lamports a.vault) userAccount.lockedAmount
  require (amountToTransfer ≤ availableBalance) (.custom .insufficientFunds)
  let s ← s.transfer a.vault a.treasury amountToTransfer
  let nonce ← checkedAdd userAccount.nonce 1
  return s.setData a.userAccount (.user { userAccount with nonce })

end DsProxy.BalancePayment
