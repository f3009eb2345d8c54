import DsProxy.BalancePayment.Ed25519
import Mathlib.Logic.Function.Basic

/-!
# Accounts, addresses and lamports

The account store the program runs over, the Solana operations its handlers use on it (system
transfer, account creation, direct lamport moves), and what each of them does to balances and data.
Addresses derived by the program are kept symbolic, as the concatenated seed bytes they come from:
derivation is injective on those bytes and a derived address is never a key, so it never signs.
-/

namespace DsProxy.BalancePayment

/-- An address: a key, or an address the program derives from concatenated seeds. -/
inductive Pubkey
  | key (bytes : Key)
  | derived (seeds : List UInt8)
  deriving DecidableEq

structure GlobalAccount where
  authority : Pubkey
  bot : Pubkey
  treasury : Pubkey
  deriving DecidableEq

structure UserAccount where
  nonce : UInt64
  lockedAmount : UInt64
  vault : Pubkey
  deriving DecidableEq

structure LockAccount where
  amount : UInt64
  deriving DecidableEq

/-- Who owns an account and what it holds. `foreign` is an account of another program. -/
inductive AccountData
  | empty
  | foreign (dataIsEmpty : Bool)
  | global (account : GlobalAccount)
  | user (account : UserAccount)
  | lock (account : LockAccount)
  deriving DecidableEq

namespace AccountData

def dataIsEmpty : AccountData → Bool
  | empty => true
  | foreign b => b
  | _ => false

def global? : AccountData → Option GlobalAccount
  | global account => some account
  | _ => none

def user? : AccountData → Option UserAccount
  | user account => some account
  | _ => none

def lock? : AccountData → Option LockAccount
  | lock account => some account
  | _ => none

@[simp] theorem global?_eq_some {data : AccountData} {account : GlobalAccount} :
    data.global? = some account ↔ data = global account := by
  cases data <;> simp [global?]

@[simp] theorem user?_eq_some {data : AccountData} {account : UserAccount} :
    data.user? = some account ↔ data = user account := by
  cases data <;> simp [user?]

@[simp] theorem lock?_eq_some {data : AccountData} {account : LockAccount} :
    data.lock? = some account ↔ data = lock account := by
  cases data <;> simp [lock?]

end AccountData

def DISCRIMINATOR_SIZE : ℕ := 8

/-- `INIT_SPACE` of the three account types. -/
def GlobalAccount.INIT_SPACE : ℕ := 96
def UserAccount.INIT_SPACE : ℕ := 48
def LockAccount.INIT_SPACE : ℕ := 8

/-- `data_len` of an account the program owns. -/
def AccountData.dataLen : AccountData → ℕ
  | global _ => DISCRIMINATOR_SIZE + GlobalAccount.INIT_SPACE
  | user _ => DISCRIMINATOR_SIZE + UserAccount.INIT_SPACE
  | lock _ => DISCRIMINATOR_SIZE + LockAccount.INIT_SPACE
  | _ => 0

/-! ### Derived addresses -/

def globalAddress : Pubkey := .derived (Bytes.ascii "GLOBAL")
def userAddress (user : Key) : Pubkey := .derived (Bytes.ascii "USER" ++ user.toList)
def vaultAddress (user : Key) : Pubkey := .derived (Bytes.ascii "VAULT" ++ user.toList)
def lockAddress (user : Key) (nonce : UInt64) : Pubkey :=
  .derived (Bytes.ascii "LOCK" ++ user.toList ++ Bytes.le64 nonce)

section Seeds

variable {u v : Key} {m n : UInt64}

@[simp] theorem userAddress_inj : userAddress u = userAddress v ↔ u = v := by
  simp [userAddress, Vector.toList_inj]

@[simp] theorem vaultAddress_inj : vaultAddress u = vaultAddress v ↔ u = v := by
  simp [vaultAddress, Vector.toList_inj]

@[simp] theorem lockAddress_inj : lockAddress u m = lockAddress v n ↔ u = v ∧ m = n := by
  constructor
  · intro h
    have hseeds := Pubkey.derived.inj h
    obtain ⟨hkeys, hnonces⟩ := List.append_inj' hseeds (by simp)
    exact ⟨Vector.toList_inj.mp (List.append_cancel_left hkeys), Bytes.le64_injective hnonces⟩
  · rintro ⟨rfl, rfl⟩
    rfl

-- The four seed strings differ in their first byte.
@[simp] theorem userAddress_ne_global : userAddress u ≠ globalAddress := by
  simp [userAddress, globalAddress, Bytes.ascii]

@[simp] theorem vaultAddress_ne_global : vaultAddress u ≠ globalAddress := by
  simp [vaultAddress, globalAddress, Bytes.ascii]

@[simp] theorem lockAddress_ne_global : lockAddress u n ≠ globalAddress := by
  simp [lockAddress, globalAddress, Bytes.ascii]

@[simp] theorem userAddress_ne_vault : userAddress u ≠ vaultAddress v := by
  simp [userAddress, vaultAddress, Bytes.ascii]

@[simp] theorem userAddress_ne_lock : userAddress u ≠ lockAddress v n := by
  simp [userAddress, lockAddress, Bytes.ascii]

@[simp] theorem vaultAddress_ne_lock : vaultAddress u ≠ lockAddress v n := by
  simp [vaultAddress, lockAddress, Bytes.ascii]

@[simp] theorem key_ne_vault {k : Key} : Pubkey.key k ≠ vaultAddress u := by
  simp [vaultAddress]

end Seeds

/-! ### Errors and checked arithmetic -/

/-- Why an instruction fails: an error of the program, of Anchor's account validation, of the system
program, or a panic of checked arithmetic. -/
inductive ProgramError
  | custom (error : CustomError)
  | accountNotInitialized
  | accountNotSigner
  | constraintSeeds
  | constraintRaw
  | accountAlreadyInUse
  | fromMustNotCarryData
  | resultWithNegativeLamports
  | arithmeticPanic
  deriving DecidableEq

/-- `require!` and Anchor's constraint checks. -/
def require (condition : Prop) [Decidable condition] (error : ProgramError) :
    Except ProgramError Unit :=
  if condition then .ok () else .error error

def checkedAdd (a b : UInt64) : Except ProgramError UInt64 :=
  if a.toNat + b.toNat < 2 ^ 64 then .ok (a + b) else .error .arithmeticPanic

def checkedSub (a b : UInt64) : Except ProgramError UInt64 :=
  if b ≤ a then .ok (a - b) else .error .arithmeticPanic

def loaded {α : Type} (account : Option α) : Except ProgramError α :=
  account.elim (.error .accountNotInitialized) .ok

section Results

variable {ε α β : Type}

theorem bind_eq_ok {x : Except ε α} {f : α → Except ε β} {b : β} :
    (x >>= f) = .ok b ↔ ∃ a, x = .ok a ∧ f a = .ok b := by
  cases x with
  | error e => simp [bind, Except.bind]
  | ok a => simp [bind, Except.bind]

theorem pure_eq_ok {a b : α} : (pure a : Except ε α) = .ok b ↔ a = b := by
  simp [pure, Except.pure]

theorem require_eq_ok {condition : Prop} [Decidable condition] {error : ProgramError} {u : Unit} :
    require condition error = .ok u ↔ condition := by
  unfold require
  split <;> simp_all

theorem checkedAdd_eq_ok {a b c : UInt64} :
    checkedAdd a b = .ok c ↔ c.toNat = a.toNat + b.toNat := by
  unfold checkedAdd
  constructor
  · intro h
    split at h
    · rename_i hlt
      cases h
      rw [UInt64.toNat_add, Nat.mod_eq_of_lt hlt]
    · cases h
  · intro h
    have hlt : a.toNat + b.toNat < 2 ^ 64 := h ▸ c.toNat_lt
    rw [if_pos hlt]
    congr 1
    apply UInt64.toNat_inj.mp
    rw [UInt64.toNat_add, Nat.mod_eq_of_lt hlt, h]

theorem checkedSub_eq_ok {a b c : UInt64} :
    checkedSub a b = .ok c ↔ c.toNat + b.toNat = a.toNat := by
  unfold checkedSub
  constructor
  · intro h
    split at h
    · rename_i hle
      cases h
      have := UInt64.le_iff_toNat_le.mp hle
      rw [UInt64.toNat_sub_of_le _ _ hle]
      omega
    · cases h
  · intro h
    have hle : b ≤ a := UInt64.le_iff_toNat_le.mpr (by omega)
    rw [if_pos hle]
    congr 1
    apply UInt64.toNat_inj.mp
    rw [UInt64.toNat_sub_of_le _ _ hle]
    omega

theorem loaded_eq_ok {account : Option α} {a : α} : loaded account = .ok a ↔ account = some a := by
  cases account <;> simp [loaded]

end Results

/-! ### The store -/

structure Accounts where
  lamports : Pubkey → UInt64
  data : Pubkey → AccountData

namespace Accounts

/-- The lamports of an address, as a number. -/
def balance (s : Accounts) (a : Pubkey) : ℕ := (s.lamports a).toNat

def setLamports (s : Accounts) (a : Pubkey) (lamports : UInt64) : Accounts :=
  { s with lamports := Function.update s.lamports a lamports }

def setData (s : Accounts) (a : Pubkey) (data : AccountData) : Accounts :=
  { s with data := Function.update s.data a data }

@[simp] theorem balance_setData (s : Accounts) (a : Pubkey) (data : AccountData) :
    (s.setData a data).balance = s.balance := rfl

@[simp] theorem data_setData (s : Accounts) (a : Pubkey) (data : AccountData) :
    (s.setData a data).data = Function.update s.data a data := rfl

@[simp] theorem data_setLamports (s : Accounts) (a : Pubkey) (lamports : UInt64) :
    (s.setLamports a lamports).data = s.data := rfl

theorem balance_setLamports (s : Accounts) (a b : Pubkey) (lamports : UInt64) :
    (s.setLamports a lamports).balance b = if b = a then lamports.toNat else s.balance b := by
  by_cases h : b = a <;> simp [balance, setLamports, h]

def credit (dest : Pubkey) (amount : UInt64) (s : Accounts) : Except ProgramError Accounts := do
  let lamports ← checkedAdd (s.lamports dest) amount
  return s.setLamports dest lamports

def debit (source : Pubkey) (amount : UInt64) (s : Accounts) : Except ProgramError Accounts := do
  let lamports ← checkedSub (s.lamports source) amount
  return s.setLamports source lamports

/-- `system_program::transfer`. -/
def transfer (source dest : Pubkey) (amount : UInt64) (s : Accounts) :
    Except ProgramError Accounts := do
  require (s.data source = .empty) .fromMustNotCarryData
  require (amount ≤ s.lamports source) .resultWithNegativeLamports
  let s ← s.debit source amount
  s.credit dest amount

/-- The rent of a new account: all of it, or what lamports sent there before leave missing. -/
def payRent (minimumBalance : ℕ → UInt64) (payer : Key) (field : Pubkey) (space : ℕ)
    (s : Accounts) : Except ProgramError Accounts :=
  if s.lamports field = 0 then s.transfer (.key payer) field (minimumBalance space)
  else if s.lamports field < max (minimumBalance space) 1 then
    s.transfer (.key payer) field (max (minimumBalance space) 1 - s.lamports field)
  else .ok s

/-- Anchor's `init`: pay the rent, allocate and assign the account at its derived address. -/
def init (minimumBalance : ℕ → UInt64) (payer : Key) (field expected : Pubkey)
    (value : AccountData) (s : Accounts) : Except ProgramError Accounts := do
  require (field = expected) .constraintSeeds
  let s ← s.payRent minimumBalance payer field value.dataLen
  require (s.data field = .empty) .accountAlreadyInUse
  return s.setData field value

/-! ### What the operations do -/

/-- `n` lamports leave `source` and arrive at `dest`; every other balance stays. -/
def Moves (s s' : Accounts) (source dest : Pubkey) (n : ℕ) : Prop :=
  ∀ a, s'.balance a + (if a = source then n else 0) = s.balance a + (if a = dest then n else 0)

theorem credit_eq_ok {s s' : Accounts} {dest : Pubkey} {amount : UInt64}
    (h : s.credit dest amount = .ok s') : s'.data = s.data ∧
      ∀ a, s'.balance a = s.balance a + (if a = dest then amount.toNat else 0) := by
  simp only [credit, bind_eq_ok, pure_eq_ok, checkedAdd_eq_ok] at h
  obtain ⟨lamports, hsum, rfl⟩ := h
  refine ⟨rfl, fun a => ?_⟩
  rw [balance_setLamports]
  by_cases ha : a = dest
  · subst ha
    rw [if_pos rfl, if_pos rfl, hsum]
    rfl
  · rw [if_neg ha, if_neg ha, Nat.add_zero]

theorem debit_eq_ok {s s' : Accounts} {source : Pubkey} {amount : UInt64}
    (h : s.debit source amount = .ok s') : s'.data = s.data ∧
      ∀ a, s'.balance a + (if a = source then amount.toNat else 0) = s.balance a := by
  simp only [debit, bind_eq_ok, pure_eq_ok, checkedSub_eq_ok] at h
  obtain ⟨lamports, hsum, rfl⟩ := h
  refine ⟨rfl, fun a => ?_⟩
  rw [balance_setLamports]
  by_cases ha : a = source
  · subst ha
    rw [if_pos rfl, if_pos rfl, hsum]
    rfl
  · rw [if_neg ha, if_neg ha, Nat.add_zero]

theorem moves_of_debit_credit {s mid s' : Accounts} {source dest : Pubkey} {amount : UInt64}
    (hdebit : s.debit source amount = .ok mid) (hcredit : mid.credit dest amount = .ok s') :
    s'.data = s.data ∧ s.Moves s' source dest amount.toNat := by
  obtain ⟨hdata, hout⟩ := debit_eq_ok hdebit
  obtain ⟨hdata', hin⟩ := credit_eq_ok hcredit
  refine ⟨hdata'.trans hdata, fun a => ?_⟩
  have := hout a
  have := hin a
  omega

theorem transfer_eq_ok {s s' : Accounts} {source dest : Pubkey} {amount : UInt64}
    (h : s.transfer source dest amount = .ok s') :
    s'.data = s.data ∧ s.Moves s' source dest amount.toNat := by
  simp only [transfer, bind_eq_ok, require_eq_ok] at h
  obtain ⟨-, -, -, -, mid, hdebit, hcredit⟩ := h
  exact moves_of_debit_credit hdebit hcredit

theorem payRent_eq_ok {minimumBalance : ℕ → UInt64} {payer : Key} {field : Pubkey} {space : ℕ}
    {s s' : Accounts} (h : s.payRent minimumBalance payer field space = .ok s') :
    s'.data = s.data ∧ ∃ rent, s.Moves s' (.key payer) field rent := by
  unfold payRent at h
  split_ifs at h
  · obtain ⟨hdata, hmoves⟩ := transfer_eq_ok h
    exact ⟨hdata, _, hmoves⟩
  · obtain ⟨hdata, hmoves⟩ := transfer_eq_ok h
    exact ⟨hdata, _, hmoves⟩
  · cases h
    exact ⟨rfl, 0, fun a => by simp⟩

/-- A created account was empty before, holds its value after, and was paid for by the payer. -/
theorem init_eq_ok {minimumBalance : ℕ → UInt64} {payer : Key} {field expected : Pubkey}
    {value : AccountData} {s s' : Accounts}
    (h : s.init minimumBalance payer field expected value = .ok s') :
    field = expected ∧ s.data field = .empty ∧ s'.data = Function.update s.data field value ∧
      ∃ rent, s.Moves s' (.key payer) field rent := by
  simp only [init, bind_eq_ok, require_eq_ok, pure_eq_ok] at h
  obtain ⟨-, hfield, mid, hpaid, -, hempty, rfl⟩ := h
  obtain ⟨hdata, hmoves⟩ := payRent_eq_ok hpaid
  rw [hdata] at hempty
  exact ⟨hfield, hempty, by rw [data_setData, hdata], hmoves⟩

end Accounts

end DsProxy.BalancePayment
