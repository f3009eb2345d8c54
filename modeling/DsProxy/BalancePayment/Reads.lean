import DsProxy.BalancePayment.Eligibility
import DsProxy.BalancePayment.Rent

/-!
# The two reads of `check_eligible`

`check_eligible` reads the user account first and the vault's lamports later. On one state of the
chain it refuses what the program accepts at a single moment, the deadline itself. On two states the
vault may no longer cover the locked amount it is compared with, and the difference wraps.
-/

namespace DsProxy.BalancePayment

open Accounts Runs

variable {R : Runtime} {s s₁ s₂ s' : Accounts} {op : Op} {u key : Key} {account : UserAccount}
  {info : ED25519RecoverInfo}

/-! ### Completeness on one state -/

/-- The checks that `lock` and `pay` share pass at this time. An account without lamports does not
exist, on chain or off. -/
structure Accepted (C : Crypto) (unixTimestamp : Int64) (user : Key)
    (recoverInfo : ED25519RecoverInfo) (amount : UInt64) (s : Accounts) (account : UserAccount) :
    Prop where
  present : s.lamports (userAddress user) ≠ 0
  registered : s.data (userAddress user) = .user account
  verified : recoverInfo.verify C unixTimestamp account.nonce user = .ok ()
  covered : account.lockedAmount ≤ s.lamports (vaultAddress user)
  free : amount ≤ s.lamports (vaultAddress user) - account.lockedAmount

theorem Authorised.accepted {ctx : Context} {bot : Key} {amount : UInt64}
    {globalAccount : GlobalAccount} {updated : UserAccount}
    (h : Authorised R ctx bot u info amount s globalAccount account updated)
    (hpresent : s.lamports (userAddress u) ≠ 0) :
    Accepted R.toCrypto ctx.unixTimestamp u info amount s account := by
  have hfree := h.free
  have hcovered : account.lockedAmount ≤ s.lamports (vaultAddress u) :=
    UInt64.le_iff_toNat_le.mpr (Nat.le_trans (Nat.le_add_right _ _) hfree)
  refine ⟨hpresent, h.registered,
    (ED25519RecoverInfo.verify_eq_ok R.toCrypto).mpr ⟨h.signedByUser, h.live⟩, hcovered, ?_⟩
  apply UInt64.le_iff_toNat_le.mpr
  rw [UInt64.toNat_sub_of_le _ _ hcovered]
  exact Nat.le_sub_of_add_le' hfree

theorem pay_accepted {ctx : Context} {a : Pay} {amount : UInt64}
    (h : pay R ctx a info amount s = .ok s') (hpresent : s.lamports (userAddress a.user) ≠ 0) :
    ∃ account, Accepted R.toCrypto ctx.unixTimestamp a.user info amount s account := by
  obtain ⟨globalAccount, account, updated, done⟩ := pay_done h
  exact ⟨account, done.toAuthorised.accepted hpresent⟩

theorem lock_accepted {ctx : Context} {a : Lock} {amount : UInt64}
    (h : lock R ctx a info amount s = .ok s') (hpresent : s.lamports (userAddress a.user) ≠ 0) :
    ∃ account, Accepted R.toCrypto ctx.unixTimestamp a.user info amount s account := by
  obtain ⟨globalAccount, account, updated, done⟩ := lock_done h
  exact ⟨account, done.toAuthorised.accepted hpresent⟩

namespace Sdk

variable {sdk : Sdk} {C : Crypto} {asSecs : UInt64} {user recoverInfo : String}
  {nonce amount : UInt64}

/-- With the current nonce and a vault, what the program accepts is eligible. -/
def Complete (sdk : Sdk) (C : Crypto) (asSecs : UInt64) (user : String) (amount : UInt64)
    (recoverInfo : String) (s : Accounts) : Prop :=
  ∀ key info account, sdk.parsePubkey user = some key →
    sdk.parseRecoverInfo recoverInfo = some info →
    Accepted C asSecs.toInt64 key info amount s account → s.lamports (vaultAddress key) ≠ 0 →
    sdk.checkEligible C asSecs user account.nonce amount recoverInfo s = .ok true

theorem checkEligible_iff_of_accepted (hkey : sdk.parsePubkey user = some key)
    (hinfo : sdk.parseRecoverInfo recoverInfo = some info)
    (accepted : Accepted C asSecs.toInt64 key info amount s account)
    (hvault : s.lamports (vaultAddress key) ≠ 0) :
    sdk.checkEligible C asSecs user account.nonce amount recoverInfo s = .ok true ↔
      asSecs.toInt64 ≠ info.deadline := by
  obtain ⟨hsigned, hlive⟩ := (ED25519RecoverInfo.verify_eq_ok C).mp accepted.verified
  rw [checkEligible_eq_true]
  constructor
  · rintro ⟨key', info', account', hkey', hinfo', -, -, -, -, hlt, -, -⟩
    cases hinfo.symm.trans hinfo'
    exact Int64.ne_of_lt hlt
  · intro hne
    have hlt : asSecs.toInt64 < info.deadline := Int64.lt_of_le_of_ne hlive hne
    exact ⟨key, info, account, hkey, hinfo, accepted.present, accepted.registered, rfl,
      ⟨true, hsigned⟩, hlt, hvault, accepted.free⟩

/-- At the deadline the program still accepts. -/
def AtDeadline (sdk : Sdk) (C : Crypto) (asSecs : UInt64) (user : String) (amount : UInt64)
    (recoverInfo : String) (s : Accounts) : Prop :=
  ∃ key info account, sdk.parsePubkey user = some key ∧
    sdk.parseRecoverInfo recoverInfo = some info ∧
    Accepted C asSecs.toInt64 key info amount s account ∧ s.lamports (vaultAddress key) ≠ 0 ∧
    asSecs.toInt64 = info.deadline

/-- What the program accepts is eligible, except at the deadline. -/
theorem complete_iff : sdk.Complete C asSecs user amount recoverInfo s ↔
    ¬ sdk.AtDeadline C asSecs user amount recoverInfo s := by
  constructor
  · rintro complete ⟨key, info, account, hkey, hinfo, accepted, hvault, hdeadline⟩
    exact (checkEligible_iff_of_accepted hkey hinfo accepted hvault).mp
      (complete key info account hkey hinfo accepted hvault) hdeadline
  · intro hnot key info account hkey hinfo accepted hvault
    refine (checkEligible_iff_of_accepted hkey hinfo accepted hvault).mpr fun hdeadline => ?_
    exact hnot ⟨key, info, account, hkey, hinfo, accepted, hvault, hdeadline⟩

end Sdk

namespace Sample

/-- The last second in which the first signature is accepted. -/
def deadlineSecs : UInt64 := 1735689600

def deadlineContext : Context := ⟨[payer, bot], deadline⟩

theorem funded_present : funded.lamports (userAddress user) ≠ 0 ∧
    funded.lamports (vaultAddress user) ≠ 0 := by
  decide +kernel

theorem pays_at_deadline :
    (pay runtime deadlineContext payAccounts first 10000000 funded).isOk = true := by
  decide +kernel

end Sample

/-- At the deadline the payment goes through, and the SDK calls it not eligible. -/
theorem deadline_is_not_eligible :
    (∃ s', pay Sample.runtime Sample.deadlineContext Sample.payAccounts Sample.first 10000000
      Sample.funded = .ok s') ∧
    ¬ (Sdk.serde Sample.bot).Complete Sample.runtime.toCrypto Sample.deadlineSecs
      (Sdk.keyText Sample.user) 10000000 (Sdk.recoverInfoText Sample.first) Sample.funded := by
  obtain ⟨s', hpaid⟩ := exists_ok_of_isOk Sample.pays_at_deadline
  obtain ⟨account, accepted⟩ := pay_accepted hpaid Sample.funded_present.1
  refine ⟨⟨s', hpaid⟩, fun complete => ?_⟩
  exact (Sdk.checkEligible_iff_of_accepted (Sdk.parsePubkey_keyText _ _)
    (Sdk.parseRecoverInfo_recoverInfoText _ _) accepted Sample.funded_present.2).mp
      (complete _ _ account (Sdk.parsePubkey_keyText _ _)
        (Sdk.parseRecoverInfo_recoverInfoText _ _) accepted Sample.funded_present.2) rfl

/-! ### What flows through a vault -/

def Op.outOfVault (u : Key) (op : Op) : ℕ :=
  op.debit?.elim 0 fun d => if d.user = u then d.amount.toNat else 0

def Op.intoVault (u : Key) : Op → ℕ
  | .transferIn dest amount => if dest = vaultAddress u then amount.toNat else 0
  | .invoke _ (.deposit a amount) => if a.user = u then amount.toNat else 0
  | op => op.debit?.elim 0 fun d => if d.dest = vaultAddress u then d.amount.toNat else 0

theorem vault_flow (hstep : (system R).step s op = some s') :
    s'.balance (vaultAddress u) + op.outOfVault u =
      s.balance (vaultAddress u) + op.intoVault u := by
  have hfrom (v : Key) (n : ℕ) :
      (if vaultAddress u = vaultAddress v then n else 0) = if v = u then n else 0 := by
    simp only [vaultAddress_inj, eq_comm]
  have hto (a : Pubkey) (n : ℕ) :
      (if vaultAddress u = a then n else 0) = if a = vaultAddress u then n else 0 := by
    simp only [eq_comm]
  have hkey (k : Key) : vaultAddress u ≠ .key k := key_ne_vault.symm
  cases step_done hstep with
  | initialize_ done =>
      obtain ⟨rent, hrent⟩ := done.rentPaid
      exact Moves.eq_of_ne hrent (hkey _) vaultAddress_ne_global
  | setBot done | setTreasury done => exact congrFun done.balance _
  | register done =>
      obtain ⟨rent, hrent⟩ := done.rentPaid
      exact Moves.eq_of_ne hrent (hkey _) userAddress_ne_vault.symm
  | deposit done =>
      have hmoved := done.moved (vaultAddress u)
      rwa [if_neg (hkey _), hfrom] at hmoved
  | withdraw done =>
      have hmoved := done.moved (vaultAddress u)
      rwa [hfrom, hto] at hmoved
  | lock globalAccount account updated done =>
      obtain ⟨rent, hrent⟩ := done.rentPaid
      exact Moves.eq_of_ne hrent (hkey _) vaultAddress_ne_lock
  | settle globalAccount account updated lockAccount done =>
      obtain ⟨mid, hpaid, hclosed⟩ := done.moved
      have hmoved := hpaid (vaultAddress u)
      rwa [← Moves.eq_of_ne hclosed vaultAddress_ne_lock (hkey _), ← done.toTreasury, hfrom,
        hto] at hmoved
  | pay globalAccount account updated done =>
      have hmoved := done.moved (vaultAddress u)
      rwa [← done.toTreasury, hfrom, hto] at hmoved
  | transferIn data balance =>
      have harrived := balance (vaultAddress u)
      rwa [hto] at harrived
  | world data balance => exact balance _

/-- Over any operations the vault changes by what they put in less what they take out. -/
theorem run_vault_flow (s : Accounts) (ops : List Op) (u : Key) :
    ((system R).run s ops).balance (vaultAddress u) +
        (system R).total (fun _ op => op.outOfVault u) s ops =
      s.balance (vaultAddress u) + (system R).total (fun _ op => op.intoVault u) s ops := by
  have hflow {s s' : Accounts} {op : Op} (h : (system R).step s op = some s') :
      s'.balance (vaultAddress u) + op.outOfVault u =
        s.balance (vaultAddress u) + op.intoVault u := vault_flow h
  exact System.run_add_total hflow s ops

/-- More is taken out of the vault than was free at first and came in since. -/
def Overdrawn (R : Runtime) (s : Accounts) (between : List Op) (u : Key) : Prop :=
  free s u + (system R).total (fun _ op => op.intoVault u) s between <
    (system R).total (fun _ op => op.outOfVault u) s between

theorem Tracks.covered_iff {e : Escrow} (tracks : Tracks s u account e) (between : List Op) :
    account.lockedAmount.toNat ≤ ((system R).run s between).balance (vaultAddress u) ↔
      ¬ Overdrawn R s between u := by
  have hflow := run_vault_flow (R := R) s between u
  have hfree := tracks.toNat_available
  rw [UInt64.toNat_sub_of_le _ _ tracks.locked_le_vault] at hfree
  have hlocked := UInt64.le_iff_toNat_le.mp tracks.locked_le_vault
  simp only [balance] at hflow
  rw [Overdrawn, Nat.not_lt, balance]
  omega

/-! ### Two states -/

namespace Sdk

variable {sdk : Sdk} {C : Crypto} {asSecs : UInt64} {user recoverInfo : String}
  {nonce amount : UInt64}

/-- `check_eligible` when the chain moves on between its two reads. -/
def checkEligibleAcross (sdk : Sdk) (C : Crypto) (asSecs : UInt64) (user : String)
    (nonce amount : UInt64) (recoverInfo : String) (s₁ s₂ : Accounts) : Except Error Bool := do
  let user ← parsed .parsePubkey (sdk.parsePubkey user)
  let recoverInfo ← parsed .serdeJson (sdk.parseRecoverInfo recoverInfo)
  let (_, userAccountData) ← getAccount s₁ (userAddress user)
  let userAccount ← fromBytes userAccountData
  if userAccount.nonce ≠ nonce then return false
  let digest := ED25519RecoverInfo.digest C recoverInfo.payload userAccount.nonce
    recoverInfo.deadline
  let valid := (verifySignature C user recoverInfo.signature digest).isOk
  if valid = false then return false
  let currentTimestamp := asSecs.toInt64
  if recoverInfo.deadline ≤ currentTimestamp then return false
  let (vaultBalance, _) ← getAccount s₂ (vaultAddress user)
  if vaultBalance - userAccount.lockedAmount < amount then return false
  return true

theorem checkEligibleAcross_self (sdk : Sdk) (C : Crypto) (asSecs : UInt64) (user : String)
    (nonce amount : UInt64) (recoverInfo : String) (s : Accounts) :
    sdk.checkEligibleAcross C asSecs user nonce amount recoverInfo s s =
      sdk.checkEligible C asSecs user nonce amount recoverInfo s := rfl

/-- The check gets as far as the subtraction. -/
structure Subtracts (sdk : Sdk) (C : Crypto) (asSecs : UInt64) (user : String) (nonce : UInt64)
    (recoverInfo : String) (s₁ s₂ : Accounts) (key : Key) (account : UserAccount) : Prop where
  user : sdk.parsePubkey user = some key
  present : s₁.lamports (userAddress key) ≠ 0
  registered : s₁.data (userAddress key) = .user account
  nonce : account.nonce = nonce
  signed : ∃ info, sdk.parseRecoverInfo recoverInfo = some info ∧
    (∃ valid, BalancePayment.verifySignature C key info.signature
      (ED25519RecoverInfo.digest C info.payload account.nonce info.deadline) = .ok valid) ∧
    asSecs.toInt64 < info.deadline
  vault : s₂.lamports (vaultAddress key) ≠ 0

theorem checkEligibleAcross_eq_true :
    sdk.checkEligibleAcross C asSecs user nonce amount recoverInfo s₁ s₂ = .ok true ↔
      ∃ key account, sdk.Subtracts C asSecs user nonce recoverInfo s₁ s₂ key account ∧
        amount ≤ s₂.lamports (vaultAddress key) - account.lockedAmount := by
  simp only [checkEligibleAcross, bind_eq_ok, parsed_eq_ok, getAccount_eq_ok, fromBytes,
    AccountData.user?_eq_some, guard_eq_true, Bool.not_eq_false, isOk_verifySignature, pure_eq_ok,
    and_true, Decidable.not_not]
  constructor
  · rintro ⟨key, hkey, info, hinfo, _, ⟨hexists, rfl⟩, account, huser, hnonce, hvalid, hlive, _,
      ⟨hvault, rfl⟩, hfunds⟩
    exact ⟨key, account, ⟨hkey, hexists, huser, hnonce,
      ⟨info, hinfo, hvalid, Int64.not_le.mp hlive⟩, hvault⟩, UInt64.not_lt.mp hfunds⟩
  · rintro ⟨key, account, h, hfunds⟩
    obtain ⟨info, hinfo, hvalid, hlive⟩ := h.signed
    exact ⟨key, h.user, info, hinfo, _, ⟨h.present, rfl⟩, account, h.registered, h.nonce, hvalid,
      Int64.not_le.mpr hlive, _, ⟨h.vault, rfl⟩, UInt64.not_lt.mpr hfunds⟩

/-- The subtraction does not go below zero, and what is called sufficient is there. -/
structure SafeAcross (sdk : Sdk) (C : Crypto) (asSecs : UInt64) (user : String)
    (nonce amount : UInt64) (recoverInfo : String) (s₁ s₂ : Accounts) : Prop where
  noUnderflow : ∀ {key account}, sdk.Subtracts C asSecs user nonce recoverInfo s₁ s₂ key account →
    account.lockedAmount.toNat ≤ s₂.balance (vaultAddress key)
  sufficient : sdk.checkEligibleAcross C asSecs user nonce amount recoverInfo s₁ s₂ = .ok true →
    ∃ key account, sdk.parsePubkey user = some key ∧ s₁.data (userAddress key) = .user account ∧
      account.lockedAmount.toNat + amount.toNat ≤ s₂.balance (vaultAddress key)

theorem SafeAcross.of_noUnderflow
    (h : ∀ {key account}, sdk.Subtracts C asSecs user nonce recoverInfo s₁ s₂ key account →
      account.lockedAmount.toNat ≤ s₂.balance (vaultAddress key)) :
    sdk.SafeAcross C asSecs user nonce amount recoverInfo s₁ s₂ := by
  refine ⟨h, fun htrue => ?_⟩
  obtain ⟨key, account, subtracts, hfunds⟩ := checkEligibleAcross_eq_true.mp htrue
  refine ⟨key, account, subtracts.user, subtracts.registered, ?_⟩
  have hcovered := h subtracts
  have hfunds := UInt64.le_iff_toNat_le.mp hfunds
  rw [UInt64.toNat_sub_of_le _ _ (UInt64.le_iff_toNat_le.mpr hcovered)] at hfunds
  rw [balance] at hcovered ⊢
  omega

end Sdk

/-- Between two reads of a run the arithmetic is safe unless the vault is overdrawn in between. -/
theorem safe_across_iff {s₀ : Accounts} (h₀ : Uninitialised s₀) (ops between : List Op) (sdk : Sdk)
    (asSecs : UInt64) (user : String) (nonce amount : UInt64) (recoverInfo : String) :
    sdk.SafeAcross R.toCrypto asSecs user nonce amount recoverInfo ((system R).run s₀ ops)
        ((system R).run s₀ (ops ++ between)) ↔
      ¬ ∃ key account, sdk.Subtracts R.toCrypto asSecs user nonce recoverInfo
        ((system R).run s₀ ops) ((system R).run s₀ (ops ++ between)) key account ∧
        Overdrawn R ((system R).run s₀ ops) between key := by
  have hcovered {key : Key} {account : UserAccount} (subtracts : sdk.Subtracts R.toCrypto asSecs
      user nonce recoverInfo ((system R).run s₀ ops) ((system R).run s₀ (ops ++ between)) key
      account) : account.lockedAmount.toNat ≤
        ((system R).run s₀ (ops ++ between)).balance (vaultAddress key) ↔
      ¬ Overdrawn R ((system R).run s₀ ops) between key := by
    obtain ⟨e, tracks⟩ := run_tracks h₀ subtracts.registered
    rw [System.run_append]
    exact tracks.covered_iff between
  constructor
  · rintro safe ⟨key, account, subtracts, hoverdrawn⟩
    exact (hcovered subtracts).mp (safe.noUnderflow subtracts) hoverdrawn
  · intro hnone
    apply Sdk.SafeAcross.of_noUnderflow
    intro key account subtracts
    exact (hcovered subtracts).mpr fun hoverdrawn => hnone ⟨key, account, subtracts, hoverdrawn⟩

namespace Sample

/-- Most of a vault is locked with the first signature. -/
def mostLocked : List Op :=
  ops.take 2 ++ [.transferIn (vaultAddress user) 10000000, .invoke Sample.ctx (.lock
    ⟨globalAddress, userAddress user, user, lockAddress user 0, vaultAddress user, bot, payer⟩ first
    9000000)]

def settleAll : Op := .invoke Sample.ctx (.settle settleAccounts 0 9000000)

-- one evaluation of the run for both reads and the settle between them
theorem mostLocked_reads :
    ((system runtime).run start mostLocked).lamports (userAddress user) ≠ 0 ∧
    ((system runtime).run start mostLocked).data (userAddress user) =
      .user ⟨1, 9000000, vaultAddress user⟩ ∧
    ((system runtime).run start (mostLocked ++ [settleAll])).lamports (vaultAddress user) =
      1000000 ∧
    ((system runtime).step ((system runtime).run start mostLocked) settleAll).isSome = true := by
  decide +kernel

theorem second_signed : second.SignedBy crypto 1 user :=
  ((ED25519RecoverInfo.verify_eq_ok crypto).mp verify_second).1

theorem mostLocked_subtracts : (Sdk.serde bot).Subtracts runtime.toCrypto secs (Sdk.keyText user) 1
    (Sdk.recoverInfoText second) ((system runtime).run start mostLocked)
    ((system runtime).run start (mostLocked ++ [settleAll])) user
    ⟨1, 9000000, vaultAddress user⟩ where
  user := Sdk.parsePubkey_keyText bot user
  present := mostLocked_reads.1
  registered := mostLocked_reads.2.1
  nonce := rfl
  signed := ⟨second, Sdk.parseRecoverInfo_recoverInfoText bot second, ⟨true, second_signed⟩,
    by decide⟩
  vault := by
    rw [mostLocked_reads.2.2.1]
    decide

end Sample

theorem safe_across_iff_sample :
    (Sdk.serde Sample.bot).SafeAcross Sample.runtime.toCrypto Sample.secs
      (Sdk.keyText Sample.user) 1 10000000 (Sdk.recoverInfoText Sample.second)
      ((system Sample.runtime).run Sample.start (Sample.ops.take 4))
      ((system Sample.runtime).run Sample.start
        (Sample.ops.take 4 ++ [.invoke Sample.ctx (.deposit Sample.ownerAccounts 5000000)])) := by
  refine (safe_across_iff (fun _ => rfl) _ _ _ _ _ _ _ _).mpr ?_
  rintro ⟨key, account, -, hoverdrawn⟩
  have hnone (s : Accounts) : (system Sample.runtime).total (fun _ op => op.outOfVault key) s
      [.invoke Sample.ctx (.deposit Sample.ownerAccounts 5000000)] = 0 := by
    rw [System.total, System.total]
    split_ifs <;> rfl
  rw [Overdrawn, hnone] at hoverdrawn
  exact Nat.not_lt_zero _ hoverdrawn

/-- A settle between the reads, and a vault of a million lamports is good for any amount. -/
theorem wrapped_balance_is_sufficient :
    (∃ s', (system Sample.runtime).step ((system Sample.runtime).run Sample.start
      Sample.mostLocked) Sample.settleAll = some s') ∧
    (Sdk.serde Sample.bot).checkEligibleAcross Sample.runtime.toCrypto Sample.secs
      (Sdk.keyText Sample.user) 1 1000000000000000000 (Sdk.recoverInfoText Sample.second)
      ((system Sample.runtime).run Sample.start Sample.mostLocked)
      ((system Sample.runtime).run Sample.start (Sample.mostLocked ++ [Sample.settleAll])) =
        .ok true ∧
    ¬ (Sdk.serde Sample.bot).SafeAcross Sample.runtime.toCrypto Sample.secs
      (Sdk.keyText Sample.user) 1 1000000000000000000 (Sdk.recoverInfoText Sample.second)
      ((system Sample.runtime).run Sample.start Sample.mostLocked)
      ((system Sample.runtime).run Sample.start (Sample.mostLocked ++ [Sample.settleAll])) := by
  refine ⟨Option.isSome_iff_exists.mp Sample.mostLocked_reads.2.2.2, ?_, fun safe => ?_⟩
  · refine Sdk.checkEligibleAcross_eq_true.mpr ⟨_, _, Sample.mostLocked_subtracts, ?_⟩
    rw [Sample.mostLocked_reads.2.2.1]
    decide
  · have hcovered := safe.noUnderflow Sample.mostLocked_subtracts
    rw [balance, Sample.mostLocked_reads.2.2.1] at hcovered
    revert hcovered
    decide

end DsProxy.BalancePayment
