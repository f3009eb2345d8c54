import DsProxy.BalancePayment.Choice
import DsProxy.BalancePayment.Sdk

/-!
# The SDK's `check_eligible`

`check_eligible` of the SDK's `lib.rs` makes the program's checks off chain, from two reads of the
chain. It takes any answer of `verify_signature` for a valid signature, the negative one included,
and agrees with the program on every other point.
-/

namespace DsProxy.BalancePayment

open Accounts Runs

variable {R : Runtime} {s : Accounts} {account : UserAccount}

namespace Sdk

/-- The variants of `Error` that `check_eligible` can meet. -/
inductive Error
  | io
  | parsePubkey
  | serdeJson
  | solanaClient
  | signatureVerificationFailed (text : String)
  deriving DecidableEq

def parsed {α : Type} (error : Error) (value : Option α) : Except Error α :=
  value.elim (.error error) .ok

/-- `verify_signature` of the SDK's `verify.rs`, which is the program's with an error of its own. -/
def verifySignature (C : Crypto) (pubkey : Key) (signature : Signature) (message : List UInt8) :
    Except Error Bool :=
  (BalancePayment.verifySignature C pubkey signature message).mapError .signatureVerificationFailed

/-- `get_account`: an account without lamports does not exist. -/
def getAccount (s : Accounts) (a : Pubkey) : Except Error (UInt64 × AccountData) :=
  if s.lamports a = 0 then .error .solanaClient else .ok (s.lamports a, s.data a)

/-- `UserAccount::from_bytes`; a user address holds a user account or no data at all. -/
def fromBytes (data : AccountData) : Except Error UserAccount := parsed .io data.user?

/-- `check_eligible`, at a system time in seconds. -/
def checkEligible (sdk : Sdk) (C : Crypto) (asSecs : UInt64) (user : String)
    (nonce amount : UInt64) (recoverInfo : String) (s : Accounts) : Except Error Bool := do
  let user ← parsed .parsePubkey (sdk.parsePubkey user)
  let recoverInfo ← parsed .serdeJson (sdk.parseRecoverInfo recoverInfo)
  let (_, userAccountData) ← getAccount s (userAddress user)
  let userAccount ← fromBytes userAccountData
  if userAccount.nonce ≠ nonce then return false
  let digest := ED25519RecoverInfo.digest C recoverInfo.payload userAccount.nonce
    recoverInfo.deadline
  let valid := (verifySignature C user recoverInfo.signature digest).isOk
  if valid = false then return false
  let currentTimestamp := asSecs.toInt64
  if recoverInfo.deadline ≤ currentTimestamp then return false
  let (vaultBalance, _) ← getAccount s (vaultAddress user)
  -- a release build wraps
  if vaultBalance - userAccount.lockedAmount < amount then return false
  return true

/-! ### What a positive answer says -/

theorem parsed_eq_ok {α : Type} {error : Error} {value : Option α} {a : α} :
    parsed error value = .ok a ↔ value = some a := by
  cases value <;> simp [parsed]

theorem getAccount_eq_ok {a : Pubkey} {found : UInt64 × AccountData} :
    getAccount s a = .ok found ↔ s.lamports a ≠ 0 ∧ found = (s.lamports a, s.data a) := by
  unfold getAccount
  split_ifs with h <;> simp [h, eq_comm]

theorem isOk_verifySignature {C : Crypto} {pubkey : Key} {signature : Signature}
    {message : List UInt8} : (verifySignature C pubkey signature message).isOk = true ↔
      ∃ valid, BalancePayment.verifySignature C pubkey signature message = .ok valid := by
  unfold verifySignature
  cases BalancePayment.verifySignature C pubkey signature message <;>
    simp [Except.mapError, Except.isOk, Except.toBool]

theorem guard_eq_true {condition : Prop} [Decidable condition] {rest : Except Error Bool} :
    (if condition then pure false else rest) = .ok true ↔ ¬ condition ∧ rest = .ok true := by
  split_ifs with h <;> simp [h, pure, Except.pure]

theorem checkEligible_eq_true {sdk : Sdk} {C : Crypto} {asSecs : UInt64}
    {user recoverInfo : String} {nonce amount : UInt64} :
    sdk.checkEligible C asSecs user nonce amount recoverInfo s = .ok true ↔
      ∃ key info account, sdk.parsePubkey user = some key ∧
        sdk.parseRecoverInfo recoverInfo = some info ∧ s.lamports (userAddress key) ≠ 0 ∧
        s.data (userAddress key) = .user account ∧ account.nonce = nonce ∧
        (∃ valid, BalancePayment.verifySignature C key info.signature
          (ED25519RecoverInfo.digest C info.payload account.nonce info.deadline) = .ok valid) ∧
        asSecs.toInt64 < info.deadline ∧ s.lamports (vaultAddress key) ≠ 0 ∧
        amount ≤ s.lamports (vaultAddress key) - account.lockedAmount := by
  simp only [checkEligible, bind_eq_ok, parsed_eq_ok, getAccount_eq_ok, fromBytes,
    AccountData.user?_eq_some, guard_eq_true, Bool.not_eq_false, isOk_verifySignature, pure_eq_ok,
    and_true, Decidable.not_not]
  constructor
  · rintro ⟨key, hkey, info, hinfo, _, ⟨hexists, rfl⟩, account, huser, hnonce, hvalid, hlive, _,
      ⟨hvault, rfl⟩, hfunds⟩
    exact ⟨key, info, account, hkey, hinfo, hexists, huser, hnonce, hvalid,
      Int64.not_le.mp hlive, hvault, UInt64.not_lt.mp hfunds⟩
  · rintro ⟨key, info, account, hkey, hinfo, hexists, huser, hnonce, hvalid, hlive, hvault, hfunds⟩
    exact ⟨key, hkey, info, hinfo, _, ⟨hexists, rfl⟩, account, huser, hnonce, hvalid,
      Int64.not_le.mpr hlive, _, ⟨hvault, rfl⟩, UInt64.not_lt.mpr hfunds⟩

end Sdk

/-! ### What the program makes of it -/

/-- An error of the program's own checks. -/
def ProgramError.IsCustom : ProgramError → Prop
  | .custom _ => True
  | _ => False

/-- No check of the program refuses. -/
abbrev Clears (result : Except ProgramError Accounts) : Prop := Never ProgramError.IsCustom result

section Clears

variable {bad : ProgramError → Prop}

theorem never_checkedAdd (h : ¬ bad .arithmeticPanic) (a b : UInt64) :
    Never bad (checkedAdd a b) := by
  unfold checkedAdd
  split_ifs
  · exact never_ok _
  · exact never_error h

theorem never_checkedSub (h : ¬ bad .arithmeticPanic) (a b : UInt64) :
    Never bad (checkedSub a b) := by
  unfold checkedSub
  split_ifs
  · exact never_ok _
  · exact never_error h

theorem clears_transfer (s : Accounts) (source dest : Pubkey) (amount : UInt64) :
    Clears (s.transfer source dest amount) := by
  refine Never.bind (never_require id) fun _ _ => Never.bind (never_require id) fun _ _ => ?_
  apply Never.bind (Never.bind (never_checkedSub id _ _) fun _ _ => never_ok _)
  intro _ _
  exact Never.bind (never_checkedAdd id _ _) fun _ _ => never_ok _

end Clears

/-- A payment and a lock of the amount, submitted by the configured bot at this time, pass the
program's checks; where lamports and nonce stay in range they go through. -/
structure Admitted (R : Runtime) (unixTimestamp : Int64) (user : Key)
    (recoverInfo : ED25519RecoverInfo) (amount : UInt64) (s : Accounts) : Prop where
  pay : ∀ {ctx a globalAccount}, a.Right ctx s globalAccount → a.user = user →
    ctx.unixTimestamp = unixTimestamp → Clears (pay R ctx a recoverInfo amount s) ∧
      (SupplyBelow s → NonceBelow s user → ∃ s', pay R ctx a recoverInfo amount s = .ok s')
  lock : ∀ {ctx a globalAccount account}, a.Right ctx s globalAccount account → a.user = user →
    s.data (userAddress user) = .user account → CanPayRent R s a →
    ctx.unixTimestamp = unixTimestamp → Clears (lock R ctx a recoverInfo amount s) ∧
      (NonceBelow s user → ∃ s', lock R ctx a recoverInfo amount s = .ok s')

theorem admitted_of_checks {e : Escrow} {unixTimestamp : Int64} {user : Key}
    {recoverInfo : ED25519RecoverInfo} {amount : UInt64} (kept : WellKept R s)
    (tracks : Tracks s user account e)
    (hverify : recoverInfo.verify R.toCrypto unixTimestamp account.nonce user = .ok ())
    (hfunds : amount ≤ s.lamports (vaultAddress user) - account.lockedAmount) :
    Admitted R unixTimestamp user recoverInfo amount s := by
  have hsub : checkedSub (s.lamports (vaultAddress user)) account.lockedAmount =
      .ok (s.lamports (vaultAddress user) - account.lockedAmount) := if_pos tracks.locked_le_vault
  have hfree : amount.toNat ≤ free s user :=
    tracks.toNat_available ▸ UInt64.le_iff_toNat_le.mp hfunds
  constructor
  · rintro ctx a globalAccount right rfl rfl
    refine ⟨?_, fun hsupply hnonce =>
      (pay_exactly amount kept hsupply right tracks hnonce hverify).1.mpr hfree⟩
    rw [pay_eq right tracks.user, customResult_eq_ok.mpr hverify, ok_bind, hsub, ok_bind,
      require_ok hfunds, ok_bind]
    apply Never.bind (clears_transfer _ _ _ _)
    intro _ _
    exact Never.bind (never_checkedAdd id _ _) fun _ _ => never_ok _
  · rintro ctx a globalAccount account' right rfl huser hrent rfl
    cases tracks.user.symm.trans huser
    refine ⟨?_, fun hnonce =>
      (lock_exactly amount right tracks hrent hnonce hverify).1.mpr hfree⟩
    obtain ⟨mid, hlock⟩ := lock_eq right tracks hrent
    rw [hlock, customResult_eq_ok.mpr hverify, ok_bind, hsub, ok_bind, require_ok hfunds, ok_bind]
    apply Never.bind (never_checkedAdd id _ _)
    intro _ _
    exact Never.bind (never_checkedAdd id _ _) fun _ _ => never_ok _

/-- A bot is configured, and the signature is well formed and does not match, while everything else
is in order. -/
structure Mismatched (sdk : Sdk) (C : Crypto) (asSecs : UInt64) (userText : String)
    (currentNonce amount : UInt64) (recoverInfoText : String) (s : Accounts) (key : Key)
    (info : ED25519RecoverInfo) (account : UserAccount) : Prop where
  configured : ∃ globalAccount bot, s.data globalAddress = .global globalAccount ∧
    globalAccount.bot = .key bot
  user : sdk.parsePubkey userText = some key
  recoverInfo : sdk.parseRecoverInfo recoverInfoText = some info
  present : s.lamports (userAddress key) ≠ 0 ∧ s.lamports (vaultAddress key) ≠ 0
  registered : s.data (userAddress key) = .user account
  nonce : account.nonce = currentNonce
  mismatch : verifySignature C key info.signature
    (ED25519RecoverInfo.digest C info.payload account.nonce info.deadline) = .ok false
  live : asSecs.toInt64 < info.deadline
  funds : amount.toNat ≤ free s key

/-- A positive answer is right: the signer's account carries the nonce, and the bot's payment and
lock are admitted. -/
def Sdk.Sound (sdk : Sdk) (R : Runtime) (asSecs : UInt64) (user : String) (nonce amount : UInt64)
    (recoverInfo : String) (s : Accounts) : Prop :=
  sdk.checkEligible R.toCrypto asSecs user nonce amount recoverInfo s = .ok true →
    ∃ key info account, sdk.parsePubkey user = some key ∧
      sdk.parseRecoverInfo recoverInfo = some info ∧
      s.data (userAddress key) = .user account ∧ account.nonce = nonce ∧
      Admitted R asSecs.toInt64 key info amount s

section Sound

variable {sdk : Sdk} {asSecs : UInt64} {user recoverInfo : String} {nonce amount : UInt64}
  {key : Key} {info : ED25519RecoverInfo}

theorem Mismatched.eligible {e : Escrow}
    (h : Mismatched sdk R.toCrypto asSecs user nonce amount recoverInfo s key info account)
    (tracks : Tracks s key account e) :
    sdk.checkEligible R.toCrypto asSecs user nonce amount recoverInfo s = .ok true := by
  have hfunds : amount ≤ s.lamports (vaultAddress key) - account.lockedAmount :=
    UInt64.le_iff_toNat_le.mpr (tracks.toNat_available ▸ h.funds)
  exact Sdk.checkEligible_eq_true.mpr ⟨key, info, account, h.user, h.recoverInfo, h.present.1,
    h.registered, h.nonce, ⟨false, h.mismatch⟩, h.live, h.present.2, hfunds⟩

theorem Mismatched.pay_refused {ctx : Context} {a : Pay} {globalAccount : GlobalAccount}
    (h : Mismatched sdk R.toCrypto asSecs user nonce amount recoverInfo s key info account)
    (right : a.Right ctx s globalAccount) (hkey : a.user = key) (amount' : UInt64) :
    pay R ctx a info amount' s = .error (.custom .signatureMismatch) := by
  subst hkey
  have hverify : info.verify R.toCrypto ctx.unixTimestamp account.nonce a.user =
      .error .signatureMismatch := by
    rw [ED25519RecoverInfo.verify, h.mismatch]
    rfl
  rw [pay_eq right h.registered, hverify]
  rfl

theorem Mismatched.not_admitted
    (h : Mismatched sdk R.toCrypto asSecs user nonce amount recoverInfo s key info account) :
    ¬ Admitted R asSecs.toInt64 key info amount s := by
  intro admitted
  obtain ⟨globalAccount, bot, hglobal, hbot⟩ := h.configured
  have right : Pay.Right ⟨[bot], asSecs.toInt64⟩ s ⟨globalAddress, userAddress key, key,
      globalAccount.treasury, vaultAddress key, bot, bot⟩ globalAccount :=
    ⟨hglobal, hbot, rfl, rfl, rfl, rfl, List.mem_singleton_self bot, List.mem_singleton_self bot⟩
  exact (admitted.pay right rfl rfl).1 _ (h.pay_refused right rfl amount) trivial

theorem Mismatched.not_sound {e : Escrow}
    (h : Mismatched sdk R.toCrypto asSecs user nonce amount recoverInfo s key info account)
    (tracks : Tracks s key account e) :
    ¬ sdk.Sound R asSecs user nonce amount recoverInfo s := by
  intro sound
  obtain ⟨key', info', account', hkey, hinfo, -, -, admitted⟩ := sound (h.eligible tracks)
  cases h.user.symm.trans hkey
  cases h.recoverInfo.symm.trans hinfo
  exact h.not_admitted admitted

/-- With a signature that matches, the program makes the same checks. -/
theorem admitted_of_eligible {e : Escrow} {valid : Bool} (kept : WellKept R s)
    (tracks : Tracks s key account e)
    (hvalid : verifySignature R.toCrypto key info.signature
      (ED25519RecoverInfo.digest R.toCrypto info.payload account.nonce info.deadline) = .ok valid)
    (hmatch : valid ≠ false) (hlive : asSecs.toInt64 < info.deadline)
    (hfunds : amount ≤ s.lamports (vaultAddress key) - account.lockedAmount) :
    Admitted R asSecs.toInt64 key info amount s := by
  have htrue : valid = true := Bool.eq_true_of_not_eq_false hmatch
  subst htrue
  exact admitted_of_checks kept tracks
    ((ED25519RecoverInfo.verify_eq_ok R.toCrypto).mpr ⟨hvalid, Int64.le_of_lt hlive⟩) hfunds

/-- Without a configured bot nobody submits anything. -/
theorem admitted_of_unconfigured {unixTimestamp : Int64}
    (h : ¬ ∃ globalAccount bot, s.data globalAddress = .global globalAccount ∧
      globalAccount.bot = .key bot) : Admitted R unixTimestamp key info amount s where
  pay right _ _ := absurd ⟨_, _, right.configured, right.bot⟩ h
  lock right _ _ _ _ := absurd ⟨_, _, right.configured, right.bot⟩ h

theorem sound_iff (kept : WellKept R s)
    (htracks : ∀ {u account}, s.data (userAddress u) = .user account → ∃ e, Tracks s u account e) :
    sdk.Sound R asSecs user nonce amount recoverInfo s ↔
      ¬ ∃ key info account, Mismatched sdk R.toCrypto asSecs user nonce amount recoverInfo s key
        info account := by
  constructor
  · rintro sound ⟨key, info, account, h⟩
    obtain ⟨e, tracks⟩ := htracks h.registered
    exact h.not_sound tracks sound
  · intro hnone heligible
    obtain ⟨key, info, account, hkey, hinfo, hexists, huser, hnonce, ⟨valid, hvalid⟩, hlive, hvault,
      hfunds⟩ := Sdk.checkEligible_eq_true.mp heligible
    obtain ⟨e, tracks⟩ := htracks huser
    refine ⟨key, info, account, hkey, hinfo, huser, hnonce, ?_⟩
    by_cases hconfigured : ∃ globalAccount bot, s.data globalAddress = .global globalAccount ∧
        globalAccount.bot = .key bot
    · refine admitted_of_eligible kept tracks hvalid (fun hfalse => hnone ?_) hlive hfunds
      have hfree : amount.toNat ≤ free s key :=
        tracks.toNat_available ▸ UInt64.le_iff_toNat_le.mp hfunds
      exact ⟨key, info, account, hconfigured, hkey, hinfo, ⟨hexists, hvault⟩, huser, hnonce,
        hfalse ▸ hvalid, hlive, hfree⟩
    · exact admitted_of_unconfigured hconfigured

end Sound

/-- In every reachable state the answer is right unless a signature fails to match. -/
theorem eligible_sound_iff {s₀ : Accounts} (h₀ : Uninitialised s₀) (ops : List Op) (sdk : Sdk)
    (asSecs : UInt64) (user : String) (nonce amount : UInt64) (recoverInfo : String) :
    sdk.Sound R asSecs user nonce amount recoverInfo ((system R).run s₀ ops) ↔
      ¬ ∃ key info account, Mismatched sdk R.toCrypto asSecs user nonce amount recoverInfo
        ((system R).run s₀ ops) key info account :=
  sound_iff (run_wellKept h₀ ops) fun huser => run_tracks h₀ huser

namespace Sample

def secs : UInt64 := 1735000000

theorem funded_user : funded.data (userAddress user) = .user ⟨0, 0, vaultAddress user⟩ := by
  decide +kernel

theorem funded_right :
    payAccounts.Right Sample.ctx funded ⟨.key authority, .key bot, treasury⟩ where
  configured := by decide +kernel
  bot := rfl
  treasury := rfl
  globalAccount := rfl
  userAccount := rfl
  vault := rfl
  signed := by decide
  payerSigned := by decide

theorem funded_tracks : ∃ e, Tracks funded user ⟨0, 0, vaultAddress user⟩ e :=
  run_tracks (R := runtime) ((fun _ => rfl) : Uninitialised start) funded_user

theorem charge_free : 10000000 ≤ free funded user := by
  obtain ⟨e, tracks⟩ := funded_tracks
  rw [← tracks.toNat_available]
  decide +kernel

theorem second_mismatched : Mismatched (Sdk.serde bot) runtime.toCrypto secs (Sdk.keyText user) 0
    10000000 (Sdk.recoverInfoText second) funded user second ⟨0, 0, vaultAddress user⟩ where
  configured := ⟨_, bot, funded_right.configured, rfl⟩
  user := Sdk.parsePubkey_keyText bot user
  recoverInfo := Sdk.parseRecoverInfo_recoverInfoText bot second
  present := by decide +kernel
  registered := funded_user
  nonce := rfl
  mismatch := by decide +kernel
  live := by decide
  funds := charge_free

end Sample

/-- A signature for the next nonce is eligible now, and the payment fails on chain. -/
theorem mismatch_is_eligible :
    (Sdk.serde Sample.bot).checkEligible Sample.runtime.toCrypto Sample.secs
        (Sdk.keyText Sample.user) 0 10000000 (Sdk.recoverInfoText Sample.second) Sample.funded =
      .ok true ∧
    pay Sample.runtime Sample.ctx Sample.payAccounts Sample.second 10000000 Sample.funded =
      .error (.custom .signatureMismatch) ∧
    ¬ (Sdk.serde Sample.bot).Sound Sample.runtime Sample.secs (Sdk.keyText Sample.user) 0 10000000
      (Sdk.recoverInfoText Sample.second) Sample.funded := by
  obtain ⟨e, tracks⟩ := Sample.funded_tracks
  have h := Sample.second_mismatched
  exact ⟨h.eligible tracks, h.pay_refused Sample.funded_right rfl 10000000, h.not_sound tracks⟩

/-- The signature that does match makes for a right answer. -/
theorem eligible_sound_iff_sample :
    (Sdk.serde Sample.bot).Sound Sample.runtime Sample.secs (Sdk.keyText Sample.user) 0 10000000
      (Sdk.recoverInfoText Sample.first) Sample.funded := by
  refine (eligible_sound_iff (fun _ => rfl) (Sample.ops.take 3) _ _ _ _ _ _).mpr ?_
  rintro ⟨key, info, account, h⟩
  cases (Sdk.parsePubkey_keyText Sample.bot Sample.user).symm.trans h.user
  cases (Sdk.parseRecoverInfo_recoverInfoText Sample.bot Sample.first).symm.trans h.recoverInfo
  have hsigned := (ED25519RecoverInfo.verify_eq_ok Sample.crypto).mp Sample.verify_first
  have hmismatch := h.mismatch
  rw [h.nonce] at hmismatch
  cases hsigned.1.symm.trans hmismatch

end DsProxy.BalancePayment
