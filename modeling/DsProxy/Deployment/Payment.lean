import DsProxy.App.Charge
import DsProxy.BalancePayment.Rent
import DsProxy.Deployment.Charges

/-!
# A charge, from the wallet to the row

The web app publishes what its user signed, the controller pays on chain and publishes the credit,
the listener adds it to the user's row. Whatever else happens before, between and after, the free
funds of the vault alone decide whether a request that is in order is charged; the credit of a
charged one can be applied at any later time, and a refused one leaves everything as it was.
-/

namespace DsProxy.Deployment

open Relay Runs System

/-- The services are set up for the app's machine, and read each other's texts. -/
structure Matching (d : Config) (machine : PublicKey) : Prop where
  wire : Wire d
  sdk : d.sdk = .serde d.sdk.bot
  codec : d.controller.codec = Controller.SerdeJson.codec
  machine : d.controller.parsePublicKey App.machinePubkey = some machine
  listed : App.machinePubkey ∈ d.controller.machinePubkeys.map PublicKey.toHex
  session : d.controller.session = App.sTag
  backendSession : d.backend.session = App.sTag
  backendMachine : d.backend.machinePubkey = App.machinePubkey

/-- Every message of the controller reaches the relay, under a time that the listener accepts. -/
def Reaches (d : Config) (answer : ∀ c, Controller.Call.Answer c) : Prop :=
  ∀ dest message, Controller.sent answer dest message = true ∧ ∃ stamp : Stamp,
    d.backend.since ≤ stamp.createdAt ∧
    Controller.published d.controller answer (.sendEvent dest message) =
      some (Controller.storedEvent d.controller dest message stamp)

/-- The charge as a debit of the user's vault. -/
def debitOf (key : BalancePayment.Key) (submission : BalancePayment.Submission) :
    BalancePayment.Debit :=
  ⟨key, submission.treasury, Controller.payAmount⟩

/-- When the controller takes the request up, all but the user's funds is in order: in particular,
if they suffice the runtime does not refuse the payment for rent. -/
structure InOrder (d : Config) (foreign : BalancePayment.Pubkey → ℕ) (machine : PublicKey)
    (key : BalancePayment.Key) (info : BalancePayment.ED25519RecoverInfo) (nonce : UInt64)
    (submission : BalancePayment.Submission) (answer : ∀ c, Controller.Call.Answer c) (s : State) :
    Prop where
  running : s.controller.stopped = false
  available : ∃ request, s.controller.machines machine = some ⟨.available, request⟩
  registered : ∃ account,
    s.accounts.data (BalancePayment.userAddress key) = .user account ∧ account.nonce = nonce
  configured : ∃ globalAccount,
    s.accounts.data BalancePayment.globalAddress = .global globalAccount ∧
    globalAccount.bot = .key d.sdk.bot ∧ submission.treasury = globalAccount.treasury
  verified : info.verify d.runtime.toCrypto submission.unixTimestamp nonce key = .ok ()
  confirmed : submission.confirmed = true
  rentClear : Controller.payAmount.toNat ≤ BalancePayment.free s.accounts key →
    (debitOf key submission).RentClear d.runtime foreign s.accounts
  reaches : Reaches d answer

section Payment

variable {d : Config} {foreign : BalancePayment.Pubkey → ℕ} {machine : PublicKey}
  {key : BalancePayment.Key} {info : BalancePayment.ED25519RecoverInfo} {nonce : UInt64}
  {submission : BalancePayment.Submission} {answer : ∀ c, Controller.Call.Answer c}
  {s s' : State} {event : Event} {parsed : Controller.Payload}

/-! ### Along a run -/

theorem run_chain (s : State) (ops : List BalancePayment.Op) : (system d).run s (ops.map .chain) =
    { s with accounts := (BalancePayment.system d.runtime).run s.accounts ops } := by
  induction ops generalizing s with
  | nil => rfl
  | cons op ops ih =>
      have hnext : (system d).next s (.chain op) =
          { s with accounts := (BalancePayment.system d.runtime).next s.accounts op } := by
        cases hstep : (BalancePayment.system d.runtime).step s.accounts op with
        | none =>
            have hrefused : (system d).step s (.chain op) = none := by simp [system, hstep]
            rw [next_of_refused hrefused, next_of_refused hstep]
        | some accounts =>
            have haccepted : (system d).step s (.chain op) =
                some { s with accounts := accounts } := by simp [system, hstep]
            rw [next_of_step haccepted, next_of_step hstep]
      rw [List.map_cons, run_cons, run_cons, hnext, ih]

variable {pubkey : PublicKey} {content payload : String} {stamp : Stamp}

theorem Matching.startedAt (hset : Matching d machine) (time : UInt64) :
    Matching (d.startedAt time) machine :=
  ⟨hset.wire.startedAt time, hset.sdk, hset.codec, hset.machine, hset.listed, hset.session,
    hset.backendSession, hset.backendMachine⟩

theorem InOrder.startedAt (horder : InOrder d foreign machine key info nonce submission answer s)
    (time : UInt64) :
    InOrder (d.startedAt time) foreign machine key info nonce submission answer s :=
  ⟨horder.running, horder.available, horder.registered, horder.configured, horder.verified,
    horder.confirmed, horder.rentClear, horder.reaches⟩

end Payment

/-! ### A charge that goes through -/

namespace Sample

/-- The payer and the user have money, and nothing is set up on chain. -/
def funded : BalancePayment.Accounts where
  lamports a :=
    if a = .key BalancePayment.Sample.payer then 1000000000
    else if a = .key BalancePayment.Sample.user then 100000000 else 0
  data _ := .empty

def idle : State := ⟨funded, Controller.Sample.start, Backend.Sample.holding 0 [], [], []⟩

/-- The program is configured, the user registers and deposits two charges. -/
def setUp : List BalancePayment.Op :=
  [.invoke BalancePayment.Sample.ctx (.initialize_ ⟨BalancePayment.globalAddress,
      .key BalancePayment.Sample.authority, BalancePayment.Sample.treasury,
      .key BalancePayment.Sample.bot, BalancePayment.Sample.payer⟩),
    .invoke BalancePayment.Sample.ctx (.register
      ⟨BalancePayment.userAddress BalancePayment.Sample.user, BalancePayment.Sample.user,
        BalancePayment.vaultAddress BalancePayment.Sample.user, BalancePayment.Sample.payer⟩),
    .invoke BalancePayment.Sample.ctx (.deposit BalancePayment.Sample.ownerAccounts 10000000)]

def signMessage : List UInt8 → BalancePayment.Signature :=
  fun _ => BalancePayment.Sample.first.signature

def appStamp : Stamp := ⟨Bytes.toLE 32 1, 1735000001⟩

/-- What the app publishes for the user. -/
def appRequest : Event :=
  App.publishToRelay (Vector.replicate 32 9) 0
    (App.recoverInfoJson BalancePayment.Sample.first.signature BalancePayment.Sample.payload
      (.num 1735689600)).print
    (App.publicKeyText BalancePayment.Sample.user) appStamp

theorem reaches : Reaches cfg (Controller.Sample.answer 10) := by
  intro dest message
  cases message <;> exact ⟨rfl, _, by decide, rfl⟩

def prepared : List Op := setUp.map .chain ++ [.publish appRequest]

/-- The accounts are set up and the request is on the relay. -/
def ready : State :=
  ⟨(BalancePayment.system cfg.runtime).run funded setUp,
    { Controller.Sample.start with relay := [appRequest] }, Backend.Sample.holding 0 [], [], []⟩

theorem run_prepared :
    (lives cfg).run (firstLife idle) (prepared.map .run) = firstLife ready := by
  have hrun : (system cfg).run idle prepared = ready := by
    rw [prepared, run_concat, run_chain]
    exact next_of_step (step_publish foreign_key.1 foreign_key.2)
  exact (run_map (Lives.step_run cfg Controller.Sample.cfg.startedAt) idle prepared).trans
    (congrArg firstLife hrun)

theorem setUp_user : ((BalancePayment.system cfg.runtime).run funded setUp).data
    (BalancePayment.userAddress BalancePayment.Sample.user) =
      .user ⟨0, 0, BalancePayment.vaultAddress BalancePayment.Sample.user⟩ := by
  decide +kernel

theorem setUp_global : ((BalancePayment.system cfg.runtime).run funded setUp).data
    BalancePayment.globalAddress = .global ⟨.key BalancePayment.Sample.authority,
      .key BalancePayment.Sample.bot, BalancePayment.Sample.treasury⟩ := by
  decide +kernel

theorem setUp_vault : ((BalancePayment.system cfg.runtime).run funded setUp).balance
    (BalancePayment.vaultAddress BalancePayment.Sample.user) = 10000000 := by
  decide +kernel

theorem setUp_treasury : ((BalancePayment.system cfg.runtime).run funded setUp).data
    BalancePayment.Sample.treasury = .empty := by
  decide +kernel

/-- Another charge is left in the vault, and one is enough for the treasury to be exempt. -/
theorem setUp_rentClear (foreign : BalancePayment.Pubkey → ℕ) :
    (debitOf BalancePayment.Sample.user submission).RentClear cfg.runtime foreign
      ((BalancePayment.system cfg.runtime).run funded setUp) := by
  refine ⟨Or.inr ?_, ?_⟩
  · rw [debitOf, setUp_vault]
    decide
  · have hspace : ((BalancePayment.system cfg.runtime).run funded setUp).space foreign
        submission.treasury = 0 := by
      rw [BalancePayment.Accounts.space, show submission.treasury = BalancePayment.Sample.treasury
        from rfl, setUp_treasury]
      rfl
    rw [debitOf, hspace]
    exact le_trans (by decide) (Nat.le_add_left _ _)

theorem verified : (⟨BalancePayment.Sample.first.signature, BalancePayment.Sample.payload,
    Int64.ofNat 1735689600⟩ : BalancePayment.ED25519RecoverInfo).verify cfg.runtime.toCrypto
      1735000000 0 BalancePayment.Sample.user = .ok () := by
  decide +kernel

theorem inOrder (foreign : BalancePayment.Pubkey → ℕ) :
    InOrder cfg foreign Controller.Sample.machine BalancePayment.Sample.user
    ⟨BalancePayment.Sample.first.signature, BalancePayment.Sample.payload, Int64.ofNat 1735689600⟩
    0 submission (Controller.Sample.answer 10)
      ((lives cfg).run (firstLife idle) (prepared.map .run)).state := by
  rw [run_prepared]
  refine ⟨rfl, ⟨none, ?_⟩, ⟨_, setUp_user, rfl⟩, ⟨_, setUp_global, rfl, rfl⟩, verified, rfl,
    fun _ => setUp_rentClear foreign, reaches⟩
  exact (congrFun (congrArg Controller.State.machines Controller.Sample.start_eq) _).trans
    (Controller.Sample.machines_state _ _ _)

end Sample

end DsProxy.Deployment
