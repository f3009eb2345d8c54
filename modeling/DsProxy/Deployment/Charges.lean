import DsProxy.BalancePayment.Replay
import DsProxy.Deployment.Backing
import DsProxy.Lib.Collect

/-!
# Charges and credits

Each payment the controller makes for a user takes the user's next nonce, and the credit follows it
in the treatment of the same event or never. So there are no more credits than payments, however
requests are repeated, and a credit that is not published at once is lost.
-/

namespace DsProxy.Deployment

open Relay Runs System

variable {d : Config} {s s' : State}

/-! ### Nonces on chain -/

/-- A user's nonce; before the user is registered, the one it will start with. -/
def nonceOf (accounts : BalancePayment.Accounts) (key : BalancePayment.Key) : UInt64 :=
  (accounts.data (BalancePayment.userAddress key)).user?.elim 0 (·.nonce)

/-- The nonce that a payment of the charged amount uses up. -/
def payNonces (key : BalancePayment.Key) (accounts : BalancePayment.Accounts) :
    BalancePayment.Op → List UInt64
  | .invoke _ (.pay a _ amountToTransfer) =>
    if a.user = key ∧ amountToTransfer = Controller.payAmount then [nonceOf accounts key] else []
  | _ => []

section Nonces

variable {R : BalancePayment.Runtime} {a a' : BalancePayment.Accounts} {op : BalancePayment.Op}
  {key : BalancePayment.Key} {account : BalancePayment.UserAccount}

theorem nonceOf_of_user (h : a.data (BalancePayment.userAddress key) = .user account) :
    nonceOf a key = account.nonce := by
  rw [nonceOf, h]
  rfl

theorem nonceOf_le (h : (BalancePayment.system R).step a op = some a') (key : BalancePayment.Key) :
    (nonceOf a key).toNat ≤ (nonceOf a' key).toNat := by
  cases hdata : (a.data (BalancePayment.userAddress key)).user? with
  | none =>
      rw [nonceOf, hdata]
      exact Nat.zero_le _
  | some account =>
      have huser := BalancePayment.AccountData.user?_eq_some.mp hdata
      obtain ⟨updated, huser', hnonce⟩ := BalancePayment.user_of_step h huser
      rw [nonceOf_of_user huser, nonceOf_of_user huser', hnonce]
      exact Nat.le_add_right _ _

theorem nonceOf_lt_of_pay {ctx : BalancePayment.Context} {p : BalancePayment.Pay}
    {recoverInfo : BalancePayment.ED25519RecoverInfo} {amount : UInt64}
    (h : (BalancePayment.system R).step a (.invoke ctx (.pay p recoverInfo amount)) = some a') :
    (nonceOf a p.user).toNat < (nonceOf a' p.user).toNat := by
  cases BalancePayment.step_done h with
  | pay globalAccount account updated done =>
      obtain ⟨updated', huser', hnonce⟩ := BalancePayment.user_of_step h done.registered
      rw [BalancePayment.Op.consumer, if_pos rfl] at hnonce
      rw [nonceOf_of_user done.registered, nonceOf_of_user huser', hnonce]
      exact Nat.lt_succ_self _

theorem payNonces_climbs (h : (BalancePayment.system R).step a op = some a') :
    Climbs UInt64.toNat (nonceOf a key).toNat (nonceOf a' key).toNat (payNonces key a op) := by
  have hle := nonceOf_le h key
  cases op with
  | invoke ctx ix =>
      cases ix with
      | pay p recoverInfo amount =>
          simp only [payNonces]
          split_ifs with hpays
          · obtain ⟨rfl, -⟩ := hpays
            exact Climbs.singleton (nonceOf_lt_of_pay h)
          · exact Climbs.nil hle
      | _ => exact Climbs.nil hle
  | _ => exact Climbs.nil hle

end Nonces

/-! ### What a step charges and credits -/

/-- The nonces of a user that the payments of the charged amount in a step use up. -/
def paidNonces (d : Config) (key : BalancePayment.Key) (s : State) (op : Op) : List UInt64 :=
  (BalancePayment.system d.runtime).collect (payNonces key) s.accounts (chainOps d s op)

/-- Those that the controller's own payments use up. -/
def chargedNonces (d : Config) (key : BalancePayment.Key) (s : State) : Op → List UInt64
  | .deliver event submission answer => paidNonces d key s (.deliver event submission answer)
  | _ => []

/-- A call that leaves a Transaction event of such an amount for the user on the relay. -/
def Credits (d : Config) (key : BalancePayment.Key) (amounts : Int64 → Bool)
    (answer : ∀ c, Controller.Call.Answer c) : Controller.Call → Bool
  | .sendEvent dest (.transaction user tokens) =>
    d.sdk.parsePubkey user == some key && amounts tokens &&
      (Controller.published d.controller answer (.sendEvent dest (.transaction user tokens))).isSome
  | _ => false

/-- The credits of a step, each with the user's nonce when its event was handled. -/
def creditedNonces (d : Config) (amounts : Int64 → Bool) (key : BalancePayment.Key) (s : State) :
    Op → List UInt64
  | .deliver event submission answer =>
    let answer := answers d submission s.accounts answer
    (((Controller.handleEvent d.controller s.controller.machines event).calls answer).filter
      (Credits d key amounts answer)).map fun _ => nonceOf s.accounts key
  | _ => []

/-- Tokens of a charge. -/
def chargedTokens : Int64 := Controller.payAmount.toInt64 * Controller.tokensLamportsRatio

section Charge

variable {key : BalancePayment.Key} {amounts : Int64 → Bool} {event : Event}
  {submission : BalancePayment.Submission} {answer : ∀ c, Controller.Call.Answer c}
  {toStatus : Controller.Status} {reason : Controller.StatusReason} {mention : String}
  {parsed : Controller.Payload}

/-- The controller's payment runs on chain. -/
def runsOnChain (d : Config) (submission : BalancePayment.Submission) (parsed : Controller.Payload)
    (accounts : BalancePayment.Accounts) : Bool :=
  (d.sdk.payOp submission parsed.user Controller.payAmount parsed.recoverInfo).any fun op =>
    ((BalancePayment.system d.runtime).step accounts op).isSome

/-- The relay stores the credit. -/
def storesCredit (d : Config) (answer : ∀ c, Controller.Call.Answer c) (mention : String)
    (parsed : Controller.Payload) : Bool :=
  (Controller.published d.controller answer
    (.sendEvent mention (Controller.chargedCredit parsed))).isSome

theorem paid_iff {accounts : BalancePayment.Accounts} :
    Controller.paid (answers d submission accounts answer) parsed = true ↔
      runsOnChain d submission parsed accounts = true ∧ submission.confirmed = true := by
  rw [paid_answers, BalancePayment.Sdk.pay, runsOnChain]
  cases d.sdk.payOp submission parsed.user Controller.payAmount parsed.recoverInfo with
  | none => simp
  | some op => cases hstep : (BalancePayment.system d.runtime).step accounts op <;> simp [hstep]

theorem payOp_eq_some {op : BalancePayment.Op} (h : d.sdk.payOp submission parsed.user
    Controller.payAmount parsed.recoverInfo = some op) :
    ∃ key recoverInfo ctx p, d.sdk.parsePubkey parsed.user = some key ∧
      d.sdk.parseRecoverInfo parsed.recoverInfo = some recoverInfo ∧
      op = .invoke ctx (.pay p recoverInfo Controller.payAmount) ∧ p.user = key := by
  simp only [BalancePayment.Sdk.payOp, BalancePayment.Sdk.payInstruction, Option.bind_eq_bind,
    Option.map_eq_some_iff, Option.bind_eq_some_iff] at h
  obtain ⟨ix, ⟨key, hkey, recoverInfo, hinfo, hix⟩, rfl⟩ := h
  cases hix
  exact ⟨key, recoverInfo, _, _, hkey, hinfo, rfl, rfl⟩

theorem chargedNonces_of_admitted (hadmitted : Controller.admittedRequest d.controller
    s.controller.machines event = some (toStatus, reason, mention, parsed)) :
    chargedNonces d key s (.deliver event submission answer) =
      if runsOnChain d submission parsed s.accounts = true ∧
          d.sdk.parsePubkey parsed.user = some key then [nonceOf s.accounts key] else [] := by
  rw [chargedNonces, paidNonces, chainOps, Controller.handleEvent_of_admitted hadmitted,
    submitted_charge, runsOnChain]
  cases hop : d.sdk.payOp submission parsed.user Controller.payAmount parsed.recoverInfo with
  | none => simp [collect]
  | some op =>
      obtain ⟨key', recoverInfo, ctx, p, hkey', -, hpay, huser⟩ := payOp_eq_some hop
      have hnonces : payNonces key s.accounts op =
          if key' = key then [nonceOf s.accounts key] else [] := by
        rw [hpay, ← huser]
        simp [payNonces]
      rw [Option.toList_some, hkey']
      cases hstep : (BalancePayment.system d.runtime).step s.accounts op with
      | none => simp [collect, hstep]
      | some accounts => simp [collect, hstep, hnonces]

/-- Of the calls for an admitted request only one can be a credit. -/
theorem filter_credits (hamounts : amounts chargedTokens = true) :
    ((Controller.charge d.controller s.controller.machines event toStatus reason mention
      parsed).calls answer).filter (Credits d key amounts answer) =
      if (Controller.paid answer parsed = true ∧ Controller.sent answer mention
            (Controller.chargedStatus d.controller event toStatus reason parsed) = true) ∧
          d.sdk.parsePubkey parsed.user = some key ∧ storesCredit d answer mention parsed = true
        then [.sendEvent mention (Controller.chargedCredit parsed)] else [] := by
  have hcredit : Credits d key amounts answer
      (.sendEvent mention (Controller.chargedCredit parsed)) =
        (d.sdk.parsePubkey parsed.user == some key && storesCredit d answer mention parsed) := by
    show (_ && amounts chargedTokens && _) = _
    rw [hamounts, Bool.and_true]
    rfl
  have hspawn (timer : Controller.Timer) : Credits d key amounts answer (.spawn timer) = false :=
    rfl
  have hstatus : Credits d key amounts answer (.sendEvent mention
      (Controller.chargedStatus d.controller event toStatus reason parsed)) = false := rfl
  have hpay : Credits d key amounts answer
      (.pay parsed.user Controller.payAmount parsed.recoverInfo) = false := rfl
  rw [Controller.calls_charge]
  split_ifs <;> simp_all

theorem creditedNonces_of_admitted (hamounts : amounts chargedTokens = true)
    (hadmitted : Controller.admittedRequest d.controller s.controller.machines event =
      some (toStatus, reason, mention, parsed)) :
    creditedNonces d amounts key s (.deliver event submission answer) =
      if (runsOnChain d submission parsed s.accounts = true ∧
          d.sdk.parsePubkey parsed.user = some key) ∧ submission.confirmed = true ∧
          Controller.sent answer mention
            (Controller.chargedStatus d.controller event toStatus reason parsed) = true ∧
          storesCredit d answer mention parsed = true
        then [nonceOf s.accounts key] else [] := by
  have hfilter : ((Controller.charge d.controller s.controller.machines event toStatus reason
      mention parsed).calls (answers d submission s.accounts answer)).filter
        (Credits d key amounts (answers d submission s.accounts answer)) = _ :=
    filter_credits hamounts
  have hsent : Controller.sent (answers d submission s.accounts answer) mention
      (Controller.chargedStatus d.controller event toStatus reason parsed) =
        Controller.sent answer mention
          (Controller.chargedStatus d.controller event toStatus reason parsed) := rfl
  have hstores : storesCredit d (answers d submission s.accounts answer) mention parsed =
      storesCredit d answer mention parsed := rfl
  simp only [paid_iff, hsent, hstores] at hfilter
  rw [creditedNonces, Controller.handleEvent_of_admitted hadmitted]
  rw [hfilter]
  split_ifs <;> simp_all

theorem chargedNonces_of_not_admitted
    (h : Controller.admittedRequest d.controller s.controller.machines event = none) :
    chargedNonces d key s (.deliver event submission answer) = [] := by
  rw [chargedNonces, paidNonces, chainOps, Controller.calls_of_not_admitted h]
  rfl

theorem creditedNonces_of_not_admitted
    (h : Controller.admittedRequest d.controller s.controller.machines event = none) :
    creditedNonces d amounts key s (.deliver event submission answer) = [] := by
  rw [creditedNonces, Controller.calls_of_not_admitted h]
  rfl

end Charge

/-! ### No more credits than payments -/

/-- A list of every step of the deployment, in the controller's present life. -/
def inLife {β : Type} (f : Config → State → Op → List β) (d : Config) (l : Lives) :
    Lives.Op → List β
  | .run op => f (d.startedAt l.startedAt) l.state op
  | .restart _ _ => []

variable {key : BalancePayment.Key} {l l' : Lives}

theorem credited_sublist_charged {amounts : Int64 → Bool} (hamounts : amounts chargedTokens = true)
    (s : State) (op : Op) :
    (creditedNonces d amounts key s op).Sublist (chargedNonces d key s op) := by
  cases op with
  | deliver event submission answer =>
      cases hadmitted : Controller.admittedRequest d.controller s.controller.machines event with
      | none =>
          rw [chargedNonces_of_not_admitted hadmitted, creditedNonces_of_not_admitted hadmitted]
      | some admitted =>
          obtain ⟨toStatus, reason, mention, parsed⟩ := admitted
          rw [chargedNonces_of_admitted hadmitted, creditedNonces_of_admitted hamounts hadmitted]
          split_ifs with hcredited hcharged hcharged
          · exact List.Sublist.refl _
          · exact absurd hcredited.1 hcharged
          · exact List.nil_sublist _
          · exact List.Sublist.refl _
  | _ => exact List.Sublist.refl _

theorem charged_sublist_paid (s : State) (op : Op) :
    (chargedNonces d key s op).Sublist (paidNonces d key s op) := by
  cases op with
  | deliver event submission answer => exact List.Sublist.refl _
  | _ => exact List.nil_sublist _

/-- Along all lives of the controller the payments take a user's nonces upwards. -/
theorem paidNonces_climbs {op : Lives.Op} (h : (lives d).step l op = some l') :
    Climbs UInt64.toNat (nonceOf l.state.accounts key).toNat (nonceOf l'.state.accounts key).toNat
      (inLife (paidNonces · key) d l op) := by
  cases op with
  | run op =>
      rw [accounts_of_step (Lives.run_done h)]
      exact collect_climbs (fun hstep => payNonces_climbs hstep) _ _
  | restart startedAt lastEvents =>
      obtain ⟨machines, rfl⟩ := Lives.restart_done h
      exact Climbs.nil (Nat.le_refl _)

/-- The controller handles an event whose payload carries this authorisation. -/
def Presents (d : Config) (l : Lives) (recoverInfo : BalancePayment.ED25519RecoverInfo) :
    Lives.Op → Prop
  | .run (.deliver event _ _) => ∃ toStatus reason mention parsed,
    Controller.admittedRequest d.controller l.state.controller.machines event =
      some (toStatus, reason, mention, parsed) ∧
    d.sdk.parseRecoverInfo parsed.recoverInfo = some recoverInfo
  | _ => False

/-- What the payments and the credits of a user in a run have to do with each other. -/
structure CreditedOnce (d : Config) (key : BalancePayment.Key) (l₀ : Lives) (ops : List Lives.Op) :
    Prop where
  credits_le : ((lives d).collect (inLife (creditedNonces · (fun _ => true) key) d) l₀ ops).length ≤
    ((lives d).collect (inLife (paidNonces · key) d) l₀ ops).length
  /-- Each payment consumed a nonce of its own. -/
  paid_once : ((lives d).collect (inLife (paidNonces · key) d) l₀ ops).Nodup
  /-- Each credit follows the payment of a nonce, and no nonce is credited twice. -/
  credited_once : ((lives d).collect (inLife (creditedNonces · (fun _ => true) key) d) l₀ ops).Nodup
  /-- The user has signed for the nonce that a credit follows. -/
  signed : ∀ {i op l l' n}, StepAt (lives d) l₀ ops i op l l' →
    n ∈ inLife (creditedNonces · (fun _ => true) key) d l op →
    ∃ recoverInfo, Presents d l recoverInfo op ∧ recoverInfo.SignedBy d.runtime.toCrypto n key

theorem signed_of_credited {event : Event} {submission : BalancePayment.Submission}
    {answer : ∀ c, Controller.Call.Answer c} {n : UInt64}
    (h : n ∈ creditedNonces d (fun _ => true) key s (.deliver event submission answer)) :
    ∃ toStatus reason mention parsed recoverInfo,
      Controller.admittedRequest d.controller s.controller.machines event =
        some (toStatus, reason, mention, parsed) ∧
      d.sdk.parseRecoverInfo parsed.recoverInfo = some recoverInfo ∧
      recoverInfo.SignedBy d.runtime.toCrypto n key := by
  cases hadmitted : Controller.admittedRequest d.controller s.controller.machines event with
  | none =>
      rw [creditedNonces_of_not_admitted hadmitted] at h
      cases h
  | some admitted =>
      obtain ⟨toStatus, reason, mention, parsed⟩ := admitted
      rw [creditedNonces_of_admitted rfl hadmitted] at h
      split_ifs at h with hcredited
      · obtain ⟨⟨hruns, hkey⟩, -⟩ := hcredited
        obtain rfl := List.mem_singleton.mp h
        obtain ⟨op, hop, hstep⟩ := (Option.any_eq_true _ _).mp hruns
        obtain ⟨key', recoverInfo, ctx, p, hkey', hinfo, rfl, rfl⟩ := payOp_eq_some hop
        obtain rfl := Option.some.inj (hkey'.symm.trans hkey)
        refine ⟨toStatus, reason, mention, parsed, recoverInfo, rfl, hinfo, ?_⟩
        obtain ⟨accounts, hpaid⟩ := Option.isSome_iff_exists.mp hstep
        cases BalancePayment.step_done hpaid with
        | pay globalAccount account updated done =>
            rw [nonceOf_of_user done.registered]
            exact done.signedByUser
      · cases h

/-- However requests are repeated, a user is credited at most once for each signed nonce. -/
theorem credited_once_per_payment (d : Config) (key : BalancePayment.Key) (l₀ : Lives)
    (ops : List Lives.Op) : CreditedOnce d key l₀ ops := by
  have hstep {l l' : Lives} {op : Lives.Op} (h : (lives d).step l op = some l') :
      Climbs UInt64.toNat (nonceOf l.state.accounts key).toNat
        (nonceOf l'.state.accounts key).toNat (inLife (paidNonces · key) d l op) :=
    paidNonces_climbs h
  have hclimbs := collect_climbs hstep l₀ ops
  have hsublist := collect_sublist (M := lives d)
    (f := inLife (creditedNonces · (fun _ => true) key) d) (g := inLife (paidNonces · key) d)
    (fun {l op l'} _ => by
      cases op with
      | run op => exact (credited_sublist_charged rfl _ op).trans (charged_sublist_paid _ op)
      | restart startedAt lastEvents => exact List.Sublist.refl _) l₀ ops
  refine ⟨hsublist.length_le, hclimbs.nodup, hclimbs.nodup.sublist hsublist, ?_⟩
  intro i op l l' n hat hn
  cases op with
  | restart startedAt lastEvents => cases hn
  | run op =>
      cases op with
      | deliver event submission answer =>
          obtain ⟨toStatus, reason, mention, parsed, recoverInfo, hadmitted, hinfo, hsigned⟩ :=
            signed_of_credited hn
          exact ⟨recoverInfo, ⟨toStatus, reason, mention, parsed, hadmitted, hinfo⟩, hsigned⟩
      | _ => cases hn

/-! ### No fewer credits than charges -/

/-- What follows a payment that has run goes through: its confirmation arrives, the Status event is
sent, and the relay stores the credit. -/
def Completed (d : Config) (s : State) : Op → Prop
  | .deliver event submission answer => ∀ {toStatus reason mention parsed},
    Controller.admittedRequest d.controller s.controller.machines event =
      some (toStatus, reason, mention, parsed) →
    runsOnChain d submission parsed s.accounts = true →
    submission.confirmed = true ∧ Controller.sent answer mention
      (Controller.chargedStatus d.controller event toStatus reason parsed) = true ∧
    storesCredit d answer mention parsed = true
  | _ => True

def CompletedInLife (d : Config) (l : Lives) : Lives.Op → Prop
  | .run op => Completed (d.startedAt l.startedAt) l.state op
  | .restart _ _ => True

/-- How often the controller's payments charge a user in a step. -/
def charges (d : Config) (key : BalancePayment.Key) (l : Lives) (op : Lives.Op) : ℕ :=
  (inLife (chargedNonces · key) d l op).length

/-- How often a step credits the tokens of a charge to a user. -/
def credits (d : Config) (key : BalancePayment.Key) (l : Lives) (op : Lives.Op) : ℕ :=
  (inLife (creditedNonces · (· == chargedTokens) key) d l op).length

/-- The controller has credited as often as it has charged. -/
def EveryChargeCredited (d : Config) (l₀ : Lives) (ops : List Lives.Op) : Prop :=
  ∀ key, (lives d).total (charges d key) l₀ ops ≤ (lives d).total (credits d key) l₀ ops

theorem credits_le_charges (key : BalancePayment.Key) (l : Lives) (op : Lives.Op) :
    credits d key l op ≤ charges d key l op := by
  cases op with
  | run op => exact (credited_sublist_charged (by decide) _ op).length_le
  | restart startedAt lastEvents => exact Nat.le_refl _

theorem completed_iff (s : State) (op : Op) :
    Completed d s op ↔ ∀ key, (chargedNonces d key s op).length ≤
      (creditedNonces d (· == chargedTokens) key s op).length := by
  cases op with
  | deliver event submission answer =>
      constructor
      · intro h key
        cases hadmitted : Controller.admittedRequest d.controller s.controller.machines event with
        | none =>
            rw [chargedNonces_of_not_admitted hadmitted]
            exact Nat.zero_le _
        | some admitted =>
            obtain ⟨toStatus, reason, mention, parsed⟩ := admitted
            rw [chargedNonces_of_admitted hadmitted,
              creditedNonces_of_admitted (by decide) hadmitted]
            split_ifs with hcharged hcredited
            · exact Nat.le_refl _
            · exact absurd ⟨hcharged, h hadmitted hcharged.1⟩ hcredited
            · exact Nat.zero_le _
            · exact Nat.le_refl _
      · intro h toStatus reason mention parsed hadmitted hruns
        obtain ⟨op, hop, -⟩ := (Option.any_eq_true _ _).mp hruns
        obtain ⟨key, -, -, -, hkey, -, -, -⟩ := payOp_eq_some hop
        have hle := h key
        rw [chargedNonces_of_admitted hadmitted, if_pos ⟨hruns, hkey⟩,
          creditedNonces_of_admitted (by decide) hadmitted] at hle
        split_ifs at hle with hcredited
        · exact hcredited.2
        · cases hle
  | _ => exact iff_of_true trivial fun key => Nat.le_refl _

theorem completedInLife_iff (l : Lives) (op : Lives.Op) :
    CompletedInLife d l op ↔ ∀ key, charges d key l op ≤ credits d key l op := by
  cases op with
  | run op => exact completed_iff l.state op
  | restart startedAt lastEvents => exact iff_of_true trivial fun key => Nat.le_refl _

/-- In every run each charge is credited, then or later, exactly when what follows each payment goes
through: nothing is made up for. -/
theorem charges_credited_iff (d : Config) (l₀ : Lives) (ops : List Lives.Op) :
    EveryChargeCredited d l₀ ops ↔ (lives d).Throughout (CompletedInLife d) l₀ ops := by
  have hcompleted : CompletedInLife d =
      fun l op => ∀ key, charges d key l op ≤ credits d key l op := by
    funext l op
    exact propext (completedInLife_iff l op)
  have hkey (key : BalancePayment.Key) :
      (lives d).total (charges d key) l₀ ops ≤ (lives d).total (credits d key) l₀ ops ↔
        (lives d).Throughout (fun l op => charges d key l op ≤ credits d key l op) l₀ ops :=
    total_le_iff_throughout (fun _ => credits_le_charges key _ _) l₀ ops
  rw [hcompleted, ← forall_throughout]
  exact forall_congr' hkey

/-! ### A charge without a credit -/

namespace Sample

/-- No send of the controller gets through. -/
def disconnected : ∀ c, Controller.Call.Answer c
  | .pay _ _ _ => true
  | .sendEvent _ _ => (⟨false, none⟩ : Controller.Sent)
  | .spawn _ => ()

theorem startedAt_eq : cfg.startedAt Controller.Sample.cfg.startedAt = cfg := rfl

/-- A request is published and charged, and then the relay cannot be reached. -/
def cutOff : List Lives.Op :=
  [.run (.publish (Controller.Sample.request 1 0)),
    .run (.deliver (Controller.Sample.request 1 0) submission disconnected)]

theorem admittedRequest_first : Controller.admittedRequest Controller.Sample.cfg
    requested.controller.machines (Controller.Sample.request 1 0) =
      some (.working, .userRequest, Controller.Sample.machine.toHex,
        Controller.Sample.payload 0) := by
  rw [Controller.admittedRequest, Controller.Sample.decode_request]
  show Option.map _ (Controller.admission Controller.Sample.cfg (Controller.Sample.state
    Controller.Sample.idle _ _).machines _ _ _ _ _) = _
  rw [Controller.Sample.admission_request rfl]
  rfl

theorem runsOnChain_first :
    runsOnChain cfg submission (Controller.Sample.payload 0) accounts = true := by
  rw [runsOnChain, payOp_eq, Option.any_some]
  exact pay_runs

theorem step_cutOff : ∃ s, (system cfg).step requested
    (.deliver (Controller.Sample.request 1 0) submission disconnected) = some s :=
  ⟨_, deliver_accepted rfl List.mem_cons_self Controller.Sample.accepts_request⟩

theorem charges_cutOff : charges cfg BalancePayment.Sample.user (firstLife requested)
    (.run (.deliver (Controller.Sample.request 1 0) submission disconnected)) = 1 := by
  have hcharged : chargedNonces cfg BalancePayment.Sample.user requested
      (.deliver (Controller.Sample.request 1 0) submission disconnected) = _ :=
    chargedNonces_of_admitted admittedRequest_first
  have hkey : cfg.sdk.parsePubkey (Controller.Sample.payload 0).user =
      some BalancePayment.Sample.user :=
    BalancePayment.Sdk.parsePubkey_keyText BalancePayment.Sample.bot BalancePayment.Sample.user
  have hruns : runsOnChain cfg submission (Controller.Sample.payload 0) requested.accounts = true :=
    runsOnChain_first
  rw [if_pos ⟨hruns, hkey⟩] at hcharged
  rw [charges, inLife, firstLife, startedAt_eq, hcharged, List.length_singleton]

theorem credits_cutOff : credits cfg BalancePayment.Sample.user (firstLife requested)
    (.run (.deliver (Controller.Sample.request 1 0) submission disconnected)) = 0 := by
  have hcredited : creditedNonces cfg (· == chargedTokens) BalancePayment.Sample.user requested
      (.deliver (Controller.Sample.request 1 0) submission disconnected) = _ :=
    creditedNonces_of_admitted (by decide) admittedRequest_first
  have hsent (dest : String) (message : Controller.Message) :
      Controller.sent disconnected dest message = false := rfl
  simp only [hsent, Bool.false_eq_true, false_and, and_false, if_false] at hcredited
  rw [credits, inLife, firstLife, startedAt_eq, hcredited, List.length_nil]

end Sample

/-- A user who is charged while the relay cannot be reached is never credited, whatever the
controller does later. -/
theorem charged_without_credit : ¬ ∃ later,
    EveryChargeCredited Sample.cfg (Sample.firstLife Sample.start) (Sample.cutOff ++ later) := by
  rintro ⟨later, h⟩
  have hthroughout := (total_le_iff_throughout (M := lives Sample.cfg)
    (fun _ => credits_le_charges BalancePayment.Sample.user _ _) _ _).mp
      (h BalancePayment.Sample.user)
  obtain ⟨s, hstep⟩ := Sample.step_cutOff
  have hdeliver : (lives Sample.cfg).step (Sample.firstLife Sample.requested)
      (.run (.deliver (Controller.Sample.request 1 0) Sample.submission Sample.disconnected)) =
        some (Sample.firstLife s) :=
    (Lives.step_run _ _ _ _).trans (congrArg (Option.map _) hstep)
  rw [Sample.cutOff, List.cons_append, List.cons_append,
    throughout_cons_of_step Sample.lives_requested, throughout_cons_of_step hdeliver,
    Sample.charges_cutOff, Sample.credits_cutOff] at hthroughout
  exact Nat.not_succ_le_zero 0 hthroughout.2.1

end DsProxy.Deployment
