import DsProxy.Backend.Balance
import DsProxy.Controller.Session
import DsProxy.Deployment.Run
import DsProxy.Deployment.WireFormat
import DsProxy.Lib.Delivery

/-!
# What backs the credits

The controller publishes a credit only after its payment has gone through, but the listener credits
whatever it is sent, by anyone and as often as it is sent. So the credits of a user are backed by
payments in every run in which what the listener credits is the controller's and new.
-/

namespace DsProxy.Deployment

open Relay Runs System

/-! ### Amounts -/

/-- The lamports that a pay instruction moves for a key. -/
def lamports (key : BalancePayment.Key) (_ : BalancePayment.Accounts) : BalancePayment.Op → ℕ
  | .invoke _ (.pay accounts _ amountToTransfer) =>
    if accounts.user = key then amountToTransfer.toNat else 0
  | _ => 0

/-- The lamports that the successful pay instructions of a step move for a user. -/
def paid (d : Config) (u : String) (s : State) (op : Op) : ℕ :=
  (d.sdk.parsePubkey u).elim 0 fun key =>
    (BalancePayment.system d.runtime).total (lamports key) s.accounts (chainOps d s op)

/-- By how much the tokens of a row rise. -/
def rise : Option ℤ → Option ℤ → ℕ
  | some before, some after => (after - before).toNat
  | _, _ => 0

/-- The positive delta that the listener applies to a user's row. -/
def credited (d : Config) (u : String) (s : State) : Op → ℕ
  | .backend (.deliver position outcomes) =>
    rise (Backend.balance s.db u)
      (Backend.balance ((system d).next s (.backend (.deliver position outcomes))).db u)
  | _ => 0

/-- A credit that the listener hears is the controller's, and heard for the first time. -/
def Backed (d : Config) (s : State) : Op → Prop
  | .backend (.deliver position _) => ∀ {event u}, s.controller.relay[position]? = some event →
      0 < Backend.delta d.backend event u →
      event.pubkey = d.controller.controllerPubkey ∧ position ∉ s.delivered
  | _ => True

/-- An amount of every step of the deployment, in the controller's present life. -/
def amountInLife (amount : Config → State → Op → ℕ) (d : Config) (l : Lives) : Lives.Op → ℕ
  | .run op => amount (d.startedAt l.startedAt) l.state op
  | .restart _ _ => 0

def BackedInLife (d : Config) (l : Lives) : Lives.Op → Prop
  | .run op => Backed (d.startedAt l.startedAt) l.state op
  | .restart _ _ => True

/-- What the backend reads of the texts the services write. -/
structure Wire (d : Config) : Prop where
  credit : ∀ user tokens, d.backend.unmarshal
    (d.controller.codec.encodeMessage (.transaction user tokens)) = some ⟨some ⟨user, tokens⟩⟩
  status : ∀ status reason request payload transaction, d.backend.unmarshal
    (d.controller.codec.encodeMessage (.status status reason request payload)) ≠
      some ⟨some transaction⟩
  debit : ∀ transaction, d.backend.unmarshal (d.backend.marshal ⟨some transaction⟩) =
    some ⟨some transaction⟩

/-- Nothing has been published and no request is under way. -/
structure Started (s : State) : Prop where
  relay : s.controller.relay = []
  delivered : s.delivered = []
  threads : s.threads = []

/-! ### Credits on their way -/

/-- The credit of an event of the controller. -/
def weight (d : Config) (u : String) (event : Event) : ℕ :=
  if event.pubkey = d.controller.controllerPubkey then (Backend.delta d.backend event u).toNat
  else 0

def underway (d : Config) (u : String) (s : State) : ℕ :=
  Delivery.outstanding (weight d u) s.controller.relay s.delivered

/-- A call that publishes no credit. -/
def NoCredit : Backend.Call → Prop
  | .publish transaction => transaction.tokens.toInt ≤ 0
  | _ => True

structure Sound (s : State) : Prop where
  threads : ∀ t ∈ s.threads, t.Forall NoCredit
  positions : ∀ k ∈ s.delivered, k < s.controller.relay.length

section Accounting

variable {d : Config} {s s' : State} {u : String}

theorem Started.sound (h : Started s) : Sound s := by
  constructor
  · rw [h.threads]
    simp
  · rw [h.delivered]
    simp

theorem Started.underway (h : Started s) : underway d u s = 0 := by
  rw [Deployment.underway, h.relay]
  rfl

theorem underway_append {new : List Event} (hs : Sound s)
    (hrelay : s'.controller.relay = s.controller.relay ++ new)
    (hdelivered : s'.delivered = s.delivered) :
    underway d u s' = underway d u s + (new.map (weight d u)).sum := by
  rw [underway, hrelay, hdelivered, Delivery.outstanding_append new hs.positions, underway]

theorem positions_append {new : List Event} (hs : Sound s)
    (hrelay : s'.controller.relay = s.controller.relay ++ new)
    (hdelivered : s'.delivered = s.delivered) :
    ∀ k ∈ s'.delivered, k < s'.controller.relay.length := by
  intro k hk
  rw [hrelay, List.length_append]
  rw [hdelivered] at hk
  exact Nat.lt_of_lt_of_le (hs.positions k hk) (Nat.le_add_right _ _)

/-! ### What the services publish -/

theorem weight_status (hwire : Wire d) {dest : String} {status : Controller.Status}
    {reason : Controller.StatusReason} {request : EventId} {payload : String} {stamp : Stamp} :
    weight d u (Controller.storedEvent d.controller dest (.status status reason request payload)
      stamp) = 0 := by
  have hread := hwire.status status reason request payload
  have hdelta : Backend.delta d.backend (Controller.storedEvent d.controller dest
      (.status status reason request payload) stamp) u = 0 := by
    unfold Backend.delta
    split
    · rename_i transaction hmessage
      exact absurd hmessage (hread transaction)
    · rfl
  rw [weight, hdelta]
  simp

theorem weight_credit (hwire : Wire d) {dest user : String} {tokens : Int64} {stamp : Stamp} :
    weight d u (Controller.storedEvent d.controller dest (.transaction user tokens) stamp) =
      if u = user then tokens.toInt.toNat else 0 := by
  have hauthor : (Controller.storedEvent d.controller dest (.transaction user tokens)
      stamp).pubkey = d.controller.controllerPubkey := rfl
  have hread : d.backend.unmarshal (Controller.storedEvent d.controller dest
      (.transaction user tokens) stamp).content = some ⟨some ⟨user, tokens⟩⟩ :=
    hwire.credit user tokens
  rw [weight, if_pos hauthor, Backend.delta_of_unmarshal hread]
  split_ifs <;> rfl

/-- The backend's own key may be the controller's: what it publishes is never a credit. -/
theorem weight_debit (hwire : Wire d) {transaction : Backend.Transaction} {stamp : Stamp}
    (hdebit : transaction.tokens.toInt ≤ 0) :
    weight d u (Backend.transactionEvent d.backend transaction stamp) = 0 := by
  have hread : d.backend.unmarshal (Backend.transactionEvent d.backend transaction stamp).content =
    some ⟨some transaction⟩ := hwire.debit transaction
  rw [weight, Backend.delta_of_unmarshal hread]
  split_ifs <;> omega

/-- The amount of a credit. -/
def creditAmount : ℕ := (Controller.payAmount.toInt64 * Controller.tokensLamportsRatio).toInt.toNat

theorem sum_filterMap_cons {α β : Type} (f : α → Option β) (w : β → ℕ) (a : α) (l : List α) :
    (((a :: l).filterMap f).map w).sum = (f a).elim 0 w + ((l.filterMap f).map w).sum := by
  cases h : f a <;> simp [h]

section Published

variable {machines : Controller.Machines} {event : Event} {toStatus : Controller.Status}
  {reason : Controller.StatusReason} {mention : String} {parsed : Controller.Payload}

theorem weight_published_status (hwire : Wire d) (answer : ∀ c, Controller.Call.Answer c) :
    (Controller.published d.controller answer (.sendEvent mention
      (Controller.chargedStatus d.controller event toStatus reason parsed))).elim 0 (weight d u) =
      0 := by
  rcases Controller.published_sendEvent d.controller answer mention
    (Controller.chargedStatus d.controller event toStatus reason parsed) with h | ⟨stamp, h⟩
  · rw [h, Option.elim_none]
  · rw [h, Option.elim_some]
    exact weight_status hwire

variable (mention parsed) in
theorem weight_published_credit (hwire : Wire d) (answer : ∀ c, Controller.Call.Answer c) :
    (Controller.published d.controller answer (.sendEvent mention
      (Controller.chargedCredit parsed))).elim 0 (weight d u) ≤
      if u = parsed.user then creditAmount else 0 := by
  rcases Controller.published_sendEvent d.controller answer mention
    (Controller.chargedCredit parsed) with h | ⟨stamp, h⟩
  · rw [h, Option.elim_none]
    exact Nat.zero_le _
  · rw [h, Option.elim_some]
    exact (weight_credit hwire).le

theorem weight_charge (hwire : Wire d) (answer : ∀ c, Controller.Call.Answer c) :
    ((((Controller.charge d.controller machines event toStatus reason mention parsed).calls
      answer).filterMap (Controller.published d.controller answer)).map (weight d u)).sum ≤
      if Controller.paid answer parsed = true ∧ u = parsed.user then creditAmount else 0 := by
  have hcredit := weight_published_credit (d := d) (u := u) mention parsed hwire answer
  rw [Controller.calls_charge, sum_filterMap_cons]
  cases hpaid : Controller.paid answer parsed with
  | false => simp [Controller.published]
  | true =>
      simp only [if_true, true_and]
      rw [sum_filterMap_cons, weight_published_status hwire]
      split
      · have hspawn (timer : Controller.Timer) :
            [Controller.Call.spawn timer].filterMap (Controller.published d.controller answer) =
              [] := rfl
        rw [sum_filterMap_cons]
        split
        · simpa [Controller.published, hspawn] using hcredit
        · simpa [Controller.published] using hcredit
      · simp [Controller.published]

theorem submitted_charge (answer : ∀ c, Controller.Call.Answer c)
    (submission : BalancePayment.Submission) :
    ((Controller.charge d.controller machines event toStatus reason mention parsed).calls
      answer).filterMap (submitted d submission) =
      (d.sdk.payOp submission parsed.user Controller.payAmount parsed.recoverInfo).toList := by
  have hspawn (timer : Controller.Timer) :
      [Controller.Call.spawn timer].filterMap (submitted d submission) = [] := rfl
  rw [Controller.calls_charge, List.filterMap_cons]
  split <;> split_ifs <;> simp_all [submitted]

end Published

/-! ### Steps -/

theorem paid_answers (submission : BalancePayment.Submission)
    (accounts : BalancePayment.Accounts) (answer : ∀ c, Controller.Call.Answer c)
    (parsed : Controller.Payload) :
    Controller.paid (answers d submission accounts answer) parsed =
      (d.sdk.pay d.runtime submission parsed.user Controller.payAmount parsed.recoverInfo
        accounts).1 := rfl

/-- A payment that went through moved the amount of a charge. -/
theorem total_lamports_of_paid {submission : BalancePayment.Submission}
    {answer : ∀ c, Controller.Call.Answer c} {parsed : Controller.Payload}
    (hpaid : Controller.paid (answers d submission s.accounts answer) parsed = true) :
    ∃ op key, d.sdk.payOp submission parsed.user Controller.payAmount parsed.recoverInfo = some op ∧
      d.sdk.parsePubkey parsed.user = some key ∧
      (BalancePayment.system d.runtime).total (lamports key) s.accounts [op] =
        Controller.payAmount.toNat := by
  rw [paid_answers] at hpaid
  obtain ⟨op, key, ctx, accounts, info, hop, hkey, hinvoke, huser, hstep⟩ :=
    BalancePayment.Sdk.pay_ok (Prod.ext hpaid rfl : d.sdk.pay d.runtime submission parsed.user
      Controller.payAmount parsed.recoverInfo s.accounts = (true, _))
  refine ⟨op, key, hop, hkey, ?_⟩
  rw [total_cons_of_step hstep, hinvoke, total, lamports, if_pos huser]
  rfl

theorem weight_deliver (hwire : Wire d) (s : State) (u : String) (event : Event)
    (submission : BalancePayment.Submission) (answer : ∀ c, Controller.Call.Answer c) :
    ((((Controller.handleEvent d.controller s.controller.machines event).calls
      (answers d submission s.accounts answer)).filterMap
        (Controller.published d.controller (answers d submission s.accounts answer))).map
          (weight d u)).sum ≤
      Controller.tokensLamportsRatio.toNatClampNeg *
        paid d u s (.deliver event submission answer) := by
  rcases Controller.handleEvent_cases d.controller s.controller.machines event with
    ⟨toStatus, reason, mention, parsed, hcharge⟩ | hnone
  · rw [paid, chainOps, hcharge, submitted_charge]
    apply (weight_charge hwire _).trans
    split_ifs with hcond
    · obtain ⟨hpaid, rfl⟩ := hcond
      obtain ⟨op, key, hop, hkey, htotal⟩ := total_lamports_of_paid hpaid
      rw [hkey, hop, Option.elim_some, Option.toList_some, htotal]
      decide
    · exact Nat.zero_le _
  · rw [hnone]
    exact Nat.zero_le _

/-! The requests of the backend publish no credits. -/

theorem noCredit_of_within {c : Backend.Call} (h : ∃ id, c.Within id fun _ => True) :
    NoCredit c := by
  obtain ⟨id, h⟩ := h
  cases c with
  | publish transaction => exact h.2
  | _ => trivial

theorem postMessages_noCredit (ctx : Backend.GinContext) :
    (Backend.postMessages d.backend ctx).Forall NoCredit :=
  (Backend.postMessages_within ctx).mono fun _ => noCredit_of_within

theorem backend_publishes (hwire : Wire d) (hs : Sound s) {op : Backend.Op}
    {b : Backend.State} (h : (Backend.system d.backend).step s.backend op = some b)
    (hpublish : op.isPublish = false)
    (hdeliver : ∀ position outcomes, op ≠ .deliver position outcomes) :
    ∃ new, b.relay = s.controller.relay ++ new ∧ b.delivered = s.delivered ∧
      (new.map (weight d u)).sum = 0 := by
  cases op with
  | publish event => cases hpublish
  | deliver position outcomes => exact absurd rfl (hdeliver position outcomes)
  | request ctx =>
      cases h
      exact ⟨[], (List.append_nil _).symm, rfl, rfl⟩
  | login userPubkey message signature =>
      cases h
      exact ⟨[], (List.append_nil _).symm, rfl, rfl⟩
  | createConversation ctx id =>
      obtain ⟨db, rfl, -⟩ := Backend.createConversation_done h
      exact ⟨[], (List.append_nil _).symm, rfl, rfl⟩
  | call thread outcome =>
      obtain ⟨c, next, hnext, rfl⟩ := Backend.call_done h
      have hcredit : NoCredit c := (Backend.next?_forall (s := s.backend) hs.threads hnext).1
      refine ⟨_, Backend.relay_respond d.backend outcome _ c, rfl, ?_⟩
      cases c with
      | publish transaction =>
          cases hstamp : outcome.stamp with
          | none => simp [Backend.published, hstamp]
          | some stamp => simp [Backend.published, hstamp, weight_debit hwire hcredit]
      | _ => rfl

theorem sound_step {op : Op} (hwire : Wire d) (hs : Sound s) (h : (system d).step s op = some s') :
    Sound s' := by
  cases op with
  | chain op =>
      obtain ⟨accounts, -, rfl⟩ := chain_done h
      exact ⟨hs.threads, hs.positions⟩
  | publish event =>
      obtain ⟨-, rfl⟩ := publish_done h
      exact ⟨hs.threads, positions_append hs rfl rfl⟩
  | deliver event submission answer =>
      obtain rfl := deliver_done h
      exact ⟨hs.threads, positions_append hs rfl rfl⟩
  | fire timer stamp =>
      obtain ⟨timers, rfl⟩ := fire_done h
      exact ⟨hs.threads, positions_append hs rfl rfl⟩
  | backend op =>
      obtain ⟨hpublish, b, hstep, rfl⟩ := backend_done h
      have hthreads : ∀ t ∈ b.threads, t.Forall NoCredit :=
        Backend.threads_step (s := s.backend) postMessages_noCredit
          (fun _ => Backend.login_forall _ _ _ _ trivial trivial fun _ => trivial) hs.threads hstep
      cases op with
      | deliver position outcomes =>
          obtain ⟨event, hevent, -, rfl⟩ := Backend.deliver_done hstep
          refine ⟨hthreads, fun k hk => ?_⟩
          show k < (Backend.heard d.backend event outcomes s.backend.toWorld).relay.length
          rw [Backend.heard_relay]
          rcases List.mem_cons.mp hk with rfl | hk
          · exact (List.getElem?_eq_some_iff.mp hevent).1
          · exact hs.positions k hk
      | _ =>
          obtain ⟨new, hrelay, hdelivered, -⟩ := backend_publishes (u := "") hwire hs hstep hpublish
            fun _ _ hop => by cases hop
          exact ⟨hthreads, positions_append hs hrelay hdelivered⟩

/-- What the listener credits is no more than what the event says. -/
theorem rise_heard (d : Config) (u : String) (event : Event)
    (outcomes : Backend.Call → Backend.Outcome) (w : Backend.World) :
    rise (Backend.balance w.db u)
        (Backend.balance (Backend.heard d.backend event outcomes w).db u) ≤
      (Backend.delta d.backend event u).toNat := by
  have hsame (tokens : Option ℤ) : rise tokens tokens = 0 := by
    cases tokens with
    | none => rfl
    | some tokens => simp [rise]
  rcases Backend.heard_balance d.backend event outcomes w u with h | h
  · rw [h, hsame]
    exact Nat.zero_le _
  · rw [h]
    cases Backend.balance w.db u with
    | none => exact Nat.zero_le _
    | some tokens => simp [rise]

/-- A credit that is the controller's and new was underway until now. -/
theorem backed_deliver {position : ℕ} {outcomes : Backend.Call → Backend.Outcome}
    (hbacked : Backed d s (.backend (.deliver position outcomes)))
    (h : (system d).step s (.backend (.deliver position outcomes)) = some s') :
    credited d u s (.backend (.deliver position outcomes)) + underway d u s' ≤ underway d u s := by
  rw [credited, next_of_step h]
  obtain ⟨-, b, hstep, rfl⟩ := backend_done h
  obtain ⟨event, hevent, -, rfl⟩ := Backend.deliver_done hstep
  have hrise := rise_heard d u event outcomes s.backend.toWorld
  have hrelay : (Backend.heard d.backend event outcomes s.backend.toWorld).relay =
      s.controller.relay := Backend.heard_relay d.backend event outcomes _
  show rise _ (Backend.balance (Backend.heard d.backend event outcomes s.backend.toWorld).db u) +
    Delivery.outstanding (weight d u) (Backend.heard d.backend event outcomes
      s.backend.toWorld).relay (position :: s.delivered) ≤ underway d u s
  rw [hrelay]
  apply (Nat.add_le_add_right hrise _).trans
  by_cases hagain : position ∈ s.delivered
  · have hnone : ¬ 0 < Backend.delta d.backend event u := fun hpos => (hbacked hevent hpos).2 hagain
    have hsame : Delivery.outstanding (weight d u) s.controller.relay (position :: s.delivered) =
        underway d u s := Delivery.outstanding_again hagain
    omega
  · have hfirst : Delivery.outstanding (weight d u) s.controller.relay (position :: s.delivered) +
        weight d u event = underway d u s := Delivery.outstanding_deliver hevent hagain
    by_cases hpos : 0 < Backend.delta d.backend event u
    · have hweight : weight d u event = (Backend.delta d.backend event u).toNat :=
        if_pos (hbacked hevent hpos).1
      omega
    · omega

theorem backed_step {op : Op} (hwire : Wire d) (hbacked : Backed d s op) (hs : Sound s)
    (h : (system d).step s op = some s') :
    credited d u s op + underway d u s' ≤
      Controller.tokensLamportsRatio.toNatClampNeg * paid d u s op + underway d u s := by
  cases op with
  | chain op =>
      obtain ⟨accounts, -, rfl⟩ := chain_done h
      exact (Nat.zero_add _).trans_le (Nat.le_add_left _ _)
  | publish event =>
      obtain ⟨hauthor, hs'⟩ := publish_done h
      have hrelay : s'.controller.relay = s.controller.relay ++ [event] := by rw [hs']
      have hnone : weight d u event = 0 := if_neg hauthor
      rw [underway_append hs hrelay (by rw [hs'])]
      simp [credited, hnone]
  | deliver event submission answer =>
      have hpaid := weight_deliver hwire s u event submission answer
      have hs' := deliver_done h
      rw [underway_append hs (congrArg (·.controller.relay) hs') (by rw [hs'])]
      show 0 + (underway d u s + _) ≤ _
      omega
  | fire timer stamp =>
      obtain ⟨timers, hs'⟩ := fire_done h
      rw [underway_append hs (congrArg (·.controller.relay) hs') (by rw [hs'])]
      cases stamp with
      | none => simp [credited]
      | some stamp =>
          have hnone : weight d u (Controller.storedEvent d.controller timer.mention
            (timer.message d.controller) stamp) = 0 := weight_status hwire
          simp [credited, hnone]
  | backend op =>
      cases op with
      | deliver position outcomes =>
          exact (backed_deliver hbacked h).trans (Nat.le_add_left _ _)
      | _ =>
          obtain ⟨hpublish, b, hstep, rfl⟩ := backend_done h
          obtain ⟨new, hrelay, hdelivered, hnone⟩ := backend_publishes (u := u) hwire hs hstep
            hpublish fun _ _ hop => by cases hop
          show 0 + underway d u (s.setBackend b) ≤ _
          rw [underway_append hs hrelay hdelivered, hnone]
          omega

theorem Wire.startedAt (hwire : Wire d) (time : UInt64) : Wire (d.startedAt time) :=
  ⟨hwire.credit, hwire.status, hwire.debit⟩

theorem sound_lives {l l' : Lives} {op : Lives.Op} (hwire : Wire d) (hs : Sound l.state)
    (h : (lives d).step l op = some l') : Sound l'.state := by
  cases op with
  | run op => exact sound_step (hwire.startedAt l.startedAt) hs (Lives.run_done h)
  | restart startedAt lastEvents =>
      obtain ⟨machines, rfl⟩ := Lives.restart_done h
      exact ⟨hs.threads, hs.positions⟩

/-- What is underway is on the relay, which outlives the controller. -/
theorem backed_lives {l l' : Lives} {op : Lives.Op} (hwire : Wire d)
    (hbacked : BackedInLife d l op) (hs : Sound l.state) (h : (lives d).step l op = some l') :
    amountInLife (credited · u) d l op + underway d u l'.state ≤
      Controller.tokensLamportsRatio.toNatClampNeg * amountInLife (paid · u) d l op +
        underway d u l.state := by
  cases op with
  | run op => exact backed_step (hwire.startedAt l.startedAt) hbacked hs (Lives.run_done h)
  | restart startedAt lastEvents =>
      obtain ⟨machines, rfl⟩ := Lives.restart_done h
      exact (Nat.zero_add _).trans_le (Nat.le_add_left _ _)

/-- When the listener hears credits of the controller only, and each of them once, the credits of a
user are at most the lamports its payments moved, at the controller's rate, however often the
controller is started again. -/
theorem credits_le_payments (hwire : Wire d) {l₀ : Lives} (h₀ : Started l₀.state)
    {ops : List Lives.Op} (hops : (lives d).Throughout (BackedInLife d) l₀ ops) (u : String) :
    (lives d).total (amountInLife (credited · u) d) l₀ ops ≤
      Controller.tokensLamportsRatio.toNatClampNeg *
        (lives d).total (amountInLife (paid · u) d) l₀ ops := by
  have hsound : (lives d).Throughout (fun l op => BackedInLife d l op ∧ Sound l.state) l₀ ops :=
    hops.and_invariant (fun _ hs h => sound_lives hwire hs h) h₀.sound
  have hstep : ∀ {l : Lives} {op : Lives.Op} {l' : Lives}, BackedInLife d l op ∧ Sound l.state →
      (lives d).step l op = some l' →
      amountInLife (credited · u) d l op + underway d u l'.state ≤
        Controller.tokensLamportsRatio.toNatClampNeg * amountInLife (paid · u) d l op +
          underway d u l.state := fun hop h => backed_lives hwire hop.1 hop.2 h
  have hle := hsound.total_le hstep
  rw [h₀.underway] at hle
  exact (Nat.le_add_right _ _).trans hle

end Accounting

/-! ### A credit that is paid for, and one that is not -/

namespace Sample

def cfg : Config where
  runtime := BalancePayment.Sample.runtime
  sdk := .serde BalancePayment.Sample.bot
  controller := Controller.Sample.cfg
  backend := Backend.Sample.cfg

theorem wire : Wire cfg := by
  have hread : cfg.backend.unmarshal = Backend.GoJson.unmarshal := rfl
  have hwrite : cfg.controller.codec = Controller.SerdeJson.codec := rfl
  refine ⟨fun user tokens => ?_, fun status reason request payload transaction => ?_,
    Backend.Sample.unmarshal_marshal⟩
  · rw [hread, hwrite]
    exact unmarshal_encodeMessage (.transaction user tokens)
  · rw [hread, hwrite, unmarshal_encodeMessage, goMessage]
    simp

/-- The program is configured, and the user's vault holds two charges. -/
def accounts : BalancePayment.Accounts where
  lamports a := if a = BalancePayment.vaultAddress BalancePayment.Sample.user then 10000000 else 0
  data a :=
    if a = BalancePayment.globalAddress then
      .global ⟨.key BalancePayment.Sample.authority, .key BalancePayment.Sample.bot,
        BalancePayment.Sample.treasury⟩
    else if a = BalancePayment.userAddress BalancePayment.Sample.user then
      .user ⟨0, 0, BalancePayment.vaultAddress BalancePayment.Sample.user⟩
    else .empty

/-- Everyone has a row without tokens. -/
def start : State := ⟨accounts, Controller.Sample.start, Backend.Sample.holding 0 [], [], []⟩

theorem started : Started start := ⟨rfl, rfl, rfl⟩

def user : String := BalancePayment.Sdk.keyText BalancePayment.Sample.user

def outcomes : Backend.Call → Backend.Outcome := fun _ => Backend.Sample.done

/-- A thousand tokens for the user, published under a key that is neither service's. -/
def forged : Event where
  id := Bytes.toLE 32 7
  pubkey := Vector.replicate 32 9
  createdAt := 1735000001
  kind := eventKind
  tags := [["s", Backend.Sample.cfg.session], ["p", Backend.Sample.cfg.machinePubkey]]
  content := Backend.Sample.cfg.marshal ⟨some ⟨user, 1000⟩⟩

def forgery : List Op := [.publish forged, .backend (.deliver 0 outcomes)]

def submission : BalancePayment.Submission := ⟨BalancePayment.Sample.treasury, 1735000000, true⟩

def firstLife (s : State) : Lives := ⟨Controller.Sample.cfg.startedAt, s⟩

/-- A request is published and charged, the controller is started again and hears of the credit, the
last it has published, and then the listener does. -/
def ops : List Lives.Op :=
  [.run (.publish (Controller.Sample.request 1 0)),
    .run (.deliver (Controller.Sample.request 1 0) submission (Controller.Sample.answer 10)),
    .restart 1735000100 [Controller.Sample.credit 0 11], .run (.backend (.deliver 2 outcomes))]

theorem step_backend (d : Config) (time : UInt64) (s : State) (op : Backend.Op) :
    (system (d.startedAt time)).step s (.backend op) = (system d).step s (.backend op) := rfl

/-! Listening to a credit. -/

section Steps

variable {s : State} {event : Event} {tokens : Int64} {position : ℕ}

theorem step_listen (hevent : s.controller.relay[position]? = some event)
    (haccepts : (Backend.subscription Backend.Sample.cfg).accepts event = true) :
    (system cfg).step s (.backend (.deliver position outcomes)) =
      some (s.setBackend ⟨Backend.heard Backend.Sample.cfg event outcomes s.backend.toWorld,
        s.threads, position :: s.delivered⟩) := by
  have hlistener : (Backend.system cfg.backend).step s.backend (.deliver position outcomes) =
      some ⟨Backend.heard Backend.Sample.cfg event outcomes s.backend.toWorld, s.threads,
        position :: s.delivered⟩ := Backend.deliver_accepted hevent haccepts
  show (do
    let b ← (Backend.system cfg.backend).step s.backend (.deliver position outcomes)
    return s.setBackend b) = _
  rw [hlistener]
  rfl

theorem credited_listen (hevent : s.controller.relay[position]? = some event)
    (haccepts : (Backend.subscription Backend.Sample.cfg).accepts event = true)
    (hread : Backend.Sample.cfg.unmarshal event.content = some ⟨some ⟨user, tokens⟩⟩)
    (hrow : s.db.users user = some ⟨0, 0⟩) (hpos : 0 ≤ tokens) :
    credited cfg user s (.backend (.deliver position outcomes)) = tokens.toInt.toNat := by
  have hconsumed : (if 0 ≤ tokens then 0 else -tokens).toInt = 0 := by
    rw [if_pos hpos]
    rfl
  have hrange : Backend.InBigint (0 + tokens.toInt) := by
    have hlow := tokens.le_toInt
    have hhigh := tokens.toInt_lt
    constructor <;> omega
  have hrange' : Backend.InBigint (0 + (if 0 ≤ tokens then 0 else -tokens).toInt) := by
    rw [hconsumed]
    decide
  have hup : ∀ c, (outcomes c).unavailable = false := fun _ => rfl
  have husers := Backend.heard_users (w := s.backend.toWorld) hread hup hrow hrange hrange'
  rw [credited, next_of_step (step_listen hevent haccepts)]
  show rise ((s.db.users user).map Backend.UserRow.tokens) (((Backend.heard Backend.Sample.cfg event
    outcomes s.backend.toWorld).db.users user).map Backend.UserRow.tokens) = _
  rw [hrow, husers]
  simp [rise]

theorem step_publish (hbackend : event.pubkey ≠ Backend.Sample.cfg.pubkey)
    (hcontroller : event.pubkey ≠ Controller.Sample.cfg.controllerPubkey) :
    (system cfg).step s (.publish event) = some { s with
      controller := { s.controller with relay := s.controller.relay ++ [event] } } := by
  have hstep : (Controller.system cfg.controller).step s.controller (.publish event) =
      some { s.controller with relay := s.controller.relay ++ [event] } := if_neg hcontroller
  show (if event.pubkey = Backend.Sample.cfg.pubkey then none else _) = _
  rw [if_neg hbackend, hstep]
  rfl

theorem foreign_key : Vector.replicate 32 9 ≠ Backend.Sample.cfg.pubkey ∧
    Vector.replicate 32 9 ≠ Controller.Sample.cfg.controllerPubkey := by decide

end Steps

theorem accepts_forged : (Backend.subscription Backend.Sample.cfg).accepts forged = true := by
  simp [Backend.subscription, Filter.accepts, Event.hasTag, forged, Backend.Sample.cfg]

theorem total_forgery (amount : Config → State → Op → ℕ) :
    (lives cfg).total (amountInLife amount cfg) (firstLife start) (forgery.map .run) =
      (system cfg).total (amount cfg) start forgery :=
  total_map (Lives.step_run cfg Controller.Sample.cfg.startedAt) start forgery

theorem credited_forgery : (lives cfg).total (amountInLife (credited · user) cfg)
    (firstLife start) (forgery.map .run) = 1000 := by
  rw [total_forgery, forgery, total_cons_of_step (step_publish foreign_key.1 foreign_key.2),
    total_cons_of_step (step_listen rfl accepts_forged),
    credited_listen rfl accepts_forged (Backend.Sample.unmarshal_marshal _) rfl (by decide)]
  rfl

theorem paid_forgery : (lives cfg).total (amountInLife (paid · user) cfg) (firstLife start)
    (forgery.map .run) = 0 := by
  rw [total_forgery, forgery, total_cons_of_step (step_publish foreign_key.1 foreign_key.2),
    total_cons_of_step (step_listen rfl accepts_forged)]
  rfl

/-! The payment. -/

def payOp : BalancePayment.Op :=
  .invoke ⟨[BalancePayment.Sample.bot], 1735000000⟩ (.pay
    ⟨BalancePayment.globalAddress, BalancePayment.userAddress BalancePayment.Sample.user,
      BalancePayment.Sample.user, BalancePayment.Sample.treasury,
      BalancePayment.vaultAddress BalancePayment.Sample.user, BalancePayment.Sample.bot,
      BalancePayment.Sample.bot⟩
    BalancePayment.Sample.first Controller.payAmount)

theorem payOp_eq : cfg.sdk.payOp submission (Controller.Sample.payload 0).user Controller.payAmount
    (Controller.Sample.payload 0).recoverInfo = some payOp := by
  have hkey : cfg.sdk.parsePubkey (Controller.Sample.payload 0).user =
      some BalancePayment.Sample.user := BalancePayment.Sdk.parsePubkey_keyText _ _
  have hinfo : cfg.sdk.parseRecoverInfo (Controller.Sample.payload 0).recoverInfo =
      some BalancePayment.Sample.first := BalancePayment.Sdk.parseRecoverInfo_recoverInfoText _ _
  rw [BalancePayment.Sdk.payOp, BalancePayment.Sdk.payInstruction, hkey, hinfo]
  rfl

theorem pay_runs :
    ((BalancePayment.system cfg.runtime).step accounts payOp).isSome = true := by
  decide +kernel

/-- The first request, published. -/
def requested : State :=
  let posted := Controller.Sample.state Controller.Sample.idle [Controller.Sample.request 1 0] []
  ⟨accounts, posted, Backend.Sample.holding 0 [], [], []⟩

def answers : ∀ c, Controller.Call.Answer c :=
  Deployment.answers cfg submission accounts (Controller.Sample.answer 10)

theorem paid_first : Controller.paid answers (Controller.Sample.payload 0) = true := by
  obtain ⟨after, hafter⟩ := Option.isSome_iff_exists.mp pay_runs
  rw [answers, paid_answers, BalancePayment.Sdk.pay, payOp_eq]
  dsimp only
  rw [hafter]
  rfl

theorem step_requested : (system cfg).step start (.publish (Controller.Sample.request 1 0)) =
    some requested := by
  have hstart : start.controller = Controller.Sample.state Controller.Sample.idle [] [] :=
    Controller.Sample.start_eq
  rw [step_publish foreign_key.1 foreign_key.2, hstart]
  rfl

theorem relay_charged : (Controller.onEvent Controller.Sample.cfg requested.controller
    (Controller.Sample.request 1 0) answers).relay =
      [Controller.Sample.request 1 0, Controller.Sample.working 1 0 10,
        Controller.Sample.credit 0 11] := by
  have hcharge : Controller.handleEvent Controller.Sample.cfg requested.controller.machines
      (Controller.Sample.request 1 0) = _ := Controller.Sample.handleEvent_request rfl
  show [Controller.Sample.request 1 0] ++ _ = _
  rw [hcharge, Controller.calls_charge, if_pos paid_first]
  rfl

/-- The request, charged. -/
def charged : State where
  accounts := (BalancePayment.system cfg.runtime).run accounts
    (chainOps cfg requested (.deliver (Controller.Sample.request 1 0) submission
      (Controller.Sample.answer 10)))
  controller := Controller.onEvent Controller.Sample.cfg requested.controller
    (Controller.Sample.request 1 0) answers
  db := Backend.Sample.holding 0 []
  threads := []
  delivered := []

theorem step_charged : (system cfg).step requested
    (.deliver (Controller.Sample.request 1 0) submission (Controller.Sample.answer 10)) =
      some charged :=
  deliver_accepted rfl List.mem_cons_self Controller.Sample.accepts_request

theorem relay_two : charged.controller.relay[2]? = some (Controller.Sample.credit 0 11) := by
  rw [charged, relay_charged]
  rfl

theorem accepts_credit :
    (Backend.subscription Backend.Sample.cfg).accepts (Controller.Sample.credit 0 11) = true := by
  have hmention : Controller.Sample.machine.toHex = Backend.Sample.cfg.machinePubkey := by
    decide +kernel
  simp [Backend.subscription, Filter.accepts, Event.hasTag, Controller.Sample.credit,
    Controller.storedEvent, Event.posted, hmention, Backend.Sample.cfg, Controller.Sample.cfg,
    Controller.Sample.stamp]

theorem lives_requested : (lives cfg).step (firstLife start)
    (.run (.publish (Controller.Sample.request 1 0))) = some (firstLife requested) :=
  (Lives.step_run _ _ _ _).trans (congrArg (Option.map _) step_requested)

theorem lives_charged : (lives cfg).step (firstLife requested)
    (.run (.deliver (Controller.Sample.request 1 0) submission (Controller.Sample.answer 10))) =
      some (firstLife charged) :=
  (Lives.step_run _ _ _ _).trans (congrArg (Option.map _) step_charged)

/-- The controller is started again, with all machines available. -/
def restarted (s : State) : State :=
  { s with controller :=
      ⟨Controller.initialMachines Controller.Sample.cfg, s.controller.relay, [], false⟩ }

theorem restarted_relay (s : State) : (restarted s).controller.relay = s.controller.relay := rfl

theorem restarted_db (s : State) : (restarted s).db = s.db := rfl

theorem relay_restarted :
    (restarted charged).controller.relay[2]? = some (Controller.Sample.credit 0 11) := by
  rw [restarted_relay]
  exact relay_two

theorem fetched_charged : ∀ event ∈ [Controller.Sample.credit 0 11],
    event ∈ charged.controller.relay ∧
      ∃ key ∈ (cfg.startedAt 1735000100).controller.machinePubkeys,
        (Controller.lastEvent (cfg.startedAt 1735000100).controller key).accepts event = true := by
  intro event hevent
  obtain rfl := List.mem_singleton.mp hevent
  refine ⟨List.mem_of_getElem? relay_two, Controller.Sample.machine, List.mem_singleton_self _, ?_⟩
  simp [Controller.lastEvent, Filter.accepts, Event.hasTag, Controller.Sample.credit,
    Controller.storedEvent, Event.posted, Controller.Sample.stamp, Config.startedAt, cfg,
    Controller.Sample.cfg]

theorem startUp_startedAt (d : Config) (time : UInt64) (lastEvents : List Event) :
    Controller.startUp (d.startedAt time).controller lastEvents =
      Controller.startUp d.controller lastEvents := rfl

/-- The credit says nothing of the machine. -/
theorem startUp_charged : Controller.startUp (cfg.startedAt 1735000100).controller
    [Controller.Sample.credit 0 11] = .ok (Controller.initialMachines Controller.Sample.cfg) := by
  have hmention : extractMention (Controller.Sample.credit 0 11) =
      some Controller.Sample.machine.toHex := rfl
  have hparse := Controller.Sample.parse_machine
  have hmachine : Controller.initialMachines Controller.Sample.cfg Controller.Sample.machine =
      some ⟨.available, none⟩ := by
    simp [Controller.initialMachines, Controller.Sample.cfg]
  have hmessage : Controller.Sample.cfg.codec.decodeMessage
      (Controller.Sample.credit 0 11).content = some (.transaction
        (Controller.Sample.payload 0).user
        (Controller.payAmount.toInt64 * Controller.tokensLamportsRatio)) :=
    Controller.Sample.decodeMessage_encodeMessage _
  have hupdate : Controller.updateMachine Controller.Sample.cfg
      (Controller.initialMachines Controller.Sample.cfg) (Controller.Sample.credit 0 11) =
        .ok (Controller.initialMachines Controller.Sample.cfg) := by
    simp only [Controller.updateMachine, hmention, hparse, hmachine, hmessage]
  have hcontroller : cfg.controller = Controller.Sample.cfg := rfl
  rw [startUp_startedAt, hcontroller, Controller.startUp, List.foldlM_cons, hupdate]
  rfl

theorem restart_of_startUp {s : State} {startedAt : UInt64} {lastEvents : List Event}
    (hfetched : ∀ event ∈ lastEvents, event ∈ s.controller.relay ∧
      ∃ key ∈ (cfg.startedAt startedAt).controller.machinePubkeys,
        (Controller.lastEvent (cfg.startedAt startedAt).controller key).accepts event = true)
    (hstartUp : Controller.startUp (cfg.startedAt startedAt).controller lastEvents =
      .ok (Controller.initialMachines Controller.Sample.cfg)) :
    (lives cfg).step (firstLife s) (.restart startedAt lastEvents) =
      some ⟨startedAt, restarted s⟩ := by
  have hfetched' : ∀ event ∈ lastEvents, event ∈ (firstLife s).state.controller.relay ∧
      ∃ key ∈ (cfg.startedAt startedAt).controller.machinePubkeys,
        (Controller.lastEvent (cfg.startedAt startedAt).controller key).accepts event = true :=
    hfetched
  simp only [lives, if_pos hfetched', hstartUp]
  rfl

theorem lives_restarted : (lives cfg).step (firstLife charged)
    (.restart 1735000100 [Controller.Sample.credit 0 11]) =
      some ⟨1735000100, restarted charged⟩ :=
  restart_of_startUp fetched_charged startUp_charged

theorem lives_listen : ∃ heard, (lives cfg).step ⟨1735000100, restarted charged⟩
    (.run (.backend (.deliver 2 outcomes))) = some ⟨1735000100, heard⟩ := by
  rw [Lives.step_run, step_backend, step_listen relay_restarted accepts_credit, Option.map_some]
  exact ⟨_, rfl⟩

theorem credited_ops :
    (lives cfg).total (amountInLife (credited · user) cfg) (firstLife start) ops = 5000000 := by
  have hread : Backend.Sample.cfg.unmarshal (Controller.Sample.credit 0 11).content =
      some ⟨some ⟨user, Controller.payAmount.toInt64 * Controller.tokensLamportsRatio⟩⟩ :=
    wire.credit _ _
  have hrow : (restarted charged).db.users user = some ⟨0, 0⟩ := by
    rw [restarted_db]
    rfl
  have hcredited := credited_listen relay_restarted accepts_credit hread hrow (by decide)
  have hamount : (Controller.payAmount.toInt64 * Controller.tokensLamportsRatio).toInt.toNat =
      5000000 := by decide
  have hpublish (l : Lives) (event : Event) :
      amountInLife (credited · user) cfg l (.run (.publish event)) = 0 := rfl
  have hdeliver (l : Lives) (event : Event) (submission : BalancePayment.Submission)
      (answer : ∀ c, Controller.Call.Answer c) :
      amountInLife (credited · user) cfg l (.run (.deliver event submission answer)) = 0 := rfl
  have hrestart (l : Lives) (startedAt : UInt64) (lastEvents : List Event) :
      amountInLife (credited · user) cfg l (.restart startedAt lastEvents) = 0 := rfl
  have hlistened (time : UInt64) (s : State) (op : Backend.Op) :
      amountInLife (credited · user) cfg ⟨time, s⟩ (.run (.backend op)) =
        credited cfg user s (.backend op) := rfl
  obtain ⟨heard, hlisten⟩ := lives_listen
  rw [ops, total_cons_of_step lives_requested, total_cons_of_step lives_charged,
    total_cons_of_step lives_restarted, total_cons_of_step hlisten, hlistened, hcredited,
    hamount, hpublish, hdeliver, hrestart, total]

theorem backed_ops : (lives cfg).Throughout (BackedInLife cfg) (firstLife start) ops := by
  obtain ⟨heard, hlisten⟩ := lives_listen
  rw [ops, throughout_cons_of_step lives_requested, throughout_cons_of_step lives_charged,
    throughout_cons_of_step lives_restarted, throughout_cons_of_step hlisten]
  refine ⟨trivial, trivial, trivial, fun {event u} hevent _ => ?_, trivial⟩
  obtain rfl := Option.some.inj (relay_restarted.symm.trans hevent)
  exact ⟨rfl, List.not_mem_nil⟩

end Sample

/-- Whoever publishes a Transaction event with the two tags is credited by it. -/
theorem forged_credit : Started Sample.start ∧
    ¬ (lives Sample.cfg).total (amountInLife (credited · Sample.user) Sample.cfg)
        (Sample.firstLife Sample.start) (Sample.forgery.map .run) ≤
      Controller.tokensLamportsRatio.toNatClampNeg *
        (lives Sample.cfg).total (amountInLife (paid · Sample.user) Sample.cfg)
          (Sample.firstLife Sample.start) (Sample.forgery.map .run) := by
  refine ⟨Sample.started, ?_⟩
  rw [Sample.credited_forgery, Sample.paid_forgery]
  decide

theorem credits_le_payments_sample : 5000000 ≤ Controller.tokensLamportsRatio.toNatClampNeg *
    (lives Sample.cfg).total (amountInLife (paid · Sample.user) Sample.cfg)
      (Sample.firstLife Sample.start) Sample.ops := by
  have hle := credits_le_payments Sample.wire Sample.started Sample.backed_ops Sample.user
  rwa [Sample.credited_ops] at hle

end DsProxy.Deployment
