import DsProxy.Backend.Ownership
import DsProxy.Backend.Run
import DsProxy.Lib.Delivery

/-!
# The balance of a user

The balance is compared with one when a request starts, and reduced when the listener hears of the
debit, by the whole usage. Between the two it covers what is owed exactly as long as every debit is
covered, when it is published, by the balance less the debits that are still on their way.
-/

namespace DsProxy.Backend

open Relay Runs System

/-! ### What is owed -/

/-- What an event takes from the tokens of a user when the listener hears it. -/
def debitOf (cfg : Config) (u : String) (event : Event) : ℕ :=
  if (subscription cfg).accepts event = true then (-delta cfg event u).toNat else 0

/-- The debits of a user that are on the relay and not yet delivered. -/
def owed (cfg : Config) (s : State) (u : String) : ℕ :=
  Delivery.outstanding (debitOf cfg u) s.relay s.delivered

/-- The balance of a user pays for an amount on top of what is owed. -/
def Covers (cfg : Config) (s : State) (u : String) (amount : ℤ) : Prop :=
  ∀ {tokens}, balance s.db u = some tokens → owed cfg s u + amount ≤ tokens

/-- No debit is published or delivered again that the balance does not cover. -/
def Funded (cfg : Config) (s : State) : Op → Prop
  | .call thread outcome => ∀ {transaction},
      s.pending? thread = some (.publish transaction) → outcome.stamp.isSome = true →
      Covers cfg s transaction.user (-transaction.tokens.toInt)
  | .deliver position _ => ∀ {event}, s.relay[position]? = some event → position ∈ s.delivered →
      ∀ u, Covers cfg s u (debitOf cfg u event)
  | _ => True

/-- Requests, listener deliveries and credits: nobody logs in or publishes debits of their own. -/
def Op.Ordinary (cfg : Config) : Op → Prop
  | .login _ _ _ => False
  | .publish event => ∀ u, debitOf cfg u event = 0
  | _ => True

/-- Nothing has been published and no row is negative. -/
structure Fresh (s : State) : Prop where
  threads : s.threads = []
  relay : s.relay = []
  delivered : s.delivered = []
  nonneg : ∀ {u tokens}, balance s.db u = some tokens → 0 ≤ tokens

structure Solvent (cfg : Config) (s : State) : Prop where
  threads : ∀ t ∈ s.threads, t.Forall fun c => ∃ id, c.Within id fun _ => True
  positions : ∀ k ∈ s.delivered, k < s.relay.length
  covered : ∀ u, Covers cfg s u 0

section Steps

variable {cfg : Config} {s s' : State} {op : Op} {u : String}

theorem Fresh.solvent (h : Fresh s) : Solvent cfg s := by
  refine ⟨?_, ?_, fun u tokens htokens => ?_⟩
  · rw [h.threads]
    simp
  · rw [h.delivered]
    simp
  · have hnone : owed cfg s u = 0 := by
      rw [owed, h.relay]
      rfl
    have hnonneg := h.nonneg htokens
    omega

theorem Solvent.nonneg (h : Solvent cfg s) {tokens : ℤ} (htokens : balance s.db u = some tokens) :
    0 ≤ tokens := by
  have hcovered := h.covered u htokens
  omega

/-! ### Steps -/

theorem debitOf_transactionEvent {transaction : Transaction} {stamp : Stamp}
    (hwire : cfg.unmarshal (cfg.marshal ⟨some transaction⟩) = some ⟨some transaction⟩) :
    debitOf cfg u (transactionEvent cfg transaction stamp) ≤
      if u = transaction.user then (-transaction.tokens.toInt).toNat else 0 := by
  have hread : cfg.unmarshal (transactionEvent cfg transaction stamp).content =
    some ⟨some transaction⟩ := hwire
  rw [debitOf, delta_of_unmarshal hread]
  split_ifs <;> simp

theorem solvent_call {thread : ℕ} {outcome : Outcome}
    (hwire : ∀ transaction, cfg.unmarshal (cfg.marshal ⟨some transaction⟩) =
      some ⟨some transaction⟩)
    (hfunded : Funded cfg s (.call thread outcome)) (hs : Solvent cfg s)
    (h : (system cfg).step s (.call thread outcome) = some s') : Solvent cfg s' := by
  have hthreads := threads_step postMessages_within (fun hop => by cases hop) hs.threads h
  obtain ⟨c, next, hnext, rfl⟩ := call_done h
  obtain ⟨id, hwithin⟩ := (next?_forall hs.threads hnext).1
  have hbalance : balance (respond cfg outcome c s.toWorld).2.db = balance s.db := by
    funext u
    rw [balance, balance, users_respond_within hwithin]
  have hrelay := relay_respond cfg outcome s.toWorld c
  refine ⟨hthreads, fun k hk => ?_, fun u tokens htokens => ?_⟩
  · show k < (respond cfg outcome c s.toWorld).2.relay.length
    rw [hrelay, List.length_append]
    exact Nat.lt_of_lt_of_le (hs.positions k hk) (Nat.le_add_right _ _)
  · have hbefore : balance s.db u = some tokens := hbalance ▸ htokens
    have hsum : Delivery.outstanding (debitOf cfg u) (respond cfg outcome c s.toWorld).2.relay
        s.delivered = owed cfg s u +
          ((published cfg outcome c).toList.map (debitOf cfg u)).sum := by
      rw [hrelay, Delivery.outstanding_append _ hs.positions]
      rfl
    have hcovered := hs.covered u hbefore
    show ((Delivery.outstanding (debitOf cfg u) (respond cfg outcome c s.toWorld).2.relay
      s.delivered : ℕ) : ℤ) + 0 ≤ tokens
    rw [hsum]
    cases hevent : published cfg outcome c with
    | none => simpa using hcovered
    | some event =>
        cases c with
        | publish transaction =>
            obtain ⟨stamp, hstamp, rfl⟩ := Option.map_eq_some_iff.mp hevent
            have hle : debitOf cfg u (transactionEvent cfg transaction stamp) ≤ _ :=
              debitOf_transactionEvent (hwire transaction)
            by_cases hu : u = transaction.user
            · have hpending : s.pending? thread = some (.publish transaction) := by
                rw [State.pending?, hnext, Option.map_some]
              have hpaid := hfunded hpending (by rw [hstamp, Option.isSome_some]) (hu ▸ hbefore)
              rw [if_pos hu] at hle
              subst hu
              simp
              omega
            · rw [if_neg hu] at hle
              simp
              omega
        | _ => cases hevent

theorem solvent_deliver {position : ℕ} {outcomes : Call → Outcome}
    (hfunded : Funded cfg s (.deliver position outcomes)) (hs : Solvent cfg s)
    (h : (system cfg).step s (.deliver position outcomes) = some s') : Solvent cfg s' := by
  have hthreads := threads_step postMessages_within (fun hop => by cases hop) hs.threads h
  obtain ⟨event, hevent, haccepts, rfl⟩ := deliver_done h
  have hrelay := heard_relay cfg event outcomes s.toWorld
  refine ⟨hthreads, fun k hk => ?_, fun u tokens htokens => ?_⟩
  · show k < (heard cfg event outcomes s.toWorld).relay.length
    rw [hrelay]
    rcases List.mem_cons.mp hk with rfl | hk
    · exact (List.getElem?_eq_some_iff.mp hevent).1
    · exact hs.positions k hk
  · have hdebit : debitOf cfg u event = (-delta cfg event u).toNat := if_pos haccepts
    show ((Delivery.outstanding (debitOf cfg u) (heard cfg event outcomes s.toWorld).relay
      (position :: s.delivered) : ℕ) : ℤ) + 0 ≤ tokens
    rw [hrelay]
    obtain ⟨before, hbefore, hsum⟩ : ∃ before, balance s.db u = some before ∧
        before - debitOf cfg u event ≤ tokens := by
      rcases heard_balance cfg event outcomes s.toWorld u with hb | hb
      · exact ⟨tokens, hb ▸ htokens, by omega⟩
      · obtain ⟨before, hbefore, hadd⟩ := Option.map_eq_some_iff.mp (hb.symm.trans htokens)
        exact ⟨before, hbefore, by omega⟩
    by_cases hagain : position ∈ s.delivered
    · have hcovered := hfunded hevent hagain u hbefore
      rw [Delivery.outstanding_again hagain]
      show (owed cfg s u : ℤ) + 0 ≤ tokens
      omega
    · have hcovered := hs.covered u hbefore
      have howed : Delivery.outstanding (debitOf cfg u) s.relay (position :: s.delivered) +
          debitOf cfg u event = owed cfg s u := Delivery.outstanding_deliver hevent hagain
      omega

theorem solvent_step (hwire : ∀ transaction, cfg.unmarshal (cfg.marshal ⟨some transaction⟩) =
      some ⟨some transaction⟩)
    (hop : op.Ordinary cfg ∧ Funded cfg s op) (hs : Solvent cfg s)
    (h : (system cfg).step s op = some s') : Solvent cfg s' := by
  cases op with
  | login userPubkey message signature => exact hop.1.elim
  | call thread outcome => exact solvent_call hwire hop.2 hs h
  | deliver position outcomes => exact solvent_deliver hop.2 hs h
  | request ctx =>
      have hthreads := threads_step postMessages_within (fun hop => by cases hop) hs.threads h
      cases h
      exact ⟨hthreads, hs.positions, hs.covered⟩
  | createConversation ctx id =>
      obtain ⟨db, rfl, husers⟩ := createConversation_done h
      have hbalance : balance db = balance s.db := by
        funext u
        rw [balance, balance, husers]
      exact ⟨hs.threads, hs.positions, fun u tokens htokens => hs.covered u (hbalance ▸ htokens)⟩
  | publish event =>
      obtain ⟨-, rfl⟩ := publish_done h
      refine ⟨hs.threads, fun k hk => ?_, fun u tokens htokens => ?_⟩
      · show k < (s.relay ++ [event]).length
        rw [List.length_append]
        exact Nat.lt_of_lt_of_le (hs.positions k hk) (Nat.le_add_right _ _)
      · have hsum : Delivery.outstanding (debitOf cfg u) (s.relay ++ [event]) s.delivered =
            owed cfg s u + debitOf cfg u event := Delivery.outstanding_concat event hs.positions
        have hcovered := hs.covered u htokens
        have hnone := hop.1 u
        show ((Delivery.outstanding (debitOf cfg u) (s.relay ++ [event]) s.delivered : ℕ) : ℤ) + 0 ≤
          tokens
        rw [hsum, hnone]
        exact hcovered

/-- As long as every debit is covered when it is published, no balance is ever negative. -/
theorem tokens_nonneg (hwire : ∀ transaction, cfg.unmarshal (cfg.marshal ⟨some transaction⟩) =
      some ⟨some transaction⟩)
    {s₀ : State} (h₀ : Fresh s₀) {ops : List Op}
    (hops : (system cfg).Throughout (fun s op => op.Ordinary cfg ∧ Funded cfg s op) s₀ ops)
    (n : ℕ) {row : UserRow} (hrow : ((system cfg).run s₀ (ops.take n)).db.users u = some row) :
    0 ≤ row.tokens := by
  have hsolvent : Solvent cfg ((system cfg).run s₀ (ops.take n)) :=
    (hops.take n).invariant (solvent_step hwire) h₀.solvent
  exact hsolvent.nonneg (u := u) (by rw [balance, hrow, Option.map_some])

end Steps

/-! ### A request of eleven tokens -/

/-- The chat service keeps to the limit it was sent, and its usage adds up. -/
def Honest (cfg : Config) (s : State) : Op → Prop
  | .call thread outcome => ∀ {request upstream usage},
      s.pending? thread = some (.createChatCompletionStream request) →
      outcome.upstream = some upstream →
      finalUsage (responses cfg.decodeChunk upstream.lines) = some usage →
      usage.totalTokens.toNat = usage.promptTokens.toNat + usage.completionTokens.toNat ∧
        usage.completionTokens ≤ request.maxTokens
  | _ => True

section Pending

variable {cfg : Config} {s : State}

theorem funded_of_pending {c : Call} {outcome : Outcome} (hpending : s.pending? 0 = some c)
    (hc : ∀ transaction, c ≠ .publish transaction) :
    (Op.call 0 outcome).Ordinary cfg ∧ Funded cfg s (.call 0 outcome) :=
  ⟨trivial, fun h => absurd (Option.some.inj (hpending.symm.trans h)) (hc _)⟩

theorem honest_of_pending {c : Call} {outcome : Outcome} (hpending : s.pending? 0 = some c)
    (hc : ∀ request, c ≠ .createChatCompletionStream request) :
    (Op.call 0 outcome).Ordinary cfg ∧ Honest cfg s (.call 0 outcome) :=
  ⟨trivial, fun h => absurd (Option.some.inj (hpending.symm.trans h)) (hc _)⟩

end Pending

/-- A line with a chunk on it: an object is not the end marker. -/
theorem responses_print {v : Json} {response : StreamChatCompletionResponse}
    (h : GoJson.toChunk v = some response) (rest : List String) :
    responses GoJson.decodeChunk (("data: " ++ v.print) :: rest) =
      response :: responses GoJson.decodeChunk rest := by
  have hdone : v.print ≠ "[DONE]" := by
    intro hprint
    cases v with
    | obj members =>
        obtain ⟨inner, hwrite⟩ := Json.write_obj members
        have hlist := congrArg String.toList hprint
        rw [Json.print, String.toList_ofList, hwrite] at hlist
        cases hlist
    | _ => cases h
  rw [responses_data, if_neg hdone, GoJson.decodeChunk, Json.parse_print, Option.bind_some, h]
  rfl

namespace Sample

/-- Ten tokens of prompt and one of completion. -/
def usage : Usage := ⟨10, 1, 11⟩

def chunk : Json := Json.object [("choices", .arr (Json.Items.ofList [])),
  ("usage", Json.object [("prompt_tokens", .num 10), ("completion_tokens", .num 1),
    ("total_tokens", .num 11)])]

def upstream : Upstream := ⟨["data: " ++ chunk.print, "data: [DONE]"], false⟩

def received : List StreamChatCompletionResponse := [⟨[], some usage⟩]

theorem responses_upstream : responses cfg.decodeChunk upstream.lines = received := by
  have hchunk : GoJson.toChunk chunk = some ⟨[], some usage⟩ := rfl
  exact responses_print hchunk ["data: [DONE]"]

/-- Everyone has as many tokens, and every conversation is the user's. -/
def holding (tokens : ℤ) (messages : List Message) : Db where
  users _ := some ⟨tokens, 0⟩
  conversations _ := some ⟨userPubkey, 0⟩
  messages := messages
  transactionEvents := []

def start (tokens : ℤ) : State := ⟨⟨holding tokens [], []⟩, [], []⟩

def done : Outcome := ⟨false, none, none, 0, 0⟩
def answered : Outcome := ⟨false, some upstream, none, 0, 0⟩
def published : Outcome := ⟨false, none, some ⟨Vector.replicate 32 5, 1735000000⟩, 0, 0⟩

/-- One request, call by call, and the delivery of its debit. -/
def ops : List Op :=
  [.request ctx, .call 0 done, .call 0 done, .call 0 done, .call 0 answered, .call 0 done,
    .call 0 done, .call 0 published, .deliver 0 fun _ => done]

/-! The request, from the call it is about to make. -/

def conversation : Conversation := ⟨convoID, userPubkey, 0⟩
def user (tokens : ℤ) : User := ⟨userPubkey, UInt64.ofNat tokens.toNat, 0⟩

def asking : Async (Except Failure Message) := addMessageAndCallChat cfg convoID "deepseek-r1" "hi"

def reading : Async (Except Failure Message) :=
  attempt (getConversationByID convoID) fun conversation =>
  attempt (getUserByPublicKey conversation.userPubkey) fun user =>
  callChat cfg convoID "deepseek-r1" "hi" [] conversation user

def charging : Async (Except Failure Message) :=
  attempt (getUserByPublicKey userPubkey) fun user =>
  callChat cfg convoID "deepseek-r1" "hi" [] conversation user

def chatRequest (tokens : ℤ) : ChatCompletionRequest :=
  Backend.chatRequest cfg "deepseek-r1" "hi" [] conversation (user tokens)

def chatting (tokens : ℤ) : Async (Except Failure Message) :=
  callChat cfg convoID "deepseek-r1" "hi" [] conversation (user tokens)

def saving (tokens : ℤ) : Async (Except Failure Message) :=
  saveAndPublish convoID "hi" conversation (user tokens) received

def updating (answer : Message) : Async (Except Failure Message) := do
  let total := conversation.totalTokens + usage.totalTokens.toUInt64
  let _ ← updateTotalTokens convoID total
  return .ok answer

def publishing (answer : Message) : Async (Except Failure Message) := do
  let _ ← publishTransactionEvent userPubkey (debit usage)
  updating answer

def answering : Async (Except Failure Message) :=
  attempt (createMessage convoID "assistant" (fullResponse received)) publishing

def asked : Message := ⟨0, convoID, "user", "hi", 0⟩
def answer : Message := ⟨0, convoID, "assistant", "", 0⟩

def debitEvent : Event :=
  transactionEvent cfg ⟨userPubkey, debit usage⟩ ⟨Vector.replicate 32 5, 1735000000⟩

def state (tokens : ℤ) (messages : List Message) (relay : List Event)
    (request : Async (Except Failure Message)) : State :=
  ⟨⟨holding tokens messages, relay⟩, [do let _ ← request], []⟩

section Steps

variable {tokens : ℤ} {P : State → Op → Prop}

theorem step_call {c : Call} {next : Call.Answer c → Async Unit} {w w' : World}
    {a : Call.Answer c} {outcome : Outcome} (h : respond cfg outcome c w = (a, w')) :
    (system cfg).step ⟨w, [.call c next], []⟩ (.call 0 outcome) = some ⟨w', [next a], []⟩ := by
  have hstep : (system cfg).step ⟨w, [.call c next], []⟩ (.call 0 outcome) =
    some ⟨(respond cfg outcome c w).2, [next (respond cfg outcome c w).1], []⟩ := rfl
  rw [hstep, h]

theorem step_request : (system cfg).step (start tokens) (.request ctx) =
    some (state tokens [] [] asking) := by
  rw [asking, ← postMessages_ctx]
  rfl

theorem step_asking : (system cfg).step (state tokens [] [] asking) (.call 0 done) =
    some (state tokens [] [] reading) := rfl

theorem step_reading : (system cfg).step (state tokens [] [] reading) (.call 0 done) =
    some (state tokens [] [] charging) := rfl

theorem step_charging (hnonneg : 0 ≤ tokens) :
    (system cfg).step (state tokens [] [] charging) (.call 0 done) =
      some (state tokens [] [] (chatting tokens)) := by
  have huser : (holding tokens []).getUserByPublicKey userPubkey = .ok (user tokens) := by
    show (do
      let value ← scanUint64 tokens
      let consumed ← scanUint64 0
      return (⟨userPubkey, value, consumed⟩ : User)) = _
    rw [scanUint64, if_pos hnonneg]
    rfl
  have hrespond : respond cfg done (.getUserByPublicKey userPubkey) ⟨holding tokens [], []⟩ =
      ((.ok (user tokens) : Except DbError User), ⟨holding tokens [], []⟩) := by
    rw [respond, huser]
    rfl
  exact step_call hrespond

/-- The lines stay a variable here: nothing may evaluate them. -/
theorem step_chat (hsome : ¬ (user tokens).tokens < 1) (lines : List String) :
    (system cfg).step (state tokens [] [] (chatting tokens))
        (.call 0 ⟨false, some ⟨lines, false⟩, none, 0, 0⟩) =
      some (state tokens [] [] (do
        streamAll (streamed (responses cfg.decodeChunk lines))
        saveAndPublish convoID "hi" conversation (user tokens)
          (responses cfg.decodeChunk lines))) := by
  have hroom : ¬ remainingContextTokens cfg conversation < 1 := by decide
  rw [chatting, callChat, if_neg hroom, if_neg hsome]
  rfl

theorem step_chatting (hsome : ¬ (user tokens).tokens < 1) :
    (system cfg).step (state tokens [] [] (chatting tokens)) (.call 0 answered) =
      some (state tokens [] [] (saving tokens)) := by
  have hlines : responses cfg.decodeChunk upstream.lines = received := responses_upstream
  have hstep := step_chat hsome upstream.lines
  rw [hlines] at hstep
  exact hstep

theorem step_saving : (system cfg).step (state tokens [] [] (saving tokens)) (.call 0 done) =
    some (state tokens [asked] [] answering) := rfl

theorem step_answering : (system cfg).step (state tokens [asked] [] answering) (.call 0 done) =
    some (state tokens [asked, answer] [] (publishing answer)) := rfl

theorem step_publishing :
    (system cfg).step (state tokens [asked, answer] [] (publishing answer)) (.call 0 published) =
      some (state tokens [asked, answer] [debitEvent] (updating answer)) := rfl

theorem accepts_debitEvent : (subscription cfg).accepts debitEvent = true := by
  simp [subscription, Filter.accepts, Event.hasTag, debitEvent, transactionEvent, Event.posted, cfg]

theorem step_deliver :
    (system cfg).step (state tokens [asked, answer] [debitEvent] (updating answer))
        (.deliver 0 fun _ => done) =
      some ⟨heard cfg debitEvent (fun _ => done) ⟨holding tokens [asked, answer], [debitEvent]⟩,
        [do let _ ← updating answer], [0]⟩ :=
  deliver_accepted rfl accepts_debitEvent

theorem unmarshal_debitEvent :
    cfg.unmarshal debitEvent.content = some ⟨some ⟨userPubkey, debit usage⟩⟩ := by
  have hcontent : debitEvent.content = cfg.marshal ⟨some ⟨userPubkey, debit usage⟩⟩ := rfl
  rw [hcontent, unmarshal_marshal]

theorem users_heard {w : World} (hrow : w.db.users userPubkey = some ⟨tokens, 0⟩)
    (hrange : InBigint (tokens - 11)) :
    (heard cfg debitEvent (fun _ => done) w).db.users userPubkey = some ⟨tokens - 11, 11⟩ := by
  have hdebit : (debit usage).toInt = -11 := by
    rw [debit_toInt]
    rfl
  have hconsumed : (if 0 ≤ debit usage then 0 else -debit usage).toInt = 11 := by decide
  have hrange' : InBigint (tokens + (debit usage).toInt) := by rwa [hdebit]
  refine (heard_users unmarshal_debitEvent (fun _ => rfl) hrow hrange' ?_).trans ?_
  · rw [hconsumed]
    show InBigint 11
    decide
  · rw [hdebit, hconsumed]
    rfl

theorem throughout_ops (hnonneg : 0 ≤ tokens) (hsome : ¬ (user tokens).tokens < 1) :
    (system cfg).Throughout P (start tokens) ops ↔
      P (start tokens) (.request ctx) ∧ P (state tokens [] [] asking) (.call 0 done) ∧
      P (state tokens [] [] reading) (.call 0 done) ∧
      P (state tokens [] [] charging) (.call 0 done) ∧
      P (state tokens [] [] (chatting tokens)) (.call 0 answered) ∧
      P (state tokens [] [] (saving tokens)) (.call 0 done) ∧
      P (state tokens [asked] [] answering) (.call 0 done) ∧
      P (state tokens [asked, answer] [] (publishing answer)) (.call 0 published) ∧
      P (state tokens [asked, answer] [debitEvent] (updating answer))
      (.deliver 0 fun _ => done) := by
  rw [ops, throughout_cons_of_step step_request, throughout_cons_of_step step_asking,
    throughout_cons_of_step step_reading, throughout_cons_of_step (step_charging hnonneg),
    throughout_cons_of_step (step_chatting hsome), throughout_cons_of_step step_saving,
    throughout_cons_of_step step_answering, throughout_cons_of_step step_publishing,
    throughout_cons_of_step step_deliver]
  simp only [Throughout, and_true]

theorem run_ops (hnonneg : 0 ≤ tokens) (hsome : ¬ (user tokens).tokens < 1)
    (hrange : InBigint (tokens - 11)) :
    ((system cfg).run (start tokens) ops).db.users userPubkey = some ⟨tokens - 11, 11⟩ := by
  rw [ops, run_cons_of_step step_request, run_cons_of_step step_asking,
    run_cons_of_step step_reading, run_cons_of_step (step_charging hnonneg),
    run_cons_of_step (step_chatting hsome), run_cons_of_step step_saving,
    run_cons_of_step step_answering, run_cons_of_step step_publishing,
    run_cons_of_step step_deliver, run_nil]
  exact users_heard rfl hrange

end Steps

end Sample

theorem fresh_start {tokens : ℤ} (h : 0 ≤ tokens) : Fresh (Sample.start tokens) := by
  refine ⟨rfl, rfl, rfl, fun {u held} hheld => ?_⟩
  have hsame : some tokens = some held := hheld
  exact Option.some.inj hsame ▸ h

/-- A user with one token asks a question: the limit sent is one, the usage is eleven, and the
balance after the debit is minus ten. -/
theorem overdrawn : Fresh (Sample.start 1) ∧
    (system Sample.cfg).Throughout (fun s op => op.Ordinary Sample.cfg ∧ Honest Sample.cfg s op)
      (Sample.start 1) Sample.ops ∧
    ((system Sample.cfg).run (Sample.start 1) Sample.ops).db.users Sample.userPubkey =
      some ⟨-10, 11⟩ := by
  refine ⟨fresh_start (by decide), ?_, Sample.run_ops (by decide) (by decide) (by decide)⟩
  rw [Sample.throughout_ops (by decide) (by decide)]
  refine ⟨⟨trivial, trivial⟩, honest_of_pending rfl ?_, honest_of_pending rfl ?_,
    honest_of_pending rfl ?_, ⟨trivial, ?_⟩, honest_of_pending rfl ?_, honest_of_pending rfl ?_,
    honest_of_pending rfl ?_, trivial, trivial⟩
  rotate_left 3
  · intro request upstream usage hpending hupstream husage
    cases hupstream
    rw [Sample.responses_upstream] at husage
    cases husage
    have hrequest : Sample.chatRequest 1 = request := Call.createChatCompletionStream.inj
      (Option.some.inj hpending)
    rw [← hrequest]
    exact ⟨rfl, by decide⟩
  all_goals
    intro request h
    cases h

/-- A user with a hundred tokens pays for the same question. -/
theorem tokens_nonneg_sample :
    ((system Sample.cfg).run (Sample.start 100) Sample.ops).db.users Sample.userPubkey =
      some ⟨89, 11⟩ ∧ 0 ≤ (⟨89, 11⟩ : UserRow).tokens := by
  have hrow := Sample.run_ops (by decide : (0 : ℤ) ≤ 100) (by decide) (by decide)
  have hall : Sample.ops.take 9 = Sample.ops := rfl
  have hend : ((system Sample.cfg).run (Sample.start 100) (Sample.ops.take 9)).db.users
      Sample.userPubkey = some ⟨89, 11⟩ := hall.symm ▸ hrow
  refine ⟨hrow, tokens_nonneg Sample.unmarshal_marshal (fresh_start (by decide)) ?_ 9 hend⟩
  rw [Sample.throughout_ops (by decide) (by decide)]
  refine ⟨⟨trivial, trivial⟩, funded_of_pending rfl ?_, funded_of_pending rfl ?_,
    funded_of_pending rfl ?_, funded_of_pending rfl ?_, funded_of_pending rfl ?_,
    funded_of_pending rfl ?_, ⟨trivial, ?_⟩, trivial, ?_⟩
  rotate_left 6
  · intro transaction hpending hstored held hheld
    have hnext : some (Call.publish ⟨Sample.userPubkey, debit Sample.usage⟩) =
        some (.publish transaction) := hpending
    have hheld : some (100 : ℤ) = some held := hheld
    rw [← Call.publish.inj (Option.some.inj hnext), ← Option.some.inj hheld, debit_toInt]
    decide
  · intro event hevent hagain
    cases hagain
  all_goals
    intro transaction h
    cases h

end DsProxy.Backend
