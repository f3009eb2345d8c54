import DsProxy.Backend.Balance

/-!
# One run of `AddMessageAndCallChat`

A request on its own, against any database, with any failures: what it leaves behind when it returns
an error, and what it has done about the usage when it returns the answer.
-/

namespace DsProxy.Backend

open Relay

/-- A run to its end, in which the environment contributes an outcome to each call. -/
def run {α : Type} (cfg : Config) (outcome : Call → Outcome) (p : Async α) (w : World) :
    α × World :=
  p.exec (fun c => respond cfg (outcome c) c) w

section Run

variable {α β : Type} {cfg : Config} {outcome : Call → Outcome} {w : World}

theorem run_bind {p : Async α} {f : α → Async β} {a : α} {w' : World}
    (h : run cfg outcome p w = (a, w')) :
    run cfg outcome (p >>= f) w = run cfg outcome (f a) w' := by
  rw [run] at h
  rw [run, Program.exec_bind, h]
  rfl

theorem run_perform (c : Call) (w : World) : run cfg outcome (Program.perform c) w =
    ((respond cfg (outcome c) c w).1, (respond cfg (outcome c) c w).2) := rfl

theorem run_attempt_error {query : Async (Except DbError α)} {next : α → Async (Except Failure β)}
    {e : DbError} {w' : World} (h : run cfg outcome query w = (.error e, w')) :
    run cfg outcome (attempt query next) w = (.error (.db e), w') :=
  run_bind h

theorem run_attempt_ok {query : Async (Except DbError α)} {next : α → Async (Except Failure β)}
    {a : α} {w' : World} (h : run cfg outcome query w = (.ok a, w')) :
    run cfg outcome (attempt query next) w = run cfg outcome (next a) w' :=
  run_bind h

theorem read_of_up {outcome' : Outcome} {result : Except DbError α}
    (hup : outcome'.unavailable = false) : outcome'.read result w = (result, w) := by
  rw [Outcome.read, if_neg (by simp [hup])]

/-- A query that only reads ends a run with its error or goes on in the same world. -/
theorem run_attempt_read {query : Async (Except DbError α)} {next : α → Async (Except Failure β)}
    {outcome' : Outcome} {result : Except DbError α}
    (h : run cfg outcome query w = outcome'.read result w) :
    (∃ e, run cfg outcome (attempt query next) w = (.error (.db e), w)) ∨
      ∃ a, outcome'.unavailable = false ∧ result = .ok a ∧
        run cfg outcome (attempt query next) w = run cfg outcome (next a) w := by
  cases hdown : outcome'.unavailable with
  | true =>
      rw [Outcome.read, if_pos hdown] at h
      exact Or.inl ⟨_, run_attempt_error h⟩
  | false =>
      rw [read_of_up hdown] at h
      cases result with
      | error e => exact Or.inl ⟨e, run_attempt_error h⟩
      | ok a => exact Or.inr ⟨a, rfl, rfl, run_attempt_ok h⟩

theorem run_streamAll (contents : List String) :
    run cfg outcome (streamAll contents) w = ((), w) := by
  induction contents with
  | nil => rfl
  | cons content rest ih => exact ih

end Run

/-! ### Up to the insert of the question -/

section Asked

variable (cfg : Config) (outcome : Call → Outcome) (w : World) (id : UUID) (model content : String)

/-- The request that goes out for a conversation and its owner. -/
def requestFor (conversation : Conversation) (user : User) : ChatCompletionRequest :=
  chatRequest cfg model content (w.db.getMessagesByConversationID id) conversation user

/-- The three reads succeed, the two checks pass and the stream comes to its end. -/
structure Answered (conversation : Conversation) (user : User)
    (received : List StreamChatCompletionResponse) : Prop where
  history : (outcome (.getMessagesByConversationID id)).unavailable = false
  reached : (outcome (.getConversationByID id)).unavailable = false
  conversation_eq : w.db.getConversationByID id = .ok conversation
  owned : (outcome (.getUserByPublicKey conversation.userPubkey)).unavailable = false
  user_eq : w.db.getUserByPublicKey conversation.userPubkey = .ok user
  room : ¬ remainingContextTokens cfg conversation < 1
  funded : ¬ user.tokens < 1
  complete : ∃ lines, received = responses cfg.decodeChunk lines ∧
    (outcome (.createChatCompletionStream
      (requestFor cfg w id model content conversation user))).upstream = some ⟨lines, false⟩

/-- The stream reports a usage, and the question is stored. -/
structure Asked (conversation : Conversation) (user : User)
    (received : List StreamChatCompletionResponse) (usage : Usage) : Prop
    extends Answered cfg outcome w id model content conversation user received where
  usage_eq : finalUsage received = some usage
  valid : usage.totalTokens ≠ 0
  stored : (outcome (.createMessage id "user" content)).unavailable = false

/-- The message an insert stores. -/
def insertion (role text : String) : Message :=
  let created := outcome (.createMessage id role text)
  ⟨created.messageID, id, role, text, created.now⟩

def World.insert (w : World) (message : Message) : World :=
  { w with db := { w.db with messages := w.db.messages ++ [message] } }

variable {cfg outcome w id model content} {conversation conversation' : Conversation}
  {user user' : User} {received received' : List StreamChatCompletionResponse} {usage : Usage}

theorem Answered.unique (h : Answered cfg outcome w id model content conversation user received)
    (h' : Answered cfg outcome w id model content conversation' user' received') :
    conversation' = conversation ∧ user' = user ∧ received' = received := by
  obtain rfl := Except.ok.inj (h'.conversation_eq.symm.trans h.conversation_eq)
  obtain rfl := Except.ok.inj (h'.user_eq.symm.trans h.user_eq)
  obtain ⟨lines, rfl, hlines⟩ := h.complete
  obtain ⟨lines', rfl, hlines'⟩ := h'.complete
  have hsame := Option.some.inj (hlines'.symm.trans hlines)
  exact ⟨rfl, rfl, congrArg _ (congrArg Upstream.lines hsame)⟩

theorem run_createChatCompletionStream {request : ChatCompletionRequest}
    {upstream : Option Upstream}
    (h : (outcome (.createChatCompletionStream request)).upstream = upstream) :
    run cfg outcome (createChatCompletionStream request) w = (upstream, w) := by
  rw [← h]
  rfl

section Chat

variable {messages : List Message} (hroom : ¬ remainingContextTokens cfg conversation < 1)
  (hfunded : ¬ user.tokens < 1)
include hroom hfunded

theorem run_callChat_none (hstream : (outcome (.createChatCompletionStream
      (chatRequest cfg model content messages conversation user))).upstream = none) :
    run cfg outcome (callChat cfg id model content messages conversation user) w =
      (.error .chat, w) := by
  rw [callChat, if_neg hroom, if_neg hfunded]
  exact run_bind (run_createChatCompletionStream hstream)

theorem run_callChat_some {upstream : Upstream} (hstream : (outcome (.createChatCompletionStream
      (chatRequest cfg model content messages conversation user))).upstream = some upstream) :
    run cfg outcome (callChat cfg id model content messages conversation user) w =
      if upstream.failed = true then (.error .chat, w)
      else run cfg outcome (saveAndPublish id content conversation user
        (responses cfg.decodeChunk upstream.lines)) w := by
  rw [callChat, if_neg hroom, if_neg hfunded]
  apply (run_bind (run_createChatCompletionStream hstream)).trans
  apply (run_bind (run_streamAll _)).trans
  split_ifs <;> rfl

end Chat

section Reads

variable (h : Answered cfg outcome w id model content conversation user received)
include h

theorem Answered.run_history : run cfg outcome (getMessagesByConversationID id) w =
    (.ok (w.db.getMessagesByConversationID id), w) := read_of_up h.history

theorem Answered.run_conversation :
    run cfg outcome (getConversationByID id) w = (.ok conversation, w) := by
  rw [← h.conversation_eq]
  exact read_of_up h.reached

theorem Answered.run_user :
    run cfg outcome (getUserByPublicKey conversation.userPubkey) w = (.ok user, w) := by
  rw [← h.user_eq]
  exact read_of_up h.owned

theorem Answered.run_eq : run cfg outcome (addMessageAndCallChat cfg id model content) w =
    run cfg outcome (saveAndPublish id content conversation user received) w := by
  obtain ⟨lines, rfl, hlines⟩ := h.complete
  rw [addMessageAndCallChat, run_attempt_ok h.run_history, run_attempt_ok h.run_conversation,
    run_attempt_ok h.run_user, run_callChat_some h.room h.funded hlines]
  exact if_neg Bool.false_ne_true

end Reads

theorem run_callChat_refused_or {messages : List Message} :
    (∃ e, e ≠ .panic ∧
      run cfg outcome (callChat cfg id model content messages conversation user) w =
        (.error e, w)) ∨
      ¬ remainingContextTokens cfg conversation < 1 ∧ ¬ user.tokens < 1 ∧ ∃ lines,
        (outcome (.createChatCompletionStream
          (chatRequest cfg model content messages conversation user))).upstream =
            some ⟨lines, false⟩ := by
  by_cases hroom : remainingContextTokens cfg conversation < 1
  · rw [callChat, if_pos hroom]
    exact Or.inl ⟨.text "conversation context limit exceeded", by decide, rfl⟩
  by_cases hfunded : user.tokens < 1
  · rw [callChat, if_neg hroom, if_pos hfunded]
    exact Or.inl ⟨.text "insufficient tokens", by decide, rfl⟩
  cases hstream : (outcome (.createChatCompletionStream
      (chatRequest cfg model content messages conversation user))).upstream with
  | none => exact Or.inl ⟨.chat, by decide, run_callChat_none hroom hfunded hstream⟩
  | some upstream =>
      obtain ⟨lines, failed⟩ := upstream
      cases failed with
      | true =>
          refine Or.inl ⟨.chat, by decide, ?_⟩
          rw [run_callChat_some hroom hfunded hstream]
          exact if_pos rfl
      | false => exact Or.inr ⟨hroom, hfunded, lines, rfl⟩

/-- The request is refused without a panic, or its stream comes to its end. -/
theorem refused_or_answered :
    (∃ e, e ≠ .panic ∧
      run cfg outcome (addMessageAndCallChat cfg id model content) w = (.error e, w)) ∨
    ∃ conversation user lines,
      Answered cfg outcome w id model content conversation user (responses cfg.decodeChunk lines) ∧
        (outcome (.createChatCompletionStream
          (requestFor cfg w id model content conversation user))).upstream =
            some ⟨lines, false⟩ := by
  rcases run_attempt_read (rfl : run cfg outcome (getMessagesByConversationID id) w =
      (outcome (.getMessagesByConversationID id)).read _ w) with
    ⟨e, he⟩ | ⟨messages, hhistory, hmessages, hrun⟩
  · exact Or.inl ⟨_, Failure.noConfusion, he⟩
  obtain rfl := Except.ok.inj hmessages
  rcases run_attempt_read (rfl : run cfg outcome (getConversationByID id) w =
      (outcome (.getConversationByID id)).read _ w) with
    ⟨e, he⟩ | ⟨conversation, hreached, hconversation, hrun'⟩
  · exact Or.inl ⟨_, Failure.noConfusion, hrun.trans he⟩
  rcases run_attempt_read (rfl : run cfg outcome (getUserByPublicKey conversation.userPubkey) w =
      (outcome (.getUserByPublicKey conversation.userPubkey)).read _ w) with
    ⟨e, he⟩ | ⟨user, howned, huser, hrun''⟩
  · exact Or.inl ⟨_, Failure.noConfusion, hrun.trans (hrun'.trans he)⟩
  rw [addMessageAndCallChat, hrun.trans (hrun'.trans hrun'')]
  rcases run_callChat_refused_or with hrefused | ⟨hroom, hfunded, lines, hstream⟩
  · exact Or.inl hrefused
  · exact Or.inr ⟨conversation, user, lines, ⟨hhistory, hreached, hconversation, howned, huser,
      hroom, hfunded, lines, rfl, hstream⟩, hstream⟩

theorem run_save_error (hnone : ∀ usage, finalUsage received = some usage → usage.totalTokens = 0) :
    ∃ e, run cfg outcome (saveAndPublish id content conversation user received) w =
      (.error e, w) := by
  unfold saveAndPublish
  cases husage : finalUsage received with
  | none => exact ⟨_, rfl⟩
  | some usage =>
      dsimp only
      rw [if_pos (hnone usage husage)]
      exact ⟨_, rfl⟩

/-- What follows the insert of the question. -/
def saveAnswer (id : UUID) (conversation : Conversation) (user : User)
    (received : List StreamChatCompletionResponse) (usage : Usage) :
    Async (Except Failure Message) :=
  attempt (createMessage id "assistant" (fullResponse received)) fun answer => do
    let _ ← publishTransactionEvent user.publicKey (debit usage)
    let _ ← updateTotalTokens id (conversation.totalTokens + usage.totalTokens.toUInt64)
    return .ok answer

theorem saveAndPublish_eq (husage : finalUsage received = some usage)
    (hvalid : usage.totalTokens ≠ 0) :
    saveAndPublish id content conversation user received =
      attempt (createMessage id "user" content) fun _ =>
        saveAnswer id conversation user received usage := by
  unfold saveAndPublish
  rw [husage]
  exact if_neg hvalid

theorem run_createMessage_up {role text : String}
    (hup : (outcome (.createMessage id role text)).unavailable = false) :
    run cfg outcome (createMessage id role text) w =
      (.ok (insertion outcome id role text), w.insert (insertion outcome id role text)) := by
  have hwrite : run cfg outcome (createMessage id role text) w =
      if (outcome (.createMessage id role text)).unavailable = true then (.error .unavailable, w)
      else (.ok (insertion outcome id role text), w.insert (insertion outcome id role text)) := rfl
  rw [hwrite, if_neg (by simp [hup])]

theorem run_createMessage_down {role text : String}
    (hdown : (outcome (.createMessage id role text)).unavailable = true) :
    run cfg outcome (createMessage id role text) w = (.error .unavailable, w) :=
  if_pos hdown

/-- Before the question is stored, nothing but an error is left behind. -/
theorem run_cases :
    (∃ e, run cfg outcome (addMessageAndCallChat cfg id model content) w = (.error e, w)) ∨
      ∃ conversation user received usage,
        Asked cfg outcome w id model content conversation user received usage := by
  rcases refused_or_answered with ⟨e, -, he⟩ | ⟨conversation, user, lines, hanswered, -⟩
  · exact Or.inl ⟨e, he⟩
  by_cases hnone : ∀ usage,
      finalUsage (responses cfg.decodeChunk lines) = some usage → usage.totalTokens = 0
  · rw [hanswered.run_eq]
    exact Or.inl (run_save_error hnone)
  push Not at hnone
  obtain ⟨usage, husage, hvalid⟩ := hnone
  cases hstored : (outcome (.createMessage id "user" content)).unavailable with
  | true =>
      rw [hanswered.run_eq, saveAndPublish_eq husage hvalid]
      exact Or.inl ⟨_, run_attempt_error (run_createMessage_down hstored)⟩
  | false => exact Or.inr ⟨_, _, _, _, hanswered, husage, hvalid, hstored⟩

theorem Asked.run_eq (h : Asked cfg outcome w id model content conversation user received usage) :
    run cfg outcome (addMessageAndCallChat cfg id model content) w =
      run cfg outcome (saveAnswer id conversation user received usage)
        (w.insert (insertion outcome id "user" content)) := by
  rw [h.toAnswered.run_eq, saveAndPublish_eq h.usage_eq h.valid,
    run_attempt_ok (run_createMessage_up h.stored)]

theorem Asked.run_torn (h : Asked cfg outcome w id model content conversation user received usage)
    (hdown : (outcome (.createMessage id "assistant" (fullResponse received))).unavailable = true) :
    run cfg outcome (addMessageAndCallChat cfg id model content) w =
      (.error (.db .unavailable), w.insert (insertion outcome id "user" content)) := by
  rw [h.run_eq, saveAnswer, run_attempt_error (run_createMessage_down hdown)]

/-- The world a saved answer leaves before its usage is billed. -/
def World.saved (w : World) (outcome : Call → Outcome) (id : UUID) (content : String)
    (received : List StreamChatCompletionResponse) : World :=
  (w.insert (insertion outcome id "user" content)).insert
    (insertion outcome id "assistant" (fullResponse received))

/-- The publication and the update, both with their results dropped. -/
def World.billed (w : World) (cfg : Config) (outcome : Call → Outcome) (id : UUID)
    (conversation : Conversation) (user : User) (usage : Usage) : World :=
  let publish := Call.publish ⟨user.publicKey, debit usage⟩
  let update := Call.updateTotalTokens id (conversation.totalTokens + usage.totalTokens.toUInt64)
  (respond cfg (outcome update) update (respond cfg (outcome publish) publish w).2).2

theorem run_billed (answer : Message) : run cfg outcome (do
      let _ ← publishTransactionEvent user.publicKey (debit usage)
      let _ ← updateTotalTokens id (conversation.totalTokens + usage.totalTokens.toUInt64)
      return .ok answer) w =
    ((.ok answer : Except Failure Message), w.billed cfg outcome id conversation user usage) :=
  (run_bind (run_perform _ w)).trans (run_bind (run_perform _ _))

theorem Asked.run_saved (h : Asked cfg outcome w id model content conversation user received usage)
    (hup : (outcome (.createMessage id "assistant" (fullResponse received))).unavailable = false) :
    run cfg outcome (addMessageAndCallChat cfg id model content) w =
      (.ok (insertion outcome id "assistant" (fullResponse received)),
        (w.saved outcome id content received).billed cfg outcome id conversation user usage) := by
  rw [h.run_eq, saveAnswer, run_attempt_ok (run_createMessage_up hup), run_billed]
  rfl

end Asked

/-! ### All or nothing -/

section Torn

variable (cfg : Config) (outcome : Call → Outcome) (w : World) (id : UUID) (model content : String)

/-- An error leaves the messages of the conversation and its total as they were. -/
def AllOrNothing : Prop :=
  let result := run cfg outcome (addMessageAndCallChat cfg id model content) w
  ∀ e, result.1 = .error e →
    result.2.db.getMessagesByConversationID id = w.db.getMessagesByConversationID id ∧
      result.2.db.conversations id = w.db.conversations id

/-- The question is stored, and the insert of the answer fails. -/
def Torn : Prop :=
  ∃ conversation user received usage,
    Asked cfg outcome w id model content conversation user received usage ∧
      (outcome (.createMessage id "assistant" (fullResponse received))).unavailable = true

theorem length_getMessages_insert (message : Message) (id : UUID)
    (h : message.conversationID = id) :
    ((w.insert message).db.getMessagesByConversationID id).length =
      (w.db.getMessagesByConversationID id).length + 1 := by
  simp [World.insert, Db.getMessagesByConversationID, List.length_insertionSort,
    List.filter_append, h]

variable {cfg outcome w id model content} in
theorem Torn.not_allOrNothing (h : Torn cfg outcome w id model content) :
    ¬ AllOrNothing cfg outcome w id model content := by
  intro hkept
  obtain ⟨conversation, user, received, usage, hasked, hdown⟩ := h
  have hrun := hasked.run_torn hdown
  have hmessages := (hkept _ (congrArg Prod.fst hrun)).1
  rw [hrun] at hmessages
  dsimp only at hmessages
  have hlength := length_getMessages_insert w (insertion outcome id "user" content) id rfl
  have hsame := congrArg List.length hmessages
  omega

/-- A question without an answer is the one thing an error can leave behind. -/
theorem all_or_nothing_iff : AllOrNothing cfg outcome w id model content ↔
    ¬ Torn cfg outcome w id model content := by
  constructor
  · intro hkept htorn
    exact htorn.not_allOrNothing hkept
  · intro hwhole e herror
    rcases run_cases with ⟨e', hrun⟩ | ⟨conversation, user, received, usage, hasked⟩
    · rw [hrun]
      exact ⟨rfl, rfl⟩
    · have hup : (outcome (.createMessage id "assistant" (fullResponse received))).unavailable =
          false := by
        apply Bool.eq_false_of_not_eq_true
        intro hdown
        exact hwhole ⟨_, _, _, _, hasked, hdown⟩
      rw [hasked.run_saved hup] at herror
      cases herror

end Torn

namespace Sample

/-- The chat service answers, and the database unless `down` says otherwise. -/
def outcomes (down : Call → Bool) : Call → Outcome
  | .createChatCompletionStream _ => answered
  | c => ⟨down c, none, none, 0, 0⟩

/-- Answers cannot be stored. -/
def unanswerable : Call → Bool
  | .createMessage _ role _ => role = "assistant"
  | _ => false

theorem user_holding : (holding 500 []).getUserByPublicKey userPubkey = .ok (user 500) := rfl

theorem asked_of_up {down : Call → Bool}
    (hhistory : down (.getMessagesByConversationID convoID) = false)
    (hreached : down (.getConversationByID convoID) = false)
    (howned : down (.getUserByPublicKey userPubkey) = false)
    (hstored : down (.createMessage convoID "user" "hi") = false) :
    Asked cfg (outcomes down) ⟨holding 500 [], []⟩ convoID "deepseek-r1" "hi" conversation
      (user 500) received usage where
  history := hhistory
  reached := hreached
  conversation_eq := rfl
  owned := howned
  user_eq := user_holding
  room := by decide
  funded := by decide
  complete := ⟨upstream.lines, responses_upstream.symm, rfl⟩
  usage_eq := rfl
  valid := by decide
  stored := hstored

theorem question_left : ¬ AllOrNothing cfg (outcomes unanswerable) ⟨holding 500 [], []⟩ convoID
    "deepseek-r1" "hi" :=
  Torn.not_allOrNothing ⟨_, _, _, _, asked_of_up rfl rfl rfl rfl, rfl⟩

end Sample

/-! ### Every answer is billed -/

section Billed

variable (cfg : Config) (outcome : Call → Outcome) (w : World) (id : UUID) (model content : String)

/-- The usage the chat service reported to the request. -/
def Reported (usage : Usage) : Prop :=
  ∃ conversation user received,
    Answered cfg outcome w id model content conversation user received ∧
      finalUsage received = some usage

/-- The relay has got a debit of the owner, and the total is as much higher. -/
def Billed (usage : Usage) (w' : World) : Prop :=
  ∃ row, w.db.conversations id = some row ∧
    (∃ transaction stamp, transaction.user = row.userPubkey ∧
      transaction.tokens.toInt = -(usage.totalTokens.toNat : ℤ) ∧
      w'.relay = w.relay ++ [transactionEvent cfg transaction stamp]) ∧
    w'.db.conversations id =
      some { row with totalTokens := row.totalTokens + usage.totalTokens.toNat }

/-- A returned message means a billed usage. -/
def AnswersBilled : Prop :=
  let result := run cfg outcome (addMessageAndCallChat cfg id model content) w
  ∀ message, result.1 = .ok message →
    ∃ usage, Reported cfg outcome w id model content usage ∧ Billed cfg w id usage result.2

/-- Both messages are stored, and the relay refuses the event, or the update of the total fails: the
database does not answer, or the new total is no `bigint`. -/
def Unbilled : Prop :=
  ∃ conversation user received usage,
    Asked cfg outcome w id model content conversation user received usage ∧
      (outcome (.createMessage id "assistant" (fullResponse received))).unavailable = false ∧
      ((outcome (.publish ⟨user.publicKey, debit usage⟩)).stamp = none ∨
        (outcome (.updateTotalTokens id
          (conversation.totalTokens + usage.totalTokens.toUInt64))).unavailable = true ∨
        ∃ row, w.db.conversations id = some row ∧
          ¬ InBigint (row.totalTokens + usage.totalTokens.toNat))

variable {cfg outcome w id model content} {conversation : Conversation} {user : User}
  {usage : Usage}

theorem relay_billed :
    (w.billed cfg outcome id conversation user usage).relay = w.relay ++
      ((outcome (.publish ⟨user.publicKey, debit usage⟩)).stamp.map
        (transactionEvent cfg ⟨user.publicKey, debit usage⟩)).toList := by
  rw [World.billed, relay_respond, relay_respond]
  exact List.append_nil _

theorem respond_updateTotalTokens (outcome : Outcome) (total : UInt64) :
    respond cfg outcome (.updateTotalTokens id total) w =
      outcome.write ((w.db.updateTotalTokens id total).map ((), ·)) w := rfl

theorem messages_update {outcome : Outcome} {other : UUID} {total : UInt64} :
    (respond cfg outcome (.updateTotalTokens other total) w).2.db.messages = w.db.messages := by
  rw [respond_updateTotalTokens]
  rcases update_world outcome w (w.db.updateTotalTokens other total) with h | ⟨db, hok, h⟩
  · rw [h]
  · rw [h]
    unfold Db.updateTotalTokens at hok
    split_ifs at hok
    cases hok
    rfl

theorem conversations_update_made {outcome : Outcome} {total : UInt64}
    (hup : outcome.unavailable = false) (hfits : InBigint total.toNat) :
    (respond cfg outcome (.updateTotalTokens id total) w).2.db.conversations id =
      (w.db.conversations id).map fun row => { row with totalTokens := total.toNat } := by
  rw [respond_updateTotalTokens, Db.updateTotalTokens, if_pos hfits]
  unfold Outcome.write
  rw [if_neg (by simp [hup])]
  exact Function.update_self _ _ _

theorem update_not_made {outcome : Outcome} {total : UInt64}
    (h : ¬ (outcome.unavailable = false ∧ InBigint total.toNat)) :
    (respond cfg outcome (.updateTotalTokens id total) w).2 = w := by
  rw [respond_updateTotalTokens]
  unfold Outcome.write
  cases hdown : outcome.unavailable with
  | true => rfl
  | false =>
      have hwide : ¬ InBigint total.toNat := fun hfits => h ⟨hdown, hfits⟩
      rw [Db.updateTotalTokens, if_neg hwide]
      rfl

theorem raised_toNat {n : ℤ} {usage : Usage} (hnonneg : 0 ≤ n)
    (hfits : InBigint (n + usage.totalTokens.toNat)) :
    ((UInt64.ofNat n.toNat + usage.totalTokens.toUInt64).toNat : ℤ) =
      n + usage.totalTokens.toNat := by
  have hsum : n.toNat + usage.totalTokens.toNat < 2 ^ 64 := by
    have hupper := hfits.2
    omega
  rw [UInt64.toNat_add, UInt64.toNat_ofNat', UInt32.toNat_toUInt64]
  omega

theorem conversations_billed {row : ConversationRow} (hrow : w.db.conversations id = some row)
    (hconversation : w.db.getConversationByID id = .ok conversation)
    (hvalid : usage.totalTokens ≠ 0) :
    (w.billed cfg outcome id conversation user usage).db.conversations id =
        some { row with totalTokens := row.totalTokens + usage.totalTokens.toNat } ↔
      (outcome (.updateTotalTokens id
          (conversation.totalTokens + usage.totalTokens.toUInt64))).unavailable = false ∧
        InBigint (row.totalTokens + usage.totalTokens.toNat) := by
  obtain ⟨hnonneg, htotal⟩ := totalTokens_of_getConversationByID hconversation hrow
  have hpublish : (respond cfg (outcome (.publish ⟨user.publicKey, debit usage⟩))
      (.publish ⟨user.publicKey, debit usage⟩) w).2.db.conversations id = some row := hrow
  constructor
  · intro hraised
    by_cases hmade : (outcome (.updateTotalTokens id (conversation.totalTokens +
        usage.totalTokens.toUInt64))).unavailable = false ∧
          InBigint (conversation.totalTokens + usage.totalTokens.toUInt64).toNat
    · rw [World.billed, conversations_update_made hmade.1 hmade.2, hpublish] at hraised
      have htokens := congrArg ConversationRow.totalTokens (Option.some.inj hraised)
      dsimp only at htokens
      exact ⟨hmade.1, htokens ▸ hmade.2⟩
    · rw [World.billed, update_not_made hmade, hpublish] at hraised
      have htokens := congrArg ConversationRow.totalTokens (Option.some.inj hraised)
      have hpos : usage.totalTokens.toNat ≠ 0 := fun h => hvalid (UInt32.toNat_inj.mp h)
      dsimp only at htokens
      omega
  · intro hmade
    obtain ⟨hup, hfits⟩ := hmade
    have hraised := raised_toNat hnonneg hfits
    rw [← htotal] at hraised
    rw [World.billed, conversations_update_made hup (hraised.symm ▸ hfits), hpublish,
      Option.map_some, hraised]

/-- The inserts are of no matter to what is billed. -/
theorem conversations_saved_billed {content : String} {received : List StreamChatCompletionResponse}
    {row : ConversationRow} (hrow : w.db.conversations id = some row)
    (hconversation : w.db.getConversationByID id = .ok conversation)
    (hvalid : usage.totalTokens ≠ 0) :
    ((w.saved outcome id content received).billed cfg outcome id conversation user
        usage).db.conversations id =
          some { row with totalTokens := row.totalTokens + usage.totalTokens.toNat } ↔
      (outcome (.updateTotalTokens id
          (conversation.totalTokens + usage.totalTokens.toUInt64))).unavailable = false ∧
        InBigint (row.totalTokens + usage.totalTokens.toNat) := by
  have hsaved : (w.saved outcome id content received).db.conversations id = some row := hrow
  have hread : (w.saved outcome id content received).db.getConversationByID id =
    .ok conversation := hconversation
  exact conversations_billed hsaved hread hvalid

theorem Unbilled.not_answersBilled (h : Unbilled cfg outcome w id model content) :
    ¬ AnswersBilled cfg outcome w id model content := by
  intro hbilled
  obtain ⟨conversation, user, received, usage, hasked, hup, hrefused⟩ := h
  have hrun := hasked.run_saved hup
  obtain ⟨usage', ⟨_, _, _, hanswered, husage⟩, row, hrow, ⟨transaction, stamp, -, -, hrelay⟩,
    hraised⟩ := hbilled _ (by rw [hrun])
  obtain ⟨-, -, rfl⟩ := hasked.toAnswered.unique hanswered
  obtain rfl := Option.some.inj (husage.symm.trans hasked.usage_eq)
  rw [hrun] at hrelay hraised
  obtain ⟨hmade, hfits⟩ :=
    (conversations_saved_billed hrow hasked.conversation_eq hasked.valid).mp hraised
  rcases hrefused with hstamp | hunmade | ⟨row', hrow', hwide⟩
  · have hlost := hrelay.symm.trans relay_billed
    rw [hstamp] at hlost
    simp [World.saved, World.insert] at hlost
  · rw [hmade] at hunmade
    cases hunmade
  · obtain rfl := Option.some.inj (hrow'.symm.trans hrow)
    exact hwide hfits

variable (cfg outcome w id model content) in
/-- A usage is billed when neither the relay nor the database refuses. -/
theorem answers_billed_iff : AnswersBilled cfg outcome w id model content ↔
    ¬ Unbilled cfg outcome w id model content := by
  constructor
  · intro hbilled hunbilled
    exact hunbilled.not_answersBilled hbilled
  · intro hbilled message hok
    rcases run_cases with ⟨e, hrun⟩ | ⟨conversation, user, received, usage, hasked⟩
    · rw [hrun] at hok
      cases hok
    cases hdown : (outcome (.createMessage id "assistant" (fullResponse received))).unavailable with
    | true =>
        rw [hasked.run_torn hdown] at hok
        cases hok
    | false =>
        rw [hasked.run_saved hdown]
        obtain ⟨row, hrow, howner⟩ := getConversationByID_eq_ok hasked.conversation_eq
        have hpublic := (getUserByPublicKey_eq_ok hasked.user_eq).1
        refine ⟨usage, ⟨_, _, _, hasked.toAnswered, hasked.usage_eq⟩, row, hrow, ?_, ?_⟩
        · cases hstamp : (outcome (.publish ⟨user.publicKey, debit usage⟩)).stamp with
          | none => exact absurd ⟨_, _, _, _, hasked, hdown, Or.inl hstamp⟩ hbilled
          | some stamp =>
              refine ⟨⟨user.publicKey, debit usage⟩, stamp, hpublic.trans howner,
                debit_toInt usage, ?_⟩
              apply relay_billed.trans
              rw [hstamp]
              rfl
        · apply (conversations_saved_billed hrow hasked.conversation_eq hasked.valid).mpr
          by_contra hrefused
          refine hbilled ⟨_, _, _, _, hasked, hdown, Or.inr ?_⟩
          rcases not_and_or.mp hrefused with hunmade | hwide
          · exact Or.inl (Bool.eq_true_of_not_eq_false hunmade)
          · exact Or.inr ⟨row, hrow, hwide⟩

end Billed

/-- The relay is not there, and the answer is returned all the same. -/
theorem Sample.answered_for_nothing : ¬ AnswersBilled Sample.cfg (Sample.outcomes fun _ => false)
    ⟨Sample.holding 500 [], []⟩ Sample.convoID "deepseek-r1" "hi" :=
  Unbilled.not_answersBilled
    ⟨_, _, _, _, Sample.asked_of_up rfl rfl rfl rfl, rfl, Or.inl rfl⟩

end DsProxy.Backend
