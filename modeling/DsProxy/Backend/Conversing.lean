import DsProxy.Backend.Answer
import DsProxy.Lib.Counter

/-!
# Requests on one conversation at the same time

Requests of `AddMessageAndCallChat` that take turns call by call. A request keeps the total it has
read and the usage it was told, and the state keeps the messages that were stored, each with the
request that stored it; no call looks at any of these. Whatever else the backend does meanwhile, it
does to the users.
-/

namespace DsProxy.Backend

open Relay Runs System

/-- What a request has learnt. -/
structure Learnt where
  total : Option UInt64
  usage : Option Usage

structure Request where
  conversationID : UUID
  work : Async (Except Failure Message)
  known : Learnt

structure Conversing extends World where
  requests : List Request
  log : List (ℕ × Message)

inductive Conversing.Op
  | start (id : UUID) (model content : String)
  | call (request : ℕ) (outcome : Outcome)
  | users (users : String → Option UserRow)

def Learnt.learn (cfg : Config) (known : Learnt) : (c : Call) → Call.Answer c → Learnt
  | .getConversationByID _, answer =>
    let conversation := Except.toOption (answer : Except DbError Conversation)
    { known with total := conversation.map Conversation.totalTokens }
  | .createChatCompletionStream _, answer =>
    let upstream : Option Upstream := answer
    { known with usage := upstream.bind fun upstream =>
        finalUsage (responses cfg.decodeChunk upstream.lines) }
  | _, _ => known

/-- The message a call has stored. -/
def logged (request : ℕ) : (c : Call) → Call.Answer c → Option (ℕ × Message)
  | .createMessage _ _ _, answer =>
    (Except.toOption (answer : Except DbError Message)).map fun message => (request, message)
  | _, _ => none

/-- A call of a request, and what the request goes on with. -/
def Conversing.query (cfg : Config) (s : Conversing) (r : ℕ) (outcome : Outcome)
    (request : Request) (c : Call) (next : Call.Answer c → Async (Except Failure Message)) :
    Conversing :=
  let (answer, w) := respond cfg outcome c s.toWorld
  let request := ⟨request.conversationID, next answer, request.known.learn cfg c answer⟩
  ⟨w, s.requests.set r request, (logged r c answer).toList ++ s.log⟩

def conversing (cfg : Config) : System Conversing Conversing.Op where
  step s op :=
    match op with
    | .start id model content =>
      let work := addMessageAndCallChat cfg id model content
      some { s with requests := s.requests ++ [⟨id, work, ⟨none, none⟩⟩] }
    | .call r outcome =>
      match s.requests[r]? with
      | some ⟨id, .call c next, known⟩ =>
        some (s.query cfg r outcome ⟨id, .call c next, known⟩ c next)
      | _ => none
    | .users users => some { s with db := { s.db with users := users } }

/-! ### The stages of a request -/

section Stages

variable (cfg : Config) (id : UUID)

/-- The calls before the first insert. -/
def Call.looks : Call → Bool
  | .getMessagesByConversationID other => other = id
  | .getConversationByID other => other = id
  | .getUserByPublicKey _ => true
  | .createChatCompletionStream _ => true
  | .stream _ => true
  | _ => false

/-- The update of the total is next, and then the answer is returned, whatever comes of it. -/
def Updating (known : Learnt) (work : Async (Except Failure Message)) : Prop :=
  ∃ total usage next, known = ⟨some total, some usage⟩ ∧ usage.totalTokens ≠ 0 ∧
    work = .call (.updateTotalTokens id (total + usage.totalTokens.toUInt64)) next ∧
    ∀ answer, ∃ message, next answer = .ret (.ok message)

def Billing (known : Learnt) (work : Async (Except Failure Message)) : Prop :=
  ∃ transaction next, work = .call (.publish transaction) next ∧
    ∀ answer, Updating id known (next answer)

/-- The question is stored, and the insert of the answer is next. -/
def Answering (known : Learnt) (work : Async (Except Failure Message)) : Prop :=
  ∃ text next, work = .call (.createMessage id "assistant" text) next ∧
    (∀ message, Billing id known (next (.ok message))) ∧
    ∀ e, ∃ failure, next (.error e) = .ret (.error failure)

/-- Nothing is stored yet, and the request may still fail. -/
inductive Asking : Learnt → Async (Except Failure Message) → Prop
  | failed {known : Learnt} {failure : Failure} : Asking known (.ret (.error failure))
  | look {known : Learnt} {c : Call} {next : Call.Answer c → Async (Except Failure Message)}
      (hlooks : c.looks id = true)
      (hnext : ∀ answer, Asking (known.learn cfg c answer) (next answer)) :
      Asking known (.call c next)
  | ask {known : Learnt} {content : String}
      {next : Except DbError Message → Async (Except Failure Message)}
      (hnext : ∀ message, Answering id known (next (.ok message)))
      (hfailed : ∀ e, ∃ failure, next (.error e) = .ret (.error failure)) :
      Asking known (.call (.createMessage id "user" content) next)

/-- Every request is at one of its stages. -/
inductive Staged : Learnt → Async (Except Failure Message) → Prop
  | asking {known : Learnt} {work : Async (Except Failure Message)} (h : Asking cfg id known work) :
      Staged known work
  | answering {known : Learnt} {work : Async (Except Failure Message)}
      (h : Answering id known work) : Staged known work
  | billing {known : Learnt} {work : Async (Except Failure Message)} (h : Billing id known work) :
      Staged known work
  | updating {known : Learnt} {work : Async (Except Failure Message)} (h : Updating id known work) :
      Staged known work
  | done {known : Learnt} {message : Message} : Staged known (.ret (.ok message))

variable {cfg id} {model content : String} {conversation : Conversation} {user : User}
  {received : List StreamChatCompletionResponse}

theorem saveAndPublish_asking {known : Learnt}
    (hknown : known = ⟨some conversation.totalTokens, finalUsage received⟩) :
    Asking cfg id known (saveAndPublish id content conversation user received) := by
  cases husage : finalUsage received with
  | none =>
      unfold saveAndPublish
      rw [husage]
      exact .failed
  | some usage =>
      by_cases hvalid : usage.totalTokens = 0
      · unfold saveAndPublish
        rw [husage]
        dsimp only
        rw [if_pos hvalid]
        exact .failed
      · rw [saveAndPublish_eq husage hvalid]
        apply Asking.ask
        · intro question
          refine ⟨fullResponse received, _, rfl, fun answer => ?_, fun e => ⟨_, rfl⟩⟩
          refine ⟨⟨user.publicKey, debit usage⟩, _, rfl, fun accepted => ?_⟩
          exact ⟨conversation.totalTokens, usage, _, husage ▸ hknown, hvalid, rfl,
            fun updated => ⟨answer, rfl⟩⟩
        · intro e
          exact ⟨_, rfl⟩

theorem streamAll_asking {known : Learnt} (contents : List String)
    {next : Async (Except Failure Message)} (h : Asking cfg id known next) :
    Asking cfg id known (streamAll contents >>= fun _ => next) := by
  induction contents with
  | nil => exact h
  | cons content rest ih => exact .look rfl fun _ => ih

theorem callChat_asking {messages : List Message} {known : Learnt}
    (hknown : known.total = some conversation.totalTokens) :
    Asking cfg id known (callChat cfg id model content messages conversation user) := by
  unfold callChat
  split_ifs
  · exact .failed
  · exact .failed
  refine .look rfl fun upstream => ?_
  change Option Upstream at upstream
  cases upstream with
  | none => exact .failed
  | some upstream =>
      apply streamAll_asking
      by_cases hfailed : upstream.failed = true
      · rw [if_pos hfailed]
        exact .failed
      · rw [if_neg hfailed]
        apply saveAndPublish_asking
        rw [← hknown]
        rfl

theorem addMessageAndCallChat_asking :
    Asking cfg id ⟨none, none⟩ (addMessageAndCallChat cfg id model content) := by
  refine .look (decide_eq_true rfl) fun messages => ?_
  change Except DbError (List Message) at messages
  cases messages with
  | error e => exact .failed
  | ok messages =>
      refine .look (decide_eq_true rfl) fun conversation => ?_
      change Except DbError Conversation at conversation
      cases conversation with
      | error e => exact .failed
      | ok conversation =>
          refine .look rfl fun user => ?_
          change Except DbError User at user
          cases user with
          | error e => exact .failed
          | ok user => exact callChat_asking rfl

/-- What an answer does to a request, by the stage the request is at. -/
inductive Turn (cfg : Config) (id : UUID) (known : Learnt) :
    (c : Call) → (Call.Answer c → Async (Except Failure Message)) → Call.Answer c → Prop
  | look {c : Call} {next : Call.Answer c → Async (Except Failure Message)}
      {answer : Call.Answer c} (hlooks : c.looks id = true)
      (before : Asking cfg id known (.call c next))
      (after : Asking cfg id (known.learn cfg c answer) (next answer)) :
      Turn cfg id known c next answer
  | asked {content : String} {next : Except DbError Message → Async (Except Failure Message)}
      {message : Message}
      (before : Asking cfg id known (.call (.createMessage id "user" content) next))
      (after : Answering id known (next (.ok message))) :
      Turn cfg id known (.createMessage id "user" content) next (.ok message)
  | refused {content : String} {next : Except DbError Message → Async (Except Failure Message)}
      {e : DbError} {failure : Failure}
      (before : Asking cfg id known (.call (.createMessage id "user" content) next))
      (after : next (.error e) = .ret (.error failure)) :
      Turn cfg id known (.createMessage id "user" content) next (.error e)
  | answered {text : String} {next : Except DbError Message → Async (Except Failure Message)}
      {message : Message} (after : Billing id known (next (.ok message))) :
      Turn cfg id known (.createMessage id "assistant" text) next (.ok message)
  | torn {text : String} {next : Except DbError Message → Async (Except Failure Message)}
      {e : DbError} {failure : Failure} (after : next (.error e) = .ret (.error failure)) :
      Turn cfg id known (.createMessage id "assistant" text) next (.error e)
  | published {transaction : Transaction} {next : Bool → Async (Except Failure Message)}
      {accepted : Bool} (after : Updating id known (next accepted)) :
      Turn cfg id known (.publish transaction) next accepted
  | updated {total : UInt64} {next : Except DbError Unit → Async (Except Failure Message)}
      {answer : Except DbError Unit} {message : Message}
      (after : next answer = .ret (.ok message)) :
      Turn cfg id known (.updateTotalTokens id total) next answer

section Turn

variable {known : Learnt} {c : Call} {next : Call.Answer c → Async (Except Failure Message)}

theorem Staged.turn (h : Staged cfg id known (.call c next)) (answer : Call.Answer c) :
    Turn cfg id known c next answer := by
  cases h with
  | asking h =>
      cases h with
      | look hlooks hnext => exact .look hlooks (.look hlooks hnext) (hnext answer)
      | ask hnext hfailed =>
          change Except DbError Message at answer
          cases answer with
          | ok message => exact .asked (.ask hnext hfailed) (hnext message)
          | error e =>
              obtain ⟨failure, hret⟩ := hfailed e
              exact .refused (.ask hnext hfailed) hret
  | answering h =>
      obtain ⟨text, next, hcall, hnext, hfailed⟩ := h
      cases hcall
      change Except DbError Message at answer
      cases answer with
      | ok message => exact .answered (hnext message)
      | error e =>
          obtain ⟨failure, hret⟩ := hfailed e
          exact .torn hret
  | billing h =>
      obtain ⟨transaction, next, hcall, hnext⟩ := h
      cases hcall
      exact .published (hnext answer)
  | updating h =>
      obtain ⟨total, usage, next, hknown, hvalid, hcall, hnext⟩ := h
      cases hcall
      obtain ⟨message, hret⟩ := hnext answer
      exact .updated hret

/-- A call takes a request from one stage to the next. -/
theorem Turn.staged {answer : Call.Answer c} (h : Turn cfg id known c next answer) :
    Staged cfg id (known.learn cfg c answer) (next answer) := by
  cases h with
  | look hlooks before after => exact .asking after
  | asked before after => exact .answering after
  | refused before after =>
      rw [after]
      exact .asking .failed
  | answered after => exact .billing after
  | torn after =>
      rw [after]
      exact .asking .failed
  | published after => exact .updating after
  | updated after =>
      rw [after]
      exact .done

/-- A request reads, asks the chat service, stores messages, publishes and updates its total. -/
theorem Turn.calls {answer : Call.Answer c} (h : Turn cfg id known c next answer) :
    c.looks id = true ∨ (∃ role text, c = .createMessage id role text) ∨
      (∃ transaction, c = .publish transaction) ∨ ∃ total, c = .updateTotalTokens id total := by
  cases h with
  | look hlooks before after => exact Or.inl hlooks
  | asked before after => exact Or.inr (Or.inl ⟨_, _, rfl⟩)
  | refused before after => exact Or.inr (Or.inl ⟨_, _, rfl⟩)
  | answered after => exact Or.inr (Or.inl ⟨_, _, rfl⟩)
  | torn after => exact Or.inr (Or.inl ⟨_, _, rfl⟩)
  | published after => exact Or.inr (Or.inr (Or.inl ⟨_, rfl⟩))
  | updated after => exact Or.inr (Or.inr (Or.inr ⟨_, rfl⟩))

end Turn

end Stages

/-! ### What a step does -/

theorem respond_looks {cfg : Config} {outcome : Outcome} {w : World} {id : UUID} {c : Call}
    (h : c.looks id = true) : (respond cfg outcome c w).2 = w := by
  cases c with
  | getMessagesByConversationID other => rfl
  | getConversationByID other => rfl
  | getUserByPublicKey publicKey => rfl
  | createChatCompletionStream request => rfl
  | stream content => rfl
  | _ => cases h

theorem respond_createMessage (cfg : Config) (outcome : Outcome) (w : World) (id : UUID)
    (role text : String) :
    let message : Message := ⟨outcome.messageID, id, role, text, outcome.now⟩
    respond cfg outcome (.createMessage id role text) w =
      if outcome.unavailable = true then (.error .unavailable, w)
      else (.ok message, w.insert message) := rfl

theorem createMessage_ok {cfg : Config} {outcome : Outcome} {w w' : World} {id : UUID}
    {role text : String} {message : Message}
    (h : respond cfg outcome (.createMessage id role text) w = (.ok message, w')) :
    outcome.unavailable = false ∧ message = ⟨outcome.messageID, id, role, text, outcome.now⟩ ∧
      w' = w.insert message := by
  rw [respond_createMessage] at h
  split_ifs at h with hdown
  · cases (Prod.mk.inj h).1
  · obtain ⟨hmessage, hworld⟩ := Prod.mk.inj h
    obtain rfl := Except.ok.inj hmessage
    exact ⟨Bool.eq_false_of_not_eq_true hdown, rfl, hworld.symm⟩

theorem createMessage_error {cfg : Config} {outcome : Outcome} {w w' : World} {id : UUID}
    {role text : String} {e : DbError}
    (h : respond cfg outcome (.createMessage id role text) w = (.error e, w')) :
    outcome.unavailable = true ∧ w' = w := by
  rw [respond_createMessage] at h
  split_ifs at h with hdown
  · exact ⟨hdown, (Prod.mk.inj h).2.symm⟩
  · cases (Prod.mk.inj h).1

section Steps

variable {cfg : Config} {s s' : Conversing} {op : Conversing.Op}

def AllStaged (cfg : Config) (s : Conversing) : Prop :=
  ∀ request ∈ s.requests, Staged cfg request.conversationID request.known request.work

theorem call_turn {r : ℕ} {outcome : Outcome}
    (h : (conversing cfg).step s (.call r outcome) = some s') :
    ∃ id c next known, s.requests[r]? = some ⟨id, .call c next, known⟩ ∧
      s' = s.query cfg r outcome ⟨id, .call c next, known⟩ c next := by
  simp only [conversing] at h
  split at h
  · rename_i id c next known hrequest
    exact ⟨id, c, next, known, hrequest, (Option.some.inj h).symm⟩
  · cases h

/-- A call, with its answer. -/
theorem call_answered {r : ℕ} {outcome : Outcome}
    (h : (conversing cfg).step s (.call r outcome) = some s') :
    ∃ id c next known answer w', s.requests[r]? = some ⟨id, .call c next, known⟩ ∧
      respond cfg outcome c s.toWorld = (answer, w') ∧
      s' = ⟨w', s.requests.set r ⟨id, next answer, known.learn cfg c answer⟩,
        (logged r c answer).toList ++ s.log⟩ := by
  obtain ⟨id, c, next, known, hbefore, rfl⟩ := call_turn h
  exact ⟨id, c, next, known, _, _, hbefore, rfl, rfl⟩

theorem allStaged_step (hs : AllStaged cfg s) (h : (conversing cfg).step s op = some s') :
    AllStaged cfg s' := by
  intro request hrequest
  cases op with
  | start id model content =>
      cases h
      rcases List.mem_append.mp hrequest with hold | hnew
      · exact hs request hold
      · rw [List.mem_singleton.mp hnew]
        exact .asking addMessageAndCallChat_asking
  | call r outcome =>
      obtain ⟨id, c, next, known, hbefore, rfl⟩ := call_turn h
      rcases List.mem_or_eq_of_mem_set hrequest with hold | rfl
      · exact hs request hold
      · exact ((hs _ (List.mem_of_getElem? hbefore)).turn _).staged
  | users users =>
      cases h
      exact hs request hrequest

end Steps

end DsProxy.Backend
