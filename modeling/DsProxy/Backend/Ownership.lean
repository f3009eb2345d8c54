import DsProxy.Backend.GoJson
import DsProxy.Backend.Message

/-!
# Who may use a conversation

`GET /messages` compares the owner of the conversation with the caller; `POST /messages` does not
look at the caller at all. So a posted message keeps to the caller's conversations exactly when the
body happens to name one.
-/

namespace DsProxy.Backend

namespace Sample

def ctx : GinContext := ⟨"Bearer " ++ token, body, none, none⟩

/-- Everyone has tokens, and the conversation of the body belongs to `owner`. -/
def owned (owner : String) : Db where
  users _ := some ⟨100, 0⟩
  conversations id := if id = convoID then some ⟨owner, 0⟩ else none
  messages := []
  transactionEvents := []

theorem owned_conversation (owner : String) :
    (owned owner).conversations convoID = some ⟨owner, 0⟩ := by
  simp [owned]

/-- The chat service refuses the request. -/
def refused : Call → Outcome := fun _ => ⟨false, none, none, 0, 0⟩

def claims : Json := Json.object [("exp", .num 1737600000), ("user_pubkey", .str userPubkey)]

theorem auth_ctx : auth cfg ctx = .ok { ctx with user := some claims } := by
  have htoken : trimPrefix ctx.authorization "Bearer " = token := trimPrefix_append "Bearer " token
  have hheader : ctx.authorization ≠ "" := by simp [ctx]
  have hparse : cfg.parseJWT token = some claims := by simp [cfg, claims]
  rw [auth, if_neg hheader, htoken, hparse]

theorem bindMessage_body : bindMessage cfg body = some ⟨convoID, "hi", "deepseek-r1"⟩ := by
  have hbody : cfg.decodeBody body = some ⟨convoID, "hi", "deepseek-r1"⟩ := by simp [cfg]
  have hfilled : ¬ (convoID = Vector.replicate 16 0 ∨ "hi" = "" ∨ "deepseek-r1" = "") := by decide
  rw [bindMessage, hbody]
  rw [Option.bind_eq_bind, Option.bind_some, if_neg hfilled]
  rfl

theorem postMessages_ctx :
    postMessages cfg ctx = addMessageAndCallChat cfg convoID "deepseek-r1" "hi" := by
  rw [postMessages, auth_ctx]
  show addMessage cfg { ctx with user := some claims } = _
  have hbind : bindMessage cfg { ctx with user := some claims }.body = _ := bindMessage_body
  rw [addMessage, hbind]

end Sample

variable {cfg : Config} {db : Db} {answer : ∀ c, Call.Answer c} {id : UUID}

/-- The public key in the caller's token. -/
def caller (cfg : Config) (ctx : GinContext) : Except Failure String := do
  extractUserPubkey (← auth cfg ctx)

/-- The answers of a database as a request finds it; its own writes come after its reads. -/
def answers (cfg : Config) (outcome : Call → Outcome) (db : Db) (c : Call) : Call.Answer c :=
  (respond cfg (outcome c) c ⟨db, []⟩).1

/-- Among the calls is one that read a conversation's history, appended to it, or set its total.
A debit is published only after an append. -/
def Uses (answer : ∀ c, Call.Answer c) (made : List Call) (id : UUID) : Prop :=
  (.getMessagesByConversationID id ∈ made ∧
    ∃ messages, (getMessagesByConversationID id).eval answer = .ok messages) ∨
  (∃ role content, .createMessage id role content ∈ made) ∨
  ∃ totalTokens, .updateTotalTokens id totalTokens ∈ made

/-- Only conversations of `p` are used, and only the balance of `p` is debited. -/
structure OwnerOnly (db : Db) (answer : ∀ c, Call.Answer c) (made : List Call) (p : String) :
    Prop where
  conversations : ∀ {id row}, db.conversations id = some row → Uses answer made id →
    row.userPubkey = p
  debits : ∀ {transaction}, .publish transaction ∈ made → transaction.user = p

theorem Uses.within {made : List Call} {owners : String → Prop} {other : UUID}
    (h : Uses answer made other) (hmade : ∀ c ∈ made, c.Within id owners) : other = id := by
  rcases h with ⟨h, -⟩ | ⟨role, content, h⟩ | ⟨total, h⟩
  · exact hmade _ h
  · exact hmade _ h
  · exact hmade _ h

/-- When the history cannot be read the request ends there. -/
theorem calls_of_unread {e : DbError} {model content : String}
    (h : (getMessagesByConversationID id).eval answer = .error e) :
    (addMessageAndCallChat cfg id model content).calls answer =
      [.getMessagesByConversationID id] := by
  unfold addMessageAndCallChat attempt
  rw [Program.calls_bind, h]
  rfl

theorem history_called {model content : String} :
    .getMessagesByConversationID id ∈ (addMessageAndCallChat cfg id model content).calls answer :=
  mem_calls_attempt.mpr (Or.inl (List.mem_singleton_self _))

section Posted

variable {ctx : GinContext} {outcome : Call → Outcome} {p : String} {request : MessageRequest}

theorem postMessages_calls (hcaller : caller cfg ctx = .ok p) :
    (postMessages cfg ctx).calls answer =
      match bindMessage cfg ctx.body with
      | none => []
      | some request =>
        (addMessageAndCallChat cfg request.convoID request.model request.content).calls answer := by
  unfold caller at hcaller
  cases hauth : auth cfg ctx with
  | error e =>
      rw [hauth] at hcaller
      cases hcaller
  | ok ctx' =>
      have hbody : ctx'.body = ctx.body := by
        unfold auth at hauth
        split_ifs at hauth
        split at hauth
        · cases hauth
        · cases hauth
          rfl
      rw [postMessages, hauth]
      dsimp only
      rw [addMessage, hbody]
      cases bindMessage cfg ctx.body <;> rfl

theorem history_answer (hread : (outcome (.getMessagesByConversationID id)).unavailable = false) :
    (getMessagesByConversationID id).eval (answers cfg outcome db) =
      .ok (db.getMessagesByConversationID id) := by
  change (if (outcome (.getMessagesByConversationID id)).unavailable = true then _ else _) = _
  rw [hread]
  rfl

theorem history_unavailable
    (hfails : (outcome (.getMessagesByConversationID id)).unavailable = true) :
    (getMessagesByConversationID id).eval (answers cfg outcome db) = .error .unavailable := by
  change (if (outcome (.getMessagesByConversationID id)).unavailable = true then _ else _) = _
  rw [hfails]
  rfl

theorem debited_owner {model content : String} {transaction : Transaction}
    (h : .publish transaction ∈
      (addMessageAndCallChat cfg id model content).calls (answers cfg outcome db)) :
    ∃ row, db.conversations id = some row ∧ transaction.user = row.userPubkey := by
  obtain ⟨conversation, user, hconversation, huser, huserEq⟩ := debited_user h
  have hread : db.getConversationByID id = .ok conversation := by
    change (if _ then _ else _) = _ at hconversation
    split_ifs at hconversation
    exact hconversation
  have hfound : db.getUserByPublicKey conversation.userPubkey = .ok user := by
    change (if _ then _ else _) = _ at huser
    split_ifs at huser
    exact huser
  obtain ⟨row, hrow, howner⟩ := getConversationByID_eq_ok hread
  exact ⟨row, hrow, by rw [huserEq, (getUserByPublicKey_eq_ok hfound).1, howner]⟩

/-- A posted message keeps to the caller's conversations and balance exactly when its body does not
bind, its history cannot be read, or the conversation it names does not exist or is the caller's. -/
theorem ownerOnly_iff (hcaller : caller cfg ctx = .ok p) :
    OwnerOnly db (answers cfg outcome db)
        ((postMessages cfg ctx).calls (answers cfg outcome db)) p ↔
      ∀ {request row}, bindMessage cfg ctx.body = some request →
        (outcome (.getMessagesByConversationID request.convoID)).unavailable = false →
        db.conversations request.convoID = some row → row.userPubkey = p := by
  rw [postMessages_calls hcaller]
  constructor
  · intro howner request row hbind hread hrow
    rw [hbind] at howner
    exact howner.conversations hrow (Or.inl ⟨history_called, _, history_answer hread⟩)
  · intro howner
    cases hbind : bindMessage cfg ctx.body with
    | none =>
        refine ⟨fun hrow huses => ?_, fun hdebit => by cases hdebit⟩
        rcases huses with ⟨h, -⟩ | ⟨_, _, h⟩ | ⟨_, h⟩ <;> cases h
    | some request =>
        dsimp only
        have hwithin : (addMessageAndCallChat cfg request.convoID request.model
            request.content).Forall (Call.Within request.convoID fun _ => True) :=
          addMessageAndCallChat_within fun _ => trivial
        cases hread : (outcome (.getMessagesByConversationID request.convoID)).unavailable with
        | true =>
            rw [calls_of_unread (history_unavailable hread)]
            refine ⟨fun {id row} hrow huses => ?_,
      fun hdebit => by cases List.mem_singleton.mp hdebit⟩
            rcases huses with ⟨h, messages, hmessages⟩ | ⟨_, _, h⟩ | ⟨_, h⟩
            · cases List.mem_singleton.mp h
              cases (history_unavailable hread).symm.trans hmessages
            · cases List.mem_singleton.mp h
            · cases List.mem_singleton.mp h
        | false =>
            refine ⟨fun {id row} hrow huses => ?_, fun hdebit => ?_⟩
            · obtain rfl := huses.within fun c hc => hwithin.of_mem_calls _ hc
              exact howner hbind hread hrow
            · obtain ⟨row, hrow, huser⟩ := debited_owner hdebit
              rw [huser]
              exact howner hbind hread hrow

end Posted

theorem caller_sample : caller Sample.cfg Sample.ctx = .ok Sample.userPubkey := by
  have hclaims : (Sample.claims.values "user_pubkey").getLast?.bind Json.text? =
      some Sample.userPubkey := by
    simp [Sample.claims, Json.object, Json.Members.ofList, Json.values, Json.Members.values,
      Json.text?]
  have hkey : Sample.userPubkey ≠ "" := by simp [Sample.userPubkey]
  rw [caller, Sample.auth_ctx]
  show extractUserPubkey { Sample.ctx with user := some Sample.claims } = _
  simp only [extractUserPubkey, hclaims]
  exact if_neg hkey

/-- Another user's conversation: its history is read, and sent to the chat service. -/
theorem foreign_conversation_used :
    caller Sample.cfg Sample.ctx = .ok Sample.userPubkey ∧
      ¬ OwnerOnly (Sample.owned "owner") (answers Sample.cfg Sample.refused (Sample.owned "owner"))
        ((postMessages Sample.cfg Sample.ctx).calls
          (answers Sample.cfg Sample.refused (Sample.owned "owner"))) Sample.userPubkey := by
  refine ⟨caller_sample, fun howner => ?_⟩
  rw [postMessages_calls caller_sample] at howner
  have hbind : bindMessage Sample.cfg Sample.ctx.body = _ := Sample.bindMessage_body
  rw [hbind] at howner
  have howned := howner.conversations (Sample.owned_conversation _)
    (Or.inl ⟨history_called, _, history_answer rfl⟩)
  exact absurd howned (by decide)

/-- The user's own conversation. -/
theorem ownerOnly_sample : OwnerOnly (Sample.owned Sample.userPubkey)
    (answers Sample.cfg Sample.refused (Sample.owned Sample.userPubkey))
    ((postMessages Sample.cfg Sample.ctx).calls
      (answers Sample.cfg Sample.refused (Sample.owned Sample.userPubkey))) Sample.userPubkey := by
  refine (ownerOnly_iff caller_sample).mpr fun {request row} hbind _ hrow => ?_
  cases Sample.bindMessage_body.symm.trans hbind
  cases (Sample.owned_conversation Sample.userPubkey).symm.trans hrow
  rfl

end DsProxy.Backend
