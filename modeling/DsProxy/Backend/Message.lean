import DsProxy.Backend.Environment

/-!
# `POST /messages` and `GET /messages`

`middleware.Auth`, the message controller, and `AddMessageAndCallChat` of `logic/message.go`. The
stream of the chat service is read line by line as `CreateChatCompletionStream` reads it.
-/

namespace DsProxy.Backend

/-- Why a request was not answered with success. -/
inductive Failure
  | text (error : String)
  | bind
  | db (error : DbError)
  | chat
  /-- A nil pointer was dereferenced; gin recovers and answers with a 500. -/
  | panic
  deriving DecidableEq

/-- Go on with the result of a query, or return its error. -/
def attempt {α β : Type} (query : Async (Except DbError α)) (next : α → Async (Except Failure β)) :
    Async (Except Failure β) := do
  match ← query with
  | .error e => return .error (.db e)
  | .ok a => next a

/-! ### The streamed response -/

/-- The chunks handed to the handler: lines without the prefix and chunks that do not parse are
skipped, and the end marker ends the stream. -/
def responses (decode : String → Option StreamChatCompletionResponse) :
    List String → List StreamChatCompletionResponse
  | [] => []
  | line :: rest =>
    if line = "" ∨ !"data: ".toList.isPrefixOf line.toList then responses decode rest
    else if line = "data: [DONE]" then []
    else match decode (String.ofList (line.toList.drop 6)) with
      | none => responses decode rest
      | some response => response :: responses decode rest

/-- The contents passed to the stream handler. -/
def streamed (received : List StreamChatCompletionResponse) : List String :=
  (received.flatMap (·.choices)).filter (· ≠ "")

def fullResponse (received : List StreamChatCompletionResponse) : String :=
  String.join (streamed received)

/-- The usage of the last chunk that carries one. -/
def finalUsage (received : List StreamChatCompletionResponse) : Option Usage :=
  (received.filterMap (·.usage)).getLast?

/-- `streamHandler` on each content, in order. -/
def streamAll : List String → Async Unit
  | [] => return ()
  | content :: rest => do
    streamHandler content
    streamAll rest

/-! ### `AddMessageAndCallChat` -/

def remainingContextTokens (cfg : Config) (conversation : Conversation) : Int64 :=
  (cfg.maxContextTokens.toUInt64 - conversation.totalTokens).toInt64

def maxTokens (remaining : Int64) (user : User) : UInt32 :=
  if user.tokens < remaining.toUInt64 then user.tokens.toUInt32 else remaining.toUInt64.toUInt32

def chatRequest (cfg : Config) (model content : String) (messages : List Message)
    (conversation : Conversation) (user : User) : ChatCompletionRequest where
  model := model
  messages := messages.map (fun message => ⟨message.role, message.content⟩) ++ [⟨"user", content⟩]
  maxTokens := maxTokens (remainingContextTokens cfg conversation) user
  stream := true
  includeUsage := true

/-- The amount of the published transaction. -/
def debit (usage : Usage) : Int64 := -usage.totalTokens.toUInt64.toInt64

/-- What follows a stream that was read to its end. -/
def saveAndPublish (conversationID : UUID) (content : String) (conversation : Conversation)
    (user : User) (received : List StreamChatCompletionResponse) :
    Async (Except Failure Message) :=
  match finalUsage received with
  | none => return .error .panic
  | some usage =>
    if usage.totalTokens = 0 then return .error (.text "invalid usage data from chat API")
    else
      attempt (createMessage conversationID "user" content) fun _ =>
      attempt (createMessage conversationID "assistant" (fullResponse received)) fun answer => do
        -- neither the publication nor the update is checked
        let _ ← publishTransactionEvent user.publicKey (debit usage)
        let total := conversation.totalTokens + usage.totalTokens.toUInt64
        let _ ← updateTotalTokens conversationID total
        return .ok answer

/-- The checks, the call of the chat service and what follows it. -/
def callChat (cfg : Config) (conversationID : UUID) (model content : String)
    (messages : List Message) (conversation : Conversation) (user : User) :
    Async (Except Failure Message) :=
  if remainingContextTokens cfg conversation < 1 then
    return .error (.text "conversation context limit exceeded")
  else if user.tokens < 1 then return .error (.text "insufficient tokens")
  else do
    let some upstream ←
        createChatCompletionStream (chatRequest cfg model content messages conversation user)
      | return .error .chat
    let received := responses cfg.decodeChunk upstream.lines
    streamAll (streamed received)
    if upstream.failed then return .error .chat
    saveAndPublish conversationID content conversation user received

def addMessageAndCallChat (cfg : Config) (conversationID : UUID) (model content : String) :
    Async (Except Failure Message) :=
  attempt (getMessagesByConversationID conversationID) fun messages =>
  attempt (getConversationByID conversationID) fun conversation =>
  attempt (getUserByPublicKey conversation.userPubkey) fun user =>
  callChat cfg conversationID model content messages conversation user

/-! ### The endpoints -/

/-- A request as gin hands it on: header, body, query and the claims `Auth` has set. -/
structure GinContext where
  authorization : String
  body : String
  conversationID : Option UUID
  user : Option Json

/-- `strings.TrimPrefix`. -/
def trimPrefix (text start : String) : String :=
  if start.toList.isPrefixOf text.toList then String.ofList (text.toList.drop start.length)
  else text

/-- `middleware.Auth`. -/
def auth (cfg : Config) (ctx : GinContext) : Except Failure GinContext :=
  if ctx.authorization = "" then .error (.text "Authorization header required")
  else match cfg.parseJWT (trimPrefix ctx.authorization "Bearer ") with
    | none => .error (.text "Invalid token")
    | some claims => .ok { ctx with user := some claims }

def extractUserPubkey (ctx : GinContext) : Except Failure String :=
  match ctx.user with
  | none => .error (.text "user not found in context")
  | some claims =>
    match (claims.values "user_pubkey").getLast?.bind Json.text? with
    | none => .error (.text "user_pubkey not found in token")
    | some userPubkey =>
      if userPubkey = "" then .error (.text "user_pubkey not found in token") else .ok userPubkey

/-- `ShouldBindJSON` with three required fields. -/
def bindMessage (cfg : Config) (body : String) : Option MessageRequest := do
  let request ← cfg.decodeBody body
  if request.convoID = Vector.replicate 16 0 ∨ request.content = "" ∨ request.model = "" then none
  else return request

def addMessage (cfg : Config) (ctx : GinContext) : Async (Except Failure Message) :=
  match bindMessage cfg ctx.body with
  | none => return .error .bind
  | some request => addMessageAndCallChat cfg request.convoID request.model request.content

def getMessages (ctx : GinContext) : Async (Except Failure (List Message)) :=
  match ctx.conversationID with
  | none => return .error (.text "conversation_id is required")
  | some convoID =>
    match extractUserPubkey ctx with
    | .error e => return .error e
    | .ok userPubkey =>
      attempt (getConversationByID convoID) fun conversation =>
      if conversation.userPubkey ≠ userPubkey then
        return .error (.text "the conversation not matched to the user pubkey: <nil>")
      else attempt (getMessagesByConversationID convoID) fun messages => return .ok messages

/-- The route `POST /messages`. -/
def postMessages (cfg : Config) (ctx : GinContext) : Async (Except Failure Message) :=
  match auth cfg ctx with
  | .error e => return .error e
  | .ok ctx => addMessage cfg ctx

theorem trimPrefix_append (start rest : String) : trimPrefix (start ++ rest) start = rest := by
  have hprefix : start.toList.isPrefixOf (start ++ rest).toList = true := by
    rw [List.isPrefixOf_iff_prefix, String.toList_append]
    exact List.prefix_append _ _
  rw [trimPrefix, if_pos hprefix, String.toList_append, ← String.length_toList, List.drop_left,
    String.ofList_toList]

theorem responses_data (decode : String → Option StreamChatCompletionResponse) (body : String)
    (rest : List String) : responses decode (("data: " ++ body) :: rest) =
      if body = "[DONE]" then [] else (decode body).toList ++ responses decode rest := by
  have hne : "data: " ++ body ≠ "" := by
    intro h
    have hlength := congrArg String.length h
    simp at hlength
  have hdone : "data: " ++ body = "data: [DONE]" ↔ body = "[DONE]" := by
    constructor
    · intro h
      have hlist := congrArg String.toList h
      simpa [String.toList_append, ← String.toList_inj] using hlist
    · intro h
      rw [h]
      rfl
  have hdrop : String.ofList (("data: " ++ body).toList.drop 6) = body := by
    rw [String.toList_append]
    exact String.ofList_toList
  rw [responses, if_neg (by simp [hne]), hdrop]
  by_cases h : body = "[DONE]"
  · rw [if_pos (hdone.mpr h), if_pos h]
  · rw [if_neg (fun hline => h (hdone.mp hline)), if_neg h]
    cases decode body <;> rfl

variable {α β : Type} {answer : ∀ c, Call.Answer c} {P : Call → Prop}

theorem mem_calls_attempt {query : Async (Except DbError α)}
    {next : α → Async (Except Failure β)} {c : Call} :
    c ∈ (attempt query next).calls answer ↔ c ∈ query.calls answer ∨
      ∃ a, query.eval answer = .ok a ∧ c ∈ (next a).calls answer := by
  unfold attempt
  rw [Program.calls_bind, List.mem_append]
  cases query.eval answer <;> simp

theorem forall_attempt {query : Async (Except DbError α)} {next : α → Async (Except Failure β)}
    (hquery : query.Forall P) (hnext : ∀ a, (next a).Forall P) : (attempt query next).Forall P := by
  apply hquery.bind
  intro result
  cases result with
  | error e => exact Program.forall_pure _
  | ok a => exact hnext a

theorem forall_streamAll (contents : List String) (h : ∀ content, P (.stream content)) :
    (streamAll contents).Forall P := by
  induction contents with
  | nil => exact Program.forall_pure _
  | cons content rest ih =>
      have hhead : (streamHandler content).Forall P := (Program.forall_perform _).mpr (h content)
      exact hhead.bind fun _ => ih

/-- The amount is the negated number of tokens; it never wraps. -/
theorem debit_toInt (usage : Usage) : (debit usage).toInt = -usage.totalTokens.toNat := by
  have htotal := usage.totalTokens.toNat_lt
  have hwide : usage.totalTokens.toUInt64 = UInt64.ofNat usage.totalTokens.toNat := by simp
  rw [debit, hwide, UInt64.toInt64_ofNat', Int64.toInt_neg_ofNat_of_le (by omega)]

/-- A call of a request about one conversation: it uses no other, what it publishes is a debit of
one of the `owners`, and it leaves the users alone. -/
def Call.Within (id : UUID) (owners : String → Prop) : Call → Prop
  | .getMessagesByConversationID other => other = id
  | .createMessage other _ _ => other = id
  | .updateTotalTokens other _ => other = id
  | .publish transaction => owners transaction.user ∧ transaction.tokens.toInt ≤ 0
  | .createUser _ => False
  | .saveUser _ => False
  | .updateUserTokens _ _ _ => False
  | .saveTransactionEvent _ => False
  | _ => True

variable {cfg : Config} {id : UUID} {owners : String → Prop} {model content : String}

theorem saveAndPublish_within {conversation : Conversation} {user : User}
    {received : List StreamChatCompletionResponse} (howner : owners user.publicKey) :
    (saveAndPublish id content conversation user received).Forall (Call.Within id owners) := by
  unfold saveAndPublish
  split
  · exact Program.forall_pure _
  rename_i usage _
  split
  · exact Program.forall_pure _
  refine forall_attempt ((Program.forall_perform _).mpr rfl) fun _ => ?_
  refine forall_attempt ((Program.forall_perform _).mpr rfl) fun answer => ?_
  have hdebit : (debit usage).toInt ≤ 0 := by
    rw [debit_toInt]
    omega
  apply Program.Forall.bind ((Program.forall_perform _).mpr ⟨howner, hdebit⟩)
  intro _
  exact Program.Forall.bind ((Program.forall_perform _).mpr rfl) fun _ => Program.forall_pure _

theorem callChat_within {messages : List Message} {conversation : Conversation} {user : User}
    (howner : owners user.publicKey) :
    (callChat cfg id model content messages conversation user).Forall (Call.Within id owners) := by
  unfold callChat
  split
  · exact Program.forall_pure _
  split
  · exact Program.forall_pure _
  apply Program.Forall.bind ((Program.forall_perform _).mpr trivial)
  intro upstream
  cases upstream with
  | none => exact Program.forall_pure _
  | some upstream =>
      apply Program.Forall.bind (forall_streamAll _ fun _ => trivial)
      intro _
      split
      · exact Program.forall_pure _
      · exact saveAndPublish_within howner

theorem addMessageAndCallChat_within (hall : ∀ publicKey, owners publicKey) :
    (addMessageAndCallChat cfg id model content).Forall (Call.Within id owners) := by
  refine forall_attempt ((Program.forall_perform _).mpr rfl) fun messages => ?_
  apply forall_attempt ((Program.forall_perform _).mpr trivial)
  intro conversation
  apply forall_attempt ((Program.forall_perform _).mpr trivial)
  intro user
  exact callChat_within (hall _)

theorem postMessages_within (ctx : GinContext) :
    (postMessages cfg ctx).Forall fun c => ∃ id, c.Within id fun _ => True := by
  unfold postMessages
  cases auth cfg ctx with
  | error e => exact Program.forall_pure _
  | ok ctx =>
      show (addMessage cfg ctx).Forall _
      unfold addMessage
      cases bindMessage cfg ctx.body with
      | none => exact Program.forall_pure _
      | some request =>
          exact (addMessageAndCallChat_within fun _ => trivial).mono fun c hc => ⟨_, hc⟩

/-- The debited user is the one read for the owner of the conversation. -/
theorem debited_user {transaction : Transaction}
    (h : .publish transaction ∈ (addMessageAndCallChat cfg id model content).calls answer) :
    ∃ conversation user, (getConversationByID id).eval answer = .ok conversation ∧
      (getUserByPublicKey conversation.userPubkey).eval answer = .ok user ∧
      transaction.user = user.publicKey := by
  rcases mem_calls_attempt.mp h with h | ⟨messages, -, h⟩
  · cases List.mem_singleton.mp h
  rcases mem_calls_attempt.mp h with h | ⟨conversation, hconversation, h⟩
  · cases List.mem_singleton.mp h
  rcases mem_calls_attempt.mp h with h | ⟨user, huser, h⟩
  · cases List.mem_singleton.mp h
  have hwithin : (Call.publish transaction).Within id (Eq user.publicKey) :=
    (callChat_within rfl).of_mem_calls answer h
  exact ⟨conversation, user, hconversation, huser, hwithin.1.symm⟩

end DsProxy.Backend
