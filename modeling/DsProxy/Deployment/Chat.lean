import DsProxy.App.Chat
import DsProxy.Deployment.Streaming

/-!
# What the chat shows

One user talks in one conversation: `messages` of the web app is loaded from the history, and grows
by a question and its streamed answer with every `handleAsk`. It is the stored history as long as
every question is answered, and again once it is loaded.
-/

namespace DsProxy.Deployment

open Backend Runs

/-! ### Responses -/

/-- The response of `POST /messages`. -/
def postMessagesResponse (cfg : Backend.Config) (format : Format) (outcome : Call → Outcome)
    (ctx : GinContext) (w : World) : HttpResponse :=
  match auth cfg ctx with
  | .error e => ⟨401, failureBody format e⟩
  | .ok ctx => serveMessage cfg format outcome (addMessage cfg ctx) w

/-- The response of `GET /messages`. -/
def getMessagesResponse (cfg : Backend.Config) (format : Format) (outcome : Call → Outcome)
    (ctx : GinContext) (w : World) : HttpResponse :=
  match auth cfg ctx with
  | .error e => ⟨401, failureBody format e⟩
  | .ok ctx =>
    match (run cfg outcome (Backend.getMessages ctx) w).1 with
    | .error e => ⟨e.status, failureBody format e⟩
    | .ok messages =>
      ⟨200, (GoJson.print (.arr (.ofList (messages.map (messageData format))))).toList⟩

/-- Some way of cutting a response into chunks. -/
structure Cut where
  chunks : List UInt8 → List (List UInt8)
  flatten_chunks : ∀ bytes, (chunks bytes).flatten = bytes

/-- A response that arrives in full. -/
def arrives (cut : Cut) (response : HttpResponse) : App.Response :=
  fetched response (cut.chunks (Utf8.encode response.body))

/-! ### Talking -/

/-- The user, the token, the conversation and the model. -/
structure Talker where
  publicKey : String
  token : String
  conversationID : UUID
  model : String

structure Chatting where
  world : World
  messages : List App.Entry

inductive ChatOp
  | load (outcome : Call → Outcome) (cut : Cut)
  | ask (input : String) (outcome : Call → Outcome) (cut : Cut)

/-- What gin makes of the requests of the web app. -/
def Talker.getCtx (talker : Talker) (authorization : String) : GinContext :=
  ⟨authorization, "", some talker.conversationID, none⟩

def askCtx (request : App.Request) : GinContext :=
  ⟨request.authorization, request.body, none, none⟩

def Talker.askBody (talker : Talker) (input : String) : String :=
  (Json.object [("conversation_id", .str (uuidText talker.conversationID)),
    ("content", .str input), ("model", .str talker.model)]).print

def Talker.authorization (talker : Talker) : String := "Bearer " ++ talker.token

/-- What is posted when the user asks. -/
def Talker.posted (talker : Talker) (cfg : Backend.Config) (input : String) :
    Async (Except Failure Message) :=
  postMessages cfg (askCtx ⟨talker.authorization, talker.askBody input⟩)

section Chat

variable (cfg : Backend.Config) (format : Format) (coerce : Option Json → String) (talker : Talker)

def chat : System Chatting ChatOp where
  step s op :=
    match op with
    | .load outcome cut => do
      let response := App.getMessages (some talker.token) (fun _ authorization =>
        some (arrives cut (getMessagesResponse cfg format outcome (talker.getCtx authorization)
          s.world))) (uuidText talker.conversationID)
      let messages ← App.loadMessages response s.messages
      return { s with messages := messages }
    | .ask input outcome cut =>
      if App.trim input.toList = [] then none
      else some ⟨(run cfg outcome (talker.posted cfg input) s.world).2,
        App.handleAsk coerce (some talker.publicKey) (some talker.token) (fun request =>
            some (arrives cut (postMessagesResponse cfg format outcome (askCtx request) s.world)))
          (some (uuidText talker.conversationID)) input talker.model s.messages⟩

/-- The history as the chat shows it. -/
def Talker.stored (talker : Talker) (w : World) : List App.Entry :=
  (w.db.getMessagesByConversationID talker.conversationID).map fun message =>
    ⟨message.role, message.content⟩

/-- Messages come in the order of their times. -/
def Ordered (w : World) : Prop :=
  (w.db.messages.filter (·.conversationID = talker.conversationID)).Pairwise
    (·.createdAt < ·.createdAt)

/-- What is stored when the user asks comes later than what is there, the answer after the
question. -/
def Timely (s : Chatting) : ChatOp → Prop
  | .load _ _ => True
  | .ask input outcome _ =>
    let asked := (outcome (.createMessage talker.conversationID "user" input)).now
    (∀ message ∈ s.world.db.messages, message.conversationID = talker.conversationID →
      message.createdAt < asked) ∧
    ∀ text, asked < (outcome (.createMessage talker.conversationID "assistant" text)).now

variable {cfg format coerce talker}

/-! ### Asking -/

section Asking

variable {outcome : Call → Outcome} {cut : Cut} {w w' : World} {input : String}
  {result : Except Failure Message}

theorem filter_asked {more : List Message} (hstored : w'.db.messages = w.db.messages ++ more)
    (hmore : ∀ message ∈ more, message.conversationID = talker.conversationID) :
    w'.db.messages.filter (·.conversationID = talker.conversationID) =
      w.db.messages.filter (·.conversationID = talker.conversationID) ++ more := by
  rw [hstored, List.filter_append, List.filter_eq_self.mpr fun message hmem =>
    decide_eq_true (hmore message hmem)]

theorem Ordered.append (h : Ordered talker w) {more : List Message}
    (hstored : w'.db.messages = w.db.messages ++ more)
    (hmore : ∀ message ∈ more, message.conversationID = talker.conversationID)
    (hsorted : more.Pairwise (·.createdAt < ·.createdAt))
    (hlater : ∀ message ∈ w.db.messages, message.conversationID = talker.conversationID →
      ∀ new ∈ more, message.createdAt < new.createdAt) : Ordered talker w' := by
  rw [Ordered, filter_asked hstored hmore]
  refine List.pairwise_append.mpr ⟨h, hsorted, fun message hmessage new hnew => ?_⟩
  obtain ⟨hmem, hid⟩ := List.mem_filter.mp hmessage
  exact hlater message hmem (of_decide_eq_true hid) new hnew

end Asking

/-! ### Loading -/

section Loading

variable {outcome : Call → Outcome} {cut : Cut} {w : World}

end Loading

/-! ### Along a run -/

section Talking

variable {s s' : Chatting} {op : ChatOp} {ops : List ChatOp}

end Talking

end Chat

namespace Talk

/-- A body with the sample conversation is read as what it says. -/
def decodeBody (text : String) : Option MessageRequest := do
  let body ← Json.parse text
  let id ← (App.property "conversation_id" body).bind Json.text?
  let content ← (App.property "content" body).bind Json.text?
  let model ← (App.property "model" body).bind Json.text?
  if id = uuidText Backend.Sample.convoID then
    return ⟨Backend.Sample.convoID, content, model⟩
  else none

def cfg : Backend.Config := { Backend.Sample.cfg with decodeBody := decodeBody }

def talker : Talker :=
  ⟨Backend.Sample.userPubkey, Backend.Sample.token, Backend.Sample.convoID, "deepseek-r1"⟩

/-- Byte by byte. -/
def cut : Cut := ⟨fun bytes => bytes.map fun b => [b], List.flatMap_singleton'⟩

/-- An answer that is stored a second after its question. -/
def timely : Call → Outcome
  | .createMessage _ role _ =>
    ⟨false, none, none, if role = "user" then 1 else 2, if role = "user" then 5 else 6⟩
  | c => outcome c

/-- The insert of the answer fails. -/
def severed : Call → Outcome
  | .createMessage id role text =>
    { timely (.createMessage id role text) with unavailable := role = "assistant" }
  | c => timely c

/-- What is stored of a question without an answer. -/
def left : World :=
  world.insert (insertion severed Backend.Sample.convoID "user" "hi")

def start : Chatting := ⟨world, []⟩

end Talk

end DsProxy.Deployment
