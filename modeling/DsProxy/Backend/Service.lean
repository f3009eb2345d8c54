import DsProxy.Backend.Ownership
import DsProxy.Backend.Run

/-!
# The service

The six routes of `main.go`, each with its middleware, its controller and its logic down to the
queries, and what it answers. Requests are served side by side, query by query, while the listener
deals with whatever events the relay delivers.
-/

namespace DsProxy.Backend

open Relay Runs

/-! ### Queries -/

/-- The tables, with the `created_at` of the conversations. -/
structure Tables extends World where
  created : List (UUID × ℕ)

/-- The calls of the other routes, and the two queries of `dao/conversation.go` that they lack. -/
inductive Query
  | call (c : Call)
  | createConversation (id : UUID) (userPubkey : String)
  | getConversationsByUserPubkey (userPubkey : String)

def Query.Answer : Query → Type
  | call c => c.Answer
  | createConversation _ _ => Except DbError Conversation
  | getConversationsByUserPubkey _ => Except DbError (List Conversation)

abbrev Serving := Program Query.Answer

/-- The conversations of a user, newest first. -/
def Tables.getConversationsByUserPubkey (w : Tables) (userPubkey : String) :
    Except DbError (List Conversation) :=
  ((w.created.filter fun entry =>
      ((w.db.conversations entry.1).map ConversationRow.userPubkey) = some userPubkey).insertionSort
    fun a b => b.2 ≤ a.2).mapM fun entry => w.db.getConversationByID entry.1

def answer (cfg : Config) (outcome : Outcome) : (q : Query) → Tables → q.Answer × Tables
  | .call c, w =>
    ((respond cfg outcome c w.toWorld).1, { w with
      toWorld := (respond cfg outcome c w.toWorld).2 })
  | .createConversation id userPubkey, w =>
    if outcome.unavailable then (.error .unavailable, w)
    else match w.db.createConversation id userPubkey with
      | .error e => (.error e, w)
      | .ok db =>
        (.ok ⟨id, userPubkey, 0⟩,
          { w with db := db, created := w.created ++ [(id, outcome.now)] })
  | .getConversationsByUserPubkey userPubkey, w =>
    (if outcome.unavailable then .error .unavailable
      else w.getConversationsByUserPubkey userPubkey, w)

/-- The same program, among more calls. -/
def serving {α : Type} : Async α → Serving α
  | .ret a => .ret a
  | .call c next => .call (.call c) fun answer => serving (next answer)

/-! ### The routes -/

/-- What a route answers with a 200. -/
inductive Reply
  | session (user : User) (token : String)
  | user (user : User)
  | conversation (conversation : Conversation)
  | conversations (conversations : List Conversation)
  | message (message : Message)
  | messages (messages : List Message)

abbrev Result := Except Failure Reply

/-- `UserController.Login`, whose three fields are required. -/
def postLogin (cfg : Config) (userPubkey message signature : String) : Serving Result :=
  if userPubkey = "" ∨ message = "" ∨ signature = "" then return .error .bind
  else do
    let result ← serving (login cfg userPubkey message signature)
    return result.map fun session => .session session.1 session.2

/-- `UserController.GetUser`. -/
def getUser (ctx : GinContext) : Serving Result :=
  match extractUserPubkey ctx with
  | .error e => return .error e
  | .ok userPubkey => do
    match ← serving (getUserByPublicKey userPubkey) with
    | .error e => return .error (.db e)
    | .ok user => return .ok (.user user)

/-- `ConversationController.CreateConversation`; the id is the one that `uuid.New` draws. -/
def createConversation (ctx : GinContext) (id : UUID) : Serving Result :=
  match extractUserPubkey ctx with
  | .error e => return .error e
  | .ok userPubkey => do
    match ← Program.perform (Query.createConversation id userPubkey) with
    | .error e => return .error (.db e)
    | .ok conversation => return .ok (.conversation conversation)

/-- `ConversationController.GetConversations`: none for a user who is not there. -/
def getConversations (ctx : GinContext) : Serving Result :=
  match extractUserPubkey ctx with
  | .error e => return .error e
  | .ok userPubkey => do
    match ← serving (getUserByPublicKey userPubkey) with
    | .error .recordNotFound => return .ok (.conversations [])
    | .error e => return .error (.db e)
    | .ok _ =>
      match ← Program.perform (Query.getConversationsByUserPubkey userPubkey) with
      | .error e => return .error (.db e)
      | .ok conversations => return .ok (.conversations conversations)

inductive HttpRequest
  | login (userPubkey message signature : String)
  | getUser (ctx : GinContext)
  | createConversation (ctx : GinContext) (id : UUID)
  | getConversations (ctx : GinContext)
  | addMessage (ctx : GinContext)
  | getMessages (ctx : GinContext)

/-- `middleware.Auth` before a handler. -/
def authorised (cfg : Config) (ctx : GinContext) (handler : GinContext → Serving Result) :
    Serving Result :=
  match auth cfg ctx with
  | .error e => return .error e
  | .ok ctx => handler ctx

/-- The router. -/
def serve (cfg : Config) : HttpRequest → Serving Result
  | .login userPubkey message signature => postLogin cfg userPubkey message signature
  | .getUser ctx => authorised cfg ctx getUser
  | .createConversation ctx id => authorised cfg ctx fun ctx => createConversation ctx id
  | .getConversations ctx => authorised cfg ctx getConversations
  | .addMessage ctx => authorised cfg ctx fun ctx => do
    let result ← serving (addMessage cfg ctx)
    return result.map .message
  | .getMessages ctx => authorised cfg ctx fun ctx => do
    let result ← serving (getMessages ctx)
    return result.map .messages

structure Service extends Tables where
  sessions : ℕ → Option (Serving Result)

inductive ServiceOp
  | request (n : ℕ) (request : HttpRequest)
  | query (n : ℕ) (outcome : Outcome)
  | heard (event : Event) (outcome : Call → Outcome)

def service (cfg : Config) : System Service ServiceOp where
  step s op :=
    match op with
    | .request n request =>
      match s.sessions n with
      | some _ => none
      | none => some { s with sessions := Function.update s.sessions n (some (serve cfg request)) }
    | .query n outcome =>
      match s.sessions n with
      | some (.call q next) =>
        some ⟨(answer cfg outcome q s.toTables).2,
          Function.update s.sessions n (some (next (answer cfg outcome q s.toTables).1))⟩
      | _ => none
    | .heard event outcome => some { s with toWorld := heard cfg event outcome s.toWorld }

/-- The answer to a request, once it is there. -/
def Service.reply (s : Service) (n : ℕ) : Option Result :=
  match s.sessions n with
  | some (.ret result) => some result
  | _ => none

section Next

variable {cfg : Config} {s : Service} {n : ℕ}

theorem next_request_taken {program : Serving Result} {request : HttpRequest}
    (h : s.sessions n = some program) : (service cfg).next s (.request n request) = s :=
  System.next_of_refused (by simp only [service, h])

theorem next_request {request : HttpRequest} (h : s.sessions n = none) :
    (service cfg).next s (.request n request) =
      { s with sessions := Function.update s.sessions n (some (serve cfg request)) } :=
  System.next_of_step (by simp only [service, h])

theorem next_query {outcome : Outcome} {q : Query} {next : q.Answer → Serving Result}
    (h : s.sessions n = some (.call q next)) :
    (service cfg).next s (.query n outcome) = ⟨(answer cfg outcome q s.toTables).2,
      Function.update s.sessions n (some (next (answer cfg outcome q s.toTables).1))⟩ :=
  System.next_of_step (by simp only [service, h])

theorem next_query_idle {outcome : Outcome}
    (h : s.sessions n = none ∨ ∃ result, s.sessions n = some (.ret result)) :
    (service cfg).next s (.query n outcome) = s := by
  refine System.next_of_refused ?_
  rcases h with h | ⟨result, h⟩ <;> simp only [service, h]

end Next

namespace Sample

/-- The database answers. -/
def available : Outcome := ⟨false, none, none, 0, 0⟩

end Sample

end DsProxy.Backend
