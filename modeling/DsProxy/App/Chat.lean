import DsProxy.App.Services

/-!
# The chat of the web app

What `balance-payment-feature.tsx` shows of a conversation: `messages` is set from the service, a
question and an empty answer are put behind it at once, and the answer grows as it is streamed.
-/

namespace DsProxy.App

/-! ### `getMessages` -/

/-- The requests of `services/index.ts` whose response is read as a whole; `fetch` gets the header
of the authorisation. -/
def jsonRequest (fallback : String) (authData : Option String) (fetch : String → Option Response) :
    ApiResponse :=
  match authData with
  | none => .error (.str "No valid authentication data found, please login again")
  | some token =>
    match fetch ("Bearer " ++ token) with
    | none => .thrown
    | some response =>
      match response.json with
      | none => .thrown
      | some data => if response.ok then .data data else errorOr data fallback

def getUser : Option String → (String → Option Response) → ApiResponse :=
  jsonRequest "Failed to get user"

def createConversation : Option String → (String → Option Response) → ApiResponse :=
  jsonRequest "Failed to create conversation"

def getConversations : Option String → (String → Option Response) → ApiResponse :=
  jsonRequest "Failed to get conversations"

/-- The id is the query of the request. -/
def getMessages (authData : Option String) (fetch : String → String → Option Response)
    (conversationId : String) : ApiResponse :=
  jsonRequest "Failed to get messages" authData (fetch conversationId)

/-! ### `messages` -/

/-- A message as far as it is shown. -/
structure Entry where
  role : String
  content : String
  deriving DecidableEq

def toEntry (v : Json) : Option Entry :=
  match property "role" v, property "content" v with
  | some (.str role), some (.str content) => some ⟨role, content⟩
  | _, _ => none

def toEntries : Json → Option (List Entry)
  | .arr items => items.toList.mapM toEntry
  | _ => none

/-- `setMessages` after `getMessages`; `none` where the data is not the `Message[]` that it is
declared to be. -/
def loadMessages (response : ApiResponse) (messages : List Entry) : Option (List Entry) :=
  match response with
  | .data data => if truthy data then toEntries data else some messages
  | _ => some messages

/-- A value put behind a text; `coerce` is the text that JavaScript makes of other values. -/
def appendText (coerce : Option Json → String) (content : String) : Option Json → String
  | some (.str newContent) => content ++ newContent
  | value => content ++ coerce value

/-- The stream handler of `handleAsk`. -/
def onContent (coerce : Option Json → String) (messages : List Entry) (newContent : Option Json) :
    List Entry :=
  match messages.getLast? with
  | none => messages
  | some lastMessage =>
    if lastMessage.role = "assistant" then
      messages.dropLast ++
        [{ lastMessage with content := appendText coerce lastMessage.content newContent }]
    else messages

/-- `handleAsk`: `messages` when the response has been read. -/
def handleAsk (coerce : Option Json → String) (publicKey authData : Option String)
    (fetch : Request → Option Response) (conversationId : Option String) (input aiModel : String)
    (messages : List Entry) : List Entry :=
  if trim input.toList = [] then messages
  else match publicKey, conversationId with
    | some _, some conversationId =>
      (addMessage authData fetch conversationId input aiModel).1.foldl (onContent coerce)
        (messages ++ [⟨"user", input⟩, ⟨"assistant", ""⟩])
    | _, _ => messages

section Handler

variable {coerce : Option Json → String} {messages : List Entry}

end Handler

end DsProxy.App
