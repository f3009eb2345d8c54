import DsProxy.Backend.Models
import DsProxy.BalancePayment.Ed25519
import DsProxy.Lib.Json
import DsProxy.Lib.Program

/-!
# What the backend calls

The backend's requests run as programs over its database, the chat service and the relay. Each call
takes effect at once; whether it fails, what the chat service streams and where the relay stores an
event is the environment's choice. Text formats of other packages are fields of `Config`.
-/

namespace DsProxy.Backend

open Relay

/-! ### The chat service -/

structure Usage where
  promptTokens : UInt32
  completionTokens : UInt32
  totalTokens : UInt32
  deriving DecidableEq

/-- One chunk of a streamed response: the delta content of each choice, and the usage if present. -/
structure StreamChatCompletionResponse where
  choices : List String
  usage : Option Usage

structure RequestMessage where
  role : String
  content : String
  deriving DecidableEq

structure ChatCompletionRequest where
  model : String
  messages : List RequestMessage
  maxTokens : UInt32
  stream : Bool
  includeUsage : Bool
  deriving DecidableEq

/-- The lines the scanner yields, and whether it stopped with an error. -/
structure Upstream where
  lines : List String
  failed : Bool

/-! ### Messages on the relay -/

/-- `TransactionPayload`. -/
structure Transaction where
  user : String
  tokens : Int64
  deriving DecidableEq

/-- `DephyDsProxyMessage`, of which the backend reads and writes the transaction. -/
structure ProxyMessage where
  transaction : Option Transaction
  deriving DecidableEq

/-- The body of `POST /messages`. -/
structure MessageRequest where
  convoID : UUID
  content : String
  model : String
  deriving DecidableEq

structure Config where
  maxContextTokens : Int64
  session : String
  machinePubkey : String
  /-- The public key of the configured secret key, under which `Sign` publishes. -/
  pubkey : PublicKey
  since : UInt64
  crypto : BalancePayment.Crypto
  unmarshal : String → Option ProxyMessage
  marshal : ProxyMessage → String
  decodeChunk : String → Option StreamChatCompletionResponse
  decodeBody : String → Option MessageRequest
  /-- The claims of a token that parses and is valid under the configured secret. -/
  parseJWT : String → Option Json
  signJWT : String → Option String

/-! ### Calls -/

inductive Call
  | getUserByPublicKey (publicKey : String)
  | createUser (publicKey : String)
  | saveUser (user : User)
  | updateUserTokens (publicKey : String) (tokensDelta consumedDelta : Int64)
  | getConversationByID (id : UUID)
  | updateTotalTokens (id : UUID) (totalTokens : UInt64)
  | getMessagesByConversationID (id : UUID)
  | createMessage (id : UUID) (role content : String)
  | saveTransactionEvent (event : TransactionEvent)
  | createChatCompletionStream (request : ChatCompletionRequest)
  | stream (content : String)
  | publish (transaction : Transaction)
  deriving DecidableEq

/-- The chat service may refuse the request, the relay the event. -/
def Call.Answer : Call → Type
  | getUserByPublicKey _ => Except DbError User
  | createUser _ => Except DbError User
  | saveUser _ => Except DbError Unit
  | updateUserTokens _ _ _ => Except DbError Unit
  | getConversationByID _ => Except DbError Conversation
  | updateTotalTokens _ _ => Except DbError Unit
  | getMessagesByConversationID _ => Except DbError (List Message)
  | createMessage _ _ _ => Except DbError Message
  | saveTransactionEvent _ => Except DbError Unit
  | createChatCompletionStream _ => Option Upstream
  | stream _ => Unit
  | publish _ => Bool

abbrev Async := Program Call.Answer

/-- What the environment contributes to one call; an inserted message gets the id and the time. -/
structure Outcome where
  unavailable : Bool
  upstream : Option Upstream
  stamp : Option Stamp
  messageID : ℕ
  now : ℕ

structure World where
  db : Db
  relay : List Event

/-- The event of `PublishTransactionEvent`. -/
def transactionEvent (cfg : Config) (transaction : Transaction) (stamp : Stamp) : Event :=
  .posted cfg.pubkey cfg.session cfg.machinePubkey (cfg.marshal ⟨some transaction⟩) stamp

/-- A query that only reads. -/
def Outcome.read {α : Type} (outcome : Outcome) (result : Except DbError α) (w : World) :
    Except DbError α × World :=
  (if outcome.unavailable then .error .unavailable else result, w)

/-- A query that returns a value and changes the database. -/
def Outcome.write {α : Type} (outcome : Outcome) (result : Except DbError (α × Db)) (w : World) :
    Except DbError α × World :=
  if outcome.unavailable then (.error .unavailable, w)
  else match result with
    | .error e => (.error e, w)
    | .ok (a, db) => (.ok a, { w with db := db })

def respond (cfg : Config) (outcome : Outcome) : (c : Call) → World → Call.Answer c × World
  | .getUserByPublicKey publicKey, w => outcome.read (w.db.getUserByPublicKey publicKey) w
  | .createUser publicKey, w => outcome.write (w.db.createUser publicKey) w
  | .saveUser user, w => outcome.write ((w.db.saveUser user).map ((), ·)) w
  | .updateUserTokens publicKey tokensDelta consumedDelta, w =>
    outcome.write ((w.db.updateUserTokens publicKey tokensDelta consumedDelta).map ((), ·)) w
  | .getConversationByID id, w => outcome.read (w.db.getConversationByID id) w
  | .updateTotalTokens id totalTokens, w =>
    outcome.write ((w.db.updateTotalTokens id totalTokens).map ((), ·)) w
  | .getMessagesByConversationID id, w =>
    outcome.read (.ok (w.db.getMessagesByConversationID id)) w
  | .createMessage id role content, w =>
    outcome.write (.ok (w.db.createMessage id role content outcome.messageID outcome.now)) w
  | .saveTransactionEvent event, w =>
    outcome.write ((w.db.saveTransactionEvent event).map ((), ·)) w
  | .createChatCompletionStream _, w => (outcome.upstream, w)
  | .stream _, w => ((), w)
  | .publish transaction, w =>
    (outcome.stamp.isSome, { w with
      relay := w.relay ++ (outcome.stamp.map (transactionEvent cfg transaction)).toList })

/-! ### Calls by name -/

def getUserByPublicKey (publicKey : String) : Async (Except DbError User) :=
  Program.perform (Call.getUserByPublicKey publicKey)

def createUser (publicKey : String) : Async (Except DbError User) :=
  Program.perform (Call.createUser publicKey)

def saveUser (user : User) : Async (Except DbError Unit) := Program.perform (Call.saveUser user)

def updateUserTokens (publicKey : String) (tokensDelta consumedDelta : Int64) :
    Async (Except DbError Unit) :=
  Program.perform (Call.updateUserTokens publicKey tokensDelta consumedDelta)

def getConversationByID (id : UUID) : Async (Except DbError Conversation) :=
  Program.perform (Call.getConversationByID id)

def updateTotalTokens (id : UUID) (totalTokens : UInt64) : Async (Except DbError Unit) :=
  Program.perform (Call.updateTotalTokens id totalTokens)

def getMessagesByConversationID (id : UUID) : Async (Except DbError (List Message)) :=
  Program.perform (Call.getMessagesByConversationID id)

def createMessage (id : UUID) (role content : String) : Async (Except DbError Message) :=
  Program.perform (Call.createMessage id role content)

def saveTransactionEvent (event : TransactionEvent) : Async (Except DbError Unit) :=
  Program.perform (Call.saveTransactionEvent event)

def createChatCompletionStream (request : ChatCompletionRequest) : Async (Option Upstream) :=
  Program.perform (Call.createChatCompletionStream request)

def streamHandler (content : String) : Async Unit := Program.perform (Call.stream content)

def publishTransactionEvent (user : String) (tokens : Int64) : Async Bool :=
  Program.perform (Call.publish ⟨user, tokens⟩)

end DsProxy.Backend
