import DsProxy.Relay.Event
import Mathlib.Algebra.Group.Int.Defs
import Mathlib.Data.Int.Notation
import Mathlib.Data.List.Sort
import Mathlib.Logic.Function.Basic

/-!
# The database

The tables of `models/` and the queries of `dao/`. Unsigned columns are Postgres `bigint`s, so a row
can hold a value that its model cannot: an update leaves the range of `bigint` with an error, and a
negative value is an error only when it is read back into the model.
-/

namespace DsProxy.Backend

open Relay

abbrev UUID := Vector UInt8 16

inductive DbError
  | recordNotFound
  | outOfRange
  | duplicatedKey
  | unavailable
  deriving DecidableEq

/-- A row of `users`; its key is the unique `public_key`. -/
structure UserRow where
  tokens : ℤ
  tokensConsumed : ℤ
  deriving DecidableEq

/-- `models.User`, less its number in the table: nothing computes with it. -/
structure User where
  publicKey : String
  tokens : UInt64
  tokensConsumed : UInt64
  deriving DecidableEq

/-- A row of `conversations`; its key is the `id`. -/
structure ConversationRow where
  userPubkey : String
  totalTokens : ℤ
  deriving DecidableEq

/-- `models.Conversation`. -/
structure Conversation where
  id : UUID
  userPubkey : String
  totalTokens : UInt64
  deriving DecidableEq

/-- `models.Message`. -/
structure Message where
  id : ℕ
  conversationID : UUID
  role : String
  content : String
  createdAt : ℕ
  deriving DecidableEq

/-- `models.TransactionEvent`. -/
structure TransactionEvent where
  id : EventId
  user : String
  tokens : Int64
  createdAt : UInt64
  deriving DecidableEq

structure Db where
  users : String → Option UserRow
  conversations : UUID → Option ConversationRow
  messages : List Message
  transactionEvents : List TransactionEvent

/-- The range of a `bigint` column. -/
def InBigint (n : ℤ) : Prop := -2 ^ 63 ≤ n ∧ n < 2 ^ 63

instance (n : ℤ) : Decidable (InBigint n) := inferInstanceAs (Decidable (_ ∧ _))

/-- A column read into a `uint64` field. -/
def scanUint64 (n : ℤ) : Except DbError UInt64 :=
  if 0 ≤ n then .ok (UInt64.ofNat n.toNat) else .error .outOfRange

namespace Db

variable (db : Db)

/-! ### `dao/user.go` -/

def getUserByPublicKey (publicKey : String) : Except DbError User :=
  match db.users publicKey with
  | none => .error .recordNotFound
  | some row => do
    let tokens ← scanUint64 row.tokens
    let tokensConsumed ← scanUint64 row.tokensConsumed
    return ⟨publicKey, tokens, tokensConsumed⟩

def createUser (publicKey : String) : Except DbError (User × Db) :=
  match db.users publicKey with
  | some _ => .error .duplicatedKey
  | none =>
    .ok (⟨publicKey, 0, 0⟩, { db with users := Function.update db.users publicKey (some ⟨0, 0⟩) })

/-- `Save` writes every column of the model back. -/
def saveUser (user : User) : Except DbError Db :=
  if InBigint user.tokens.toNat ∧ InBigint user.tokensConsumed.toNat then
    let row : UserRow := ⟨user.tokens.toNat, user.tokensConsumed.toNat⟩
    .ok { db with users := Function.update db.users user.publicKey (some row) }
  else .error .outOfRange

/-- Updating no row is no error. -/
def updateUserTokens (publicKey : String) (tokensDelta consumedDelta : Int64) : Except DbError Db :=
  match db.users publicKey with
  | none => .ok db
  | some row =>
    let tokens := row.tokens + tokensDelta.toInt
    let tokensConsumed := row.tokensConsumed + consumedDelta.toInt
    if InBigint tokens ∧ InBigint tokensConsumed then
      .ok { db with users := Function.update db.users publicKey (some ⟨tokens, tokensConsumed⟩) }
    else .error .outOfRange

/-! ### `dao/conversation.go` -/

def getConversationByID (id : UUID) : Except DbError Conversation :=
  match db.conversations id with
  | none => .error .recordNotFound
  | some row => do
    let totalTokens ← scanUint64 row.totalTokens
    return ⟨id, row.userPubkey, totalTokens⟩

def createConversation (id : UUID) (userPubkey : String) : Except DbError Db :=
  match db.conversations id with
  | some _ => .error .duplicatedKey
  | none =>
    .ok { db with conversations := Function.update db.conversations id (some ⟨userPubkey, 0⟩) }

def updateTotalTokens (id : UUID) (totalTokens : UInt64) : Except DbError Db :=
  if InBigint totalTokens.toNat then
    let row := (db.conversations id).map fun row => { row with totalTokens := totalTokens.toNat }
    .ok { db with conversations := Function.update db.conversations id row }
  else .error .outOfRange

/-! ### `dao/message.go` and `dao/tx_event.go` -/

/-- Messages of one time come in the order in which they were inserted. -/
def getMessagesByConversationID (id : UUID) : List Message :=
  (db.messages.filter (·.conversationID = id)).insertionSort (·.createdAt ≤ ·.createdAt)

/-- The id comes from the sequence of the table, which all conversations share; the time from gorm's
clock. -/
def createMessage (id : UUID) (role content : String) (messageID now : ℕ) : Message × Db :=
  let message : Message := ⟨messageID, id, role, content, now⟩
  (message, { db with messages := db.messages ++ [message] })

def saveTransactionEvent (event : TransactionEvent) : Except DbError Db :=
  if db.transactionEvents.any (·.id = event.id) then .error .duplicatedKey
  else .ok { db with transactionEvents := db.transactionEvents ++ [event] }

/-- The newest second among the stored events, 0 when there is none. -/
def getLatestCreatedAt : ℕ :=
  db.transactionEvents.foldr (fun event latest => max event.createdAt.toNat latest) 0

end Db

/-! ### What the queries say -/

variable {db db' : Db}

theorem getUserByPublicKey_eq_ok {publicKey : String} {user : User}
    (h : db.getUserByPublicKey publicKey = .ok user) :
    user.publicKey = publicKey ∧ (db.users publicKey).isSome = true := by
  unfold Db.getUserByPublicKey at h
  split at h
  · cases h
  · rename_i row hrow
    rw [hrow]
    cases htokens : scanUint64 row.tokens with
    | error e =>
        rw [htokens] at h
        cases h
    | ok tokens =>
        cases hconsumed : scanUint64 row.tokensConsumed with
        | error e =>
            rw [htokens, hconsumed] at h
            cases h
        | ok consumed =>
            rw [htokens, hconsumed] at h
            cases h
            exact ⟨rfl, rfl⟩

theorem getConversationByID_eq_ok {id : UUID} {conversation : Conversation}
    (h : db.getConversationByID id = .ok conversation) :
    ∃ row, db.conversations id = some row ∧ conversation.userPubkey = row.userPubkey := by
  unfold Db.getConversationByID at h
  split at h
  · cases h
  · rename_i row hrow
    cases htotal : scanUint64 row.totalTokens with
    | error e =>
        rw [htotal] at h
        cases h
    | ok total =>
        rw [htotal] at h
        cases h
        exact ⟨row, hrow, rfl⟩

theorem totalTokens_of_getConversationByID {id : UUID} {conversation : Conversation}
    {row : ConversationRow} (h : db.getConversationByID id = .ok conversation)
    (hrow : db.conversations id = some row) :
    0 ≤ row.totalTokens ∧ conversation.totalTokens = UInt64.ofNat row.totalTokens.toNat := by
  unfold Db.getConversationByID at h
  rw [hrow] at h
  by_cases hnonneg : 0 ≤ row.totalTokens
  · have hscan : scanUint64 row.totalTokens = .ok (UInt64.ofNat row.totalTokens.toNat) :=
      if_pos hnonneg
    dsimp only at h
    rw [hscan] at h
    cases h
    exact ⟨hnonneg, rfl⟩
  · have hscan : scanUint64 row.totalTokens = .error .outOfRange := if_neg hnonneg
    dsimp only at h
    rw [hscan] at h
    cases h

theorem updateUserTokens_eq_ok {publicKey : String} {tokensDelta consumedDelta : Int64}
    (h : db.updateUserTokens publicKey tokensDelta consumedDelta = .ok db') (u : String) :
    db'.users u = (db.users u).map fun row =>
      if u = publicKey then
        ⟨row.tokens + tokensDelta.toInt, row.tokensConsumed + consumedDelta.toInt⟩
      else row := by
  unfold Db.updateUserTokens at h
  split at h
  · rename_i hnone
    cases h
    by_cases hu : u = publicKey
    · rw [hu, hnone, Option.map_none]
    · simp [hu]
  · rename_i row hrow
    dsimp only at h
    split at h
    · cases h
      by_cases hu : u = publicKey
      · simp [hu, hrow]
      · simp [hu]
    · cases h

end DsProxy.Backend
