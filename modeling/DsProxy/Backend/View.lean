import DsProxy.Backend.Service

/-!
# What belongs to a user

The row of a user, and the conversations whose ids are meant for the user, with their messages. A
query made for a user is answered by these alone, and leaves what belongs to another as it was. Only
the ids of the messages come from a sequence that all users share.
-/

namespace DsProxy.Backend

open Relay Program

/-! ### What belongs to a user -/

/-- A message but for its id. -/
def Message.unnumbered (message : Message) : Message := { message with id := 0 }

/-- The rows of one user, the messages without their ids. -/
@[ext] structure View where
  user : Option UserRow
  conversations : UUID → Option ConversationRow
  messages : List Message

def Db.view (owner : UUID → String) (p : String) (db : Db) : View where
  user := db.users p
  conversations id := if owner id = p then db.conversations id else none
  messages :=
    (db.messages.filter fun message => owner message.conversationID = p).map Message.unnumbered

/-- Each conversation is the one of the user its id is meant for. -/
def Db.Owned (owner : UUID → String) (db : Db) : Prop :=
  ∀ id row, db.conversations id = some row → row.userPubkey = owner id

/-- A call that keeps to what belongs to `u`; any conversation may be looked up. -/
def Call.Own (owner : UUID → String) (u : String) : Call → Prop
  | .getUserByPublicKey publicKey | .createUser publicKey => publicKey = u
  | .saveUser user => user.publicKey = u
  | .updateTotalTokens id _ | .getMessagesByConversationID id | .createMessage id _ _ =>
    owner id = u
  | .updateUserTokens _ _ _ | .saveTransactionEvent _ => False
  | .getConversationByID _ | .createChatCompletionStream _ | .stream _ | .publish _ => True

/-- Two answers to a user are the same, but for the ids of messages; about the conversation of
another only its owner is. -/
def Call.Same (owner : UUID → String) (u : String) : (c : Call) → c.Answer → c.Answer → Prop
  | .getUserByPublicKey publicKey, a, b | .createUser publicKey, a, b =>
    a = b ∧ ∀ user, a = .ok user → user.publicKey = publicKey
  | .getConversationByID id, a, b => (owner id = u → a = b) ∧
    (∀ conversation, a = .ok conversation → conversation.userPubkey = owner id) ∧
    ∀ conversation, b = .ok conversation → conversation.userPubkey = owner id
  | .getMessagesByConversationID _, a, b =>
    Except.map (List.map Message.unnumbered) a = Except.map (List.map Message.unnumbered) b
  | .createMessage _ _ _, a, b => Except.map Message.unnumbered a = Except.map Message.unnumbered b
  | .saveUser _, a, b | .updateUserTokens _ _ _, a, b | .updateTotalTokens _ _, a, b
  | .saveTransactionEvent _, a, b | .createChatCompletionStream _, a, b | .stream _, a, b
  | .publish _, a, b => a = b

/-- The environment contributes the same to a call, except that the sequence of the messages may
have come further. -/
def Outcome.Resembles (outcome outcome' : Outcome) : Prop :=
  ∃ messageID, outcome' = { outcome with messageID := messageID }

theorem Outcome.Resembles.refl (outcome : Outcome) : outcome.Resembles outcome :=
  ⟨outcome.messageID, rfl⟩

/-! ### The queries -/

section Queries

variable {cfg : Config} {owner : UUID → String} {p u : String} {db db' : Db} {outcome : Outcome}
  {w w' : World}

variable (owner u) in
/-- Queries that say the same of two databases, and do the same to what belongs to `u`. -/
structure SameQuery {α : Type} (result result' : Except DbError (α × Db)) : Prop where
  answer : result.map Prod.fst = result'.map Prod.fst
  view : ∀ {a db a' db'}, result = .ok (a, db) → result' = .ok (a', db') →
    db.view owner u = db'.view owner u

variable (outcome) in
theorem SameQuery.write {α : Type} {result result' : Except DbError (α × Db)}
    (h : SameQuery owner u result result') (hview : w.db.view owner u = w'.db.view owner u) :
    (outcome.write result w).1 = (outcome.write result' w').1 ∧
      (outcome.write result w).2.db.view owner u =
        (outcome.write result' w').2.db.view owner u := by
  unfold Outcome.write
  split_ifs
  · exact ⟨rfl, hview⟩
  · cases result with
    | error e =>
        cases result' with
        | error e' =>
            obtain rfl : e = e' := Except.error.inj h.answer
            exact ⟨rfl, hview⟩
        | ok result' => cases h.answer
    | ok result =>
        cases result' with
        | error e' => cases h.answer
        | ok result' =>
            have hvalue : result.1 = result'.1 := Except.ok.inj h.answer
            exact ⟨congrArg Except.ok hvalue, h.view rfl rfl⟩

end Queries

/-! ### The calls -/

section Calls

variable {cfg : Config} {owner : UUID → String} {p u : String} {outcome : Outcome} {w w' : World}
  {c : Call}

end Calls

/-! ### The tables -/

section Tables

variable {cfg : Config} {owner : UUID → String} {p u : String} {outcome : Outcome}
  {w w' : Tables} {q : Query}

def Query.Own (owner : UUID → String) (u : String) : Query → Prop
  | .call c => c.Own owner u
  | .createConversation id userPubkey => owner id = u ∧ userPubkey = u
  | .getConversationsByUserPubkey userPubkey => userPubkey = u

def Query.Same (owner : UUID → String) (u : String) : (q : Query) → q.Answer → q.Answer → Prop
  | .call c, a, b => c.Same owner u a b
  | .createConversation _ _, a, b | .getConversationsByUserPubkey _, a, b => a = b

/-- The same belongs to `u` in both tables. -/
structure Tables.Alike (owner : UUID → String) (u : String) (w w' : Tables) : Prop where
  owned : w.db.Owned owner
  owned' : w'.db.Owned owner
  view : w.db.view owner u = w'.db.view owner u
  created : w.created.filter (fun entry => owner entry.1 = u) =
    w'.created.filter fun entry => owner entry.1 = u

theorem Tables.Alike.conversation (h : w.Alike owner u w') {id : UUID} (hid : owner id = u) :
    w.db.conversations id = w'.db.conversations id := by
  simpa [Db.view, hid] using congrFun (congrArg View.conversations h.view) id

end Tables

end DsProxy.Backend
