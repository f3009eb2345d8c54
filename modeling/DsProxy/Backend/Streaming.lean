import DsProxy.Backend.Answer
import DsProxy.Lib.Blocks

/-!
# The response of `POST /messages`

What `AddMessage` of the message controller writes: an event for each content given to the stream
handler, and one for the answer. Events are written as gin writes them. Once an event has been
flushed the status is 200, whatever comes after it.
-/

namespace DsProxy.Backend

/-! ### JSON -/

/-- The texts of a time and of an error. -/
structure Format where
  time : ℕ → String
  error : Failure → String

def uuidText (id : UUID) : String :=
  let digits := Hex.encode id.toList
  String.ofList (digits.take 8 ++ '-' :: (digits.drop 8).take 4 ++ '-' :: (digits.drop 12).take 4 ++
    '-' :: (digits.drop 16).take 4 ++ '-' :: digits.drop 20)

def messageData (format : Format) (message : Message) : Json := Json.object [
  ("id", .num message.id), ("conversation_id", .str (uuidText message.conversationID)),
  ("role", .str message.role), ("content", .str message.content),
  ("created_at", .str (format.time message.createdAt))]

def contentData (content : String) : Json := Json.object [("content", .str content)]

/-- `SSEvent`, up to the blank line behind the event. -/
def sseEvent (name : String) (data : Json) : List Char :=
  "event:".toList ++ name.toList ++ '\n' :: ("data:".toList ++ (GoJson.print data).toList)

/-! ### The response -/

structure HttpResponse where
  status : ℕ
  body : List Char

def Failure.status : Failure → ℕ
  | .bind => 400
  | _ => 500

/-- The recovery from a panic writes no body. -/
def failureBody (format : Format) : Failure → List Char
  | .panic => []
  | e => (GoJson.print (Json.object [("error", .str (format.error e))])).toList

/-- The response for the contents streamed and the result of a run. -/
def addMessageResponse (format : Format) (contents : List String) :
    Except Failure Message → HttpResponse
  | .ok message => ⟨200, Blocks.join '\n' (
      contents.map (fun content => sseEvent "message" (contentData content)) ++
        [sseEvent "done" (messageData format message)])⟩
  | .error e => ⟨if contents = [] then e.status else 200,
      Blocks.join '\n' (contents.map fun content => sseEvent "message" (contentData content)) ++
        failureBody format e⟩

def Call.content? : Call → Option String
  | .stream content => some content
  | _ => none

def Call.Silent (c : Call) : Prop := c.content? = none

/-- The contents passed to the stream handler in a run. -/
def streamedBy {α : Type} (cfg : Config) (outcome : Call → Outcome) (p : Async α) (w : World) :
    List String :=
  (p.trace (fun c => respond cfg (outcome c) c) w).filterMap Call.content?

/-- The response to a request for which the controller runs `p`. -/
def serveMessage (cfg : Config) (format : Format) (outcome : Call → Outcome)
    (p : Async (Except Failure Message)) (w : World) : HttpResponse :=
  addMessageResponse format (streamedBy cfg outcome p w) (run cfg outcome p w).1

/-! ### What a run streams -/

section Streamed

variable {α β : Type} {cfg : Config} {outcome : Call → Outcome} {w w' : World}

theorem streamedBy_bind {p : Async α} {f : α → Async β} {a : α}
    (h : run cfg outcome p w = (a, w')) : streamedBy cfg outcome (p >>= f) w =
      streamedBy cfg outcome p w ++ streamedBy cfg outcome (f a) w' := by
  rw [run] at h
  rw [streamedBy, Program.trace_bind, h, List.filterMap_append]
  rfl

theorem silent_perform (c : Call) (h : c.Silent) :
    (Program.perform c : Async (Call.Answer c)).Forall Call.Silent :=
  (Program.forall_perform c).mpr h

theorem streamedBy_silent {p : Async α} (h : p.Forall Call.Silent) :
    streamedBy cfg outcome p w = [] :=
  List.filterMap_eq_nil_iff.mpr fun _ hc => h.of_mem_trace hc

theorem streamedBy_attempt_ok {query : Async (Except DbError α)}
    {next : α → Async (Except Failure β)} {a : α} (h : run cfg outcome query w = (.ok a, w'))
    (hsilent : query.Forall Call.Silent) :
    streamedBy cfg outcome (attempt query next) w = streamedBy cfg outcome (next a) w' := by
  rw [attempt, streamedBy_bind h, streamedBy_silent hsilent, List.nil_append]

theorem streamedBy_streamAll (contents : List String) :
    streamedBy cfg outcome (streamAll contents) w = contents := by
  induction contents with
  | nil => rfl
  | cons content rest ih => exact congrArg (content :: ·) ih

variable {id : UUID} {model content : String} {conversation : Conversation} {user : User}
  {received : List StreamChatCompletionResponse}

theorem saveAndPublish_silent :
    (saveAndPublish id content conversation user received).Forall Call.Silent := by
  unfold saveAndPublish
  split
  · exact Program.forall_pure _
  split
  · exact Program.forall_pure _
  refine forall_attempt (silent_perform (.createMessage _ _ _) rfl) fun _ => ?_
  refine forall_attempt (silent_perform (.createMessage _ _ _) rfl) fun answer => ?_
  apply Program.Forall.bind (silent_perform (.publish _) rfl)
  intro _
  apply Program.Forall.bind (silent_perform (.updateTotalTokens _ _) rfl)
  intro _
  exact Program.forall_pure _

/-- The handler gets the contents that have been received, once each and in their order. -/
theorem Answered.streamedBy_eq
    (h : Answered cfg outcome w id model content conversation user received) :
    streamedBy cfg outcome (addMessageAndCallChat cfg id model content) w = streamed received := by
  obtain ⟨lines, rfl, hlines⟩ := h.complete
  have hstreamed : run cfg outcome (streamAll (streamed (responses cfg.decodeChunk lines))) w =
    ((), w) := run_streamAll _
  rw [addMessageAndCallChat,
    streamedBy_attempt_ok h.run_history (silent_perform (.getMessagesByConversationID _) rfl),
    streamedBy_attempt_ok h.run_conversation (silent_perform (.getConversationByID _) rfl),
    streamedBy_attempt_ok h.run_user (silent_perform (.getUserByPublicKey _) rfl)]
  rw [callChat, if_neg h.room, if_neg h.funded]
  apply (streamedBy_bind (run_createChatCompletionStream hlines)).trans
  apply (streamedBy_bind hstreamed).trans
  rw [streamedBy_streamAll]
  apply (congrArg (_ ++ ·) (streamedBy_silent saveAndPublish_silent)).trans
  rw [List.append_nil]

/-- A run that returns a message has stored it, with all that was streamed as its content. -/
theorem stored_of_run {answer : Message}
    (h : run cfg outcome (addMessageAndCallChat cfg id model content) w = (.ok answer, w')) :
    answer.role = "assistant" ∧ answer ∈ w'.db.messages ∧
      answer.content = String.join
        (streamedBy cfg outcome (addMessageAndCallChat cfg id model content) w) := by
  rcases run_cases with ⟨e, herror⟩ | ⟨conversation, user, received, usage, hasked⟩
  · cases h.symm.trans herror
  cases hup : (outcome (.createMessage id "assistant" (fullResponse received))).unavailable with
  | true => cases h.symm.trans (hasked.run_torn hup)
  | false =>
      obtain ⟨hanswer, rfl⟩ := Prod.mk.inj (h.symm.trans (hasked.run_saved hup))
      obtain rfl := Except.ok.inj hanswer
      refine ⟨rfl, ?_, ?_⟩
      · rw [World.billed, messages_update]
        exact List.mem_append_right _ (List.mem_singleton_self _)
      · rw [hasked.toAnswered.streamedBy_eq]
        rfl

end Streamed

end DsProxy.Backend
