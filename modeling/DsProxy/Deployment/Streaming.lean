import DsProxy.App.Services
import DsProxy.Backend.Streaming

/-!
# What the user sees

The web app's `addMessage` at the end of the backend's response, for every way of cutting the bytes
of the response into chunks: the handler is shown what the chat service has streamed, and the
message returned is the one that has been stored.
-/

namespace DsProxy.Deployment

open Backend

/-! ### One event -/

section Event

variable {data : Json} {members : Json.Members}

theorem notMem_print (c : Char) (hc : c.toNat < 32) : c ∉ (GoJson.print data).toList := by
  intro hmem
  have hprintable := (GoJson.printable_print data c hmem).1
  omega

theorem complete_sseEvent {name : String} (hname : '\n' ∉ "event:".toList ++ name.toList) :
    Blocks.Complete '\n' (sseEvent name data) := by
  have hline : '\n' ∉ "data:".toList ++ (GoJson.print data).toList := by
    rw [List.mem_append, not_or]
    exact ⟨by decide, notMem_print '\n' (by decide)⟩
  exact Blocks.complete_append hname (by decide) (Blocks.complete_line hline)

theorem trim_sseEvent (name : String) :
    App.trim (sseEvent name (.obj members)) = sseEvent name (.obj members) := by
  obtain ⟨inner, hprint⟩ := GoJson.print_obj members
  have hends : sseEvent name (.obj members) =
      'e' :: (("vent:".toList ++ name.toList ++ '\n' :: ("data:".toList ++ '{' :: inner)) ++
        ['}']) := by
    unfold sseEvent
    rw [hprint]
    simp
  rw [hends]
  exact App.trim_eq (by decide) (by decide)

theorem dataMatch_data : App.dataMatch ("data:".toList ++ (GoJson.print (.obj members)).toList) =
    some (GoJson.print (.obj members)).toList := by
  obtain ⟨inner, hprint⟩ := GoJson.print_obj members
  rw [hprint]
  apply App.dataMatch_eq
  intro c hc
  have hmem : c ∈ (GoJson.print (.obj members)).toList := by
    rw [hprint]
    exact List.mem_cons_of_mem _ (List.mem_append_left _ hc)
  obtain ⟨hprintable, hline, hparagraph⟩ := GoJson.printable_print _ c hmem
  have hfeed : c ≠ '\n' := by
    intro heq
    subst heq
    exact absurd hprintable (by decide)
  have hreturn : c ≠ '\r' := by
    intro heq
    subst heq
    exact absurd hprintable (by decide)
  simp [App.isLineTerminator, hfeed, hreturn, hline, hparagraph]

theorem dataMatch_message : App.dataMatch (sseEvent "message" (.obj members)) =
    some (GoJson.print (.obj members)).toList := by
  have hevent : sseEvent "message" (.obj members) =
      'e' :: 'v' :: 'e' :: 'n' :: 't' :: ':' :: 'm' :: 'e' :: 's' :: 's' :: 'a' :: 'g' :: 'e' ::
        '\n' :: ("data:".toList ++ (GoJson.print (.obj members)).toList) := rfl
  rw [hevent]
  iterate 14 rw [App.dataMatch_cons rfl]
  exact dataMatch_data

theorem dataMatch_done : App.dataMatch (sseEvent "done" (.obj members)) =
    some (GoJson.print (.obj members)).toList := by
  have hevent : sseEvent "done" (.obj members) =
      'e' :: 'v' :: 'e' :: 'n' :: 't' :: ':' :: 'd' :: 'o' :: 'n' :: 'e' ::
        '\n' :: ("data:".toList ++ (GoJson.print (.obj members)).toList) := rfl
  rw [hevent]
  iterate 11 rw [App.dataMatch_cons rfl]
  exact dataMatch_data

theorem parse_data : Json.parse (String.ofList (GoJson.print data).toList) = some data := by
  rw [String.ofList_toList, GoJson.parse_print]

theorem onEvent_message (s : App.Reading) (content : String) :
    App.onEvent s (sseEvent "message" (contentData content)) =
      .ok ({ s with handled := s.handled ++ [some (.str content)] }, false) := by
  have hdone : App.startsWith (sseEvent "message" (contentData content)) "event:done" = false := rfl
  have hmessage : App.startsWith (sseEvent "message" (contentData content)) "event:message" =
    true := rfl
  have hproperty : App.property "content" (contentData content) = some (.str content) := rfl
  have hdata : App.dataMatch (sseEvent "message" (contentData content)) =
    some (GoJson.print (contentData content)).toList := dataMatch_message
  have htrim : App.trim (sseEvent "message" (contentData content)) =
    sseEvent "message" (contentData content) := trim_sseEvent "message"
  rw [App.onEvent, htrim, if_neg (by simp [hdone]), if_pos hmessage, hdata]
  dsimp only
  rw [parse_data]
  dsimp only
  rw [hproperty]

theorem onEvent_done (s : App.Reading) (format : Format) (message : Message) :
    App.onEvent s (sseEvent "done" (messageData format message)) =
      .ok ({ s with doneMessage := some (messageData format message) }, true) := by
  have hdone : App.startsWith (sseEvent "done" (messageData format message)) "event:done" =
    true := rfl
  have hdata : App.dataMatch (sseEvent "done" (messageData format message)) =
    some (GoJson.print (messageData format message)).toList := dataMatch_done
  have htrim : App.trim (sseEvent "done" (messageData format message)) =
    sseEvent "done" (messageData format message) := trim_sseEvent "done"
  rw [App.onEvent, htrim, if_pos hdone, hdata]
  dsimp only
  rw [parse_data]

end Event

/-! ### The response -/

section Response

variable {cfg : Backend.Config} {format : Format} {outcome : Call → Outcome} {id : UUID}
  {model content : String} {w w' : World} {answer : Message} {contents : List String}
  {chunks : List (List UInt8)}

/-- Each content is handed on as it comes; the round ends at the last event. -/
theorem handled_response (handled : List (Option Json)) : Blocks.Handled '\n' App.onEvent
    ⟨handled, none⟩ (contents.map (fun content => sseEvent "message" (contentData content)) ++
      [sseEvent "done" (messageData format answer)])
    ⟨handled ++ contents.map fun content => some (.str content),
      some (messageData format answer)⟩ := by
  induction contents generalizing handled with
  | nil =>
      rw [List.map_nil, List.map_nil, List.append_nil]
      exact .last (complete_sseEvent (by decide)) (onEvent_done _ _ _)
  | cons content rest ih =>
      have hrest := ih (handled ++ [some (.str content)])
      rw [List.append_assoc] at hrest
      exact .next (complete_sseEvent (by decide)) (onEvent_message _ _) hrest

theorem head_response :
    (addMessageResponse format contents (.ok answer)).body.head? = some 'e' := by
  cases contents with
  | nil => rfl
  | cons content rest => rfl

/-- The response as `fetch` hands it on. -/
def fetched (response : HttpResponse) (chunks : List (List UInt8)) : App.Response where
  ok := 200 ≤ response.status && response.status ≤ 299
  json := Json.parse (String.ofList response.body)
  body := some ⟨chunks, false⟩

theorem json_fetched {status : ℕ} {data : Json} {chunks : List (List UInt8)} :
    (fetched ⟨status, (GoJson.print data).toList⟩ chunks).json = some data := by
  rw [fetched, String.ofList_toList, GoJson.parse_print]

theorem readStream_response
    (hchunks : chunks.flatten =
      Utf8.encode (addMessageResponse format contents (.ok answer)).body) :
    App.readStream .new ⟨[], none⟩ [] chunks =
      .ok (⟨contents.map fun content => some (.str content), some (messageData format answer)⟩,
        []) := by
  have hmark : (addMessageResponse format contents (.ok answer)).body.head? ≠
      some Utf8.byteOrderMark := by
    rw [head_response]
    decide
  rw [App.readStream_eq]
  exact (handled_response []).feed (Utf8.decodeAll_encode hchunks hmark)

/-- The user sees what is saved: whatever the chat service has streamed and however the response is
cut, the handler gets the contents one by one, together they are the content of the stored answer,
and the stored answer is what `addMessage` returns. -/
theorem shown_is_saved (format : Format) (token : String)
    (hrun : run cfg outcome (addMessageAndCallChat cfg id model content) w = (.ok answer, w'))
    (hchunks : chunks.flatten = Utf8.encode (serveMessage cfg format outcome
      (addMessageAndCallChat cfg id model content) w).body) :
    let contents := streamedBy cfg outcome (addMessageAndCallChat cfg id model content) w
    App.addMessage (some token) (fun _ => some (fetched (serveMessage cfg format outcome
        (addMessageAndCallChat cfg id model content) w) chunks)) (uuidText id) content model =
      (contents.map fun content => some (.str content), .data (messageData format answer)) ∧
    String.join contents = answer.content ∧ answer.role = "assistant" ∧
      answer ∈ w'.db.messages := by
  intro contents
  obtain ⟨hrole, hstored, hcontent⟩ := stored_of_run hrun
  have hserved : serveMessage cfg format outcome (addMessageAndCallChat cfg id model content) w =
      addMessageResponse format contents (.ok answer) := by
    rw [serveMessage, hrun]
  rw [hserved] at hchunks
  refine ⟨?_, hcontent.symm, hrole, hstored⟩
  have hok : (fetched (addMessageResponse format contents (.ok answer)) chunks).ok = true := rfl
  have hbody : (fetched (addMessageResponse format contents (.ok answer)) chunks).body =
    some ⟨chunks, false⟩ := rfl
  rw [hserved, App.addMessage]
  dsimp only
  rw [if_pos hok, hbody]
  dsimp only
  rw [readStream_response hchunks]
  rfl

end Response

/-! ### Contents that look like events -/

namespace Talk

def delta (content : String) : Json := Json.object [
  ("choices", .arr (Json.Items.ofList [Json.object [
    ("delta", Json.object [("content", .str content)])]])), ("usage", .null)]

def first : String := "one\n\n"
def second : String := "event:done\ndata:\x7b\"\x7d\n\n"

def lines : List String := [
  "data: " ++ (delta first).print, "data: " ++ (delta second).print,
  "data: " ++ Backend.Sample.chunk.print, "data: [DONE]"]

def received : List StreamChatCompletionResponse :=
  [⟨[first], none⟩, ⟨[second], none⟩, ⟨[], some Backend.Sample.usage⟩]

theorem responses_lines : responses Backend.Sample.cfg.decodeChunk lines = received := by
  have hfirst : GoJson.toChunk (delta first) = some ⟨[first], none⟩ := rfl
  have hsecond : GoJson.toChunk (delta second) = some ⟨[second], none⟩ := rfl
  have hchunk : GoJson.toChunk Backend.Sample.chunk = some ⟨[], some Backend.Sample.usage⟩ := rfl
  apply (responses_print hfirst _).trans
  rw [responses_print hsecond, responses_print hchunk]
  rfl

def outcome : Call → Outcome
  | .createChatCompletionStream _ => ⟨false, some ⟨lines, false⟩, none, 0, 0⟩
  | .createMessage _ role _ => ⟨false, none, none, if role = "user" then 1 else 2, 1735000000⟩
  | _ => Backend.Sample.published

def world : World := ⟨Backend.Sample.holding 500 [], []⟩

theorem asked : Asked Backend.Sample.cfg outcome world Backend.Sample.convoID "deepseek-r1" "hi"
    Backend.Sample.conversation (Backend.Sample.user 500) received Backend.Sample.usage where
  history := rfl
  reached := rfl
  conversation_eq := rfl
  owned := rfl
  user_eq := Backend.Sample.user_holding
  room := by decide
  funded := by decide
  complete := ⟨lines, responses_lines.symm, rfl⟩
  usage_eq := rfl
  valid := by decide
  stored := rfl

/-- The stored answer. -/
def answer : Message :=
  ⟨2, Backend.Sample.convoID, "assistant", String.join [first, second], 1735000000⟩

theorem streamed_received : streamed received = [first, second] := by
  have hfirst : first ≠ "" := by decide
  have hsecond : second ≠ "" := by decide
  simp [streamed, received, hfirst, hsecond]

theorem streamedBy_asked : streamedBy Backend.Sample.cfg outcome
    (addMessageAndCallChat Backend.Sample.cfg Backend.Sample.convoID "deepseek-r1" "hi") world =
      [first, second] :=
  asked.toAnswered.streamedBy_eq.trans streamed_received

theorem insertion_answer : insertion outcome Backend.Sample.convoID "assistant"
    (fullResponse received) = answer := by
  rw [fullResponse, streamed_received]
  rfl

def format : Format := ⟨fun _ => "2024-12-24T00:26:40Z", fun _ => "record not found"⟩

def served : HttpResponse := serveMessage Backend.Sample.cfg format outcome
  (addMessageAndCallChat Backend.Sample.cfg Backend.Sample.convoID "deepseek-r1" "hi") world

end Talk

/-- Two contents with blank lines and the words of an event in them, sent byte by byte. -/
theorem shown_is_saved_talk :
    App.addMessage (some Backend.Sample.token)
        (fun _ => some (fetched Talk.served ((Utf8.encode Talk.served.body).map fun b => [b])))
        (uuidText Backend.Sample.convoID) "hi" "deepseek-r1" =
      ([some (.str Talk.first), some (.str Talk.second)],
        .data (messageData Talk.format Talk.answer)) ∧
    String.join [Talk.first, Talk.second] = Talk.answer.content := by
  have hrun := Talk.asked.run_saved rfl
  rw [Talk.insertion_answer] at hrun
  obtain ⟨hshown, hjoin, -⟩ := shown_is_saved Talk.format Backend.Sample.token hrun
    (List.flatMap_singleton' (Utf8.encode Talk.served.body))
  rw [Talk.streamedBy_asked] at hshown hjoin
  exact ⟨hshown, hjoin⟩

end DsProxy.Deployment
