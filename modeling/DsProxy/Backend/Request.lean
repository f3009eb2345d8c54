import DsProxy.Backend.Answer

/-!
# What a request asks for and gets back

The two ends of the call of the chat service. The limit that goes out is computed through three
conversions, and the usage that comes in is dereferenced whether or not a chunk carried one.
-/

namespace DsProxy.Backend

/-! ### Streams that carry a usage -/

/-- The lines up to the end marker. -/
def linesRead (lines : List String) : List String := lines.takeWhile (· ≠ "data: [DONE]")

/-- A data line whose chunk parses and has a usage. -/
def CarriesUsage (decode : String → Option StreamChatCompletionResponse) (line : String) : Prop :=
  ∃ body response, line = "data: " ++ body ∧ decode body = some response ∧
    response.usage.isSome = true

section Lines

variable {decode : String → Option StreamChatCompletionResponse} {line : String}
  {lines : List String} {response : StreamChatCompletionResponse}

theorem responses_other (h : ∀ body, line ≠ "data: " ++ body) (rest : List String) :
    responses decode (line :: rest) = responses decode rest := by
  have hprefix : (!"data: ".toList.isPrefixOf line.toList) = true := by
    rw [Bool.not_eq_true', ← Bool.not_eq_true, List.isPrefixOf_iff_prefix]
    rintro ⟨body, hbody⟩
    apply h (String.ofList body)
    apply String.toList_inj.mp
    rw [String.toList_append, ← hbody]
    exact congrArg _ String.toList_ofList.symm
  rw [responses, if_pos (Or.inr hprefix)]

theorem data_inj {body body' : String} (h : "data: " ++ body = "data: " ++ body') :
    body = body' := by
  have hlist := congrArg String.toList h
  rw [String.toList_append, String.toList_append] at hlist
  exact String.toList_inj.mp (List.append_cancel_left hlist)

theorem linesRead_cons (h : line ≠ "data: [DONE]") (rest : List String) :
    linesRead (line :: rest) = line :: linesRead rest :=
  List.takeWhile_cons_of_pos (decide_eq_true h)

theorem mem_responses : response ∈ responses decode lines ↔
    ∃ body, "data: " ++ body ∈ linesRead lines ∧ decode body = some response := by
  induction lines with
  | nil => simp [responses, linesRead]
  | cons line rest ih =>
      by_cases hdata : ∃ body, line = "data: " ++ body
      · obtain ⟨body, rfl⟩ := hdata
        rw [responses_data]
        by_cases hdone : body = "[DONE]"
        · simp [hdone, linesRead]
        · have hne : "data: " ++ body ≠ "data: " ++ "[DONE]" := fun h => hdone (data_inj h)
          rw [if_neg hdone, linesRead_cons hne, List.mem_append, Option.mem_toList, ih]
          constructor
          · rintro (hdecode | ⟨other, hother, hdecode⟩)
            · exact ⟨body, List.mem_cons_self, hdecode⟩
            · exact ⟨other, List.mem_cons_of_mem _ hother, hdecode⟩
          · rintro ⟨other, hother, hdecode⟩
            rcases List.mem_cons.mp hother with hsame | hother
            · exact Or.inl (data_inj hsame ▸ hdecode)
            · exact Or.inr ⟨other, hother, hdecode⟩
      · push Not at hdata
        rw [responses_other hdata, ih, linesRead_cons (hdata "[DONE]")]
        constructor
        · rintro ⟨body, hbody, hdecode⟩
          exact ⟨body, List.mem_cons_of_mem _ hbody, hdecode⟩
        · rintro ⟨body, hbody, hdecode⟩
          rcases List.mem_cons.mp hbody with hsame | hbody
          · exact absurd hsame.symm (hdata body)
          · exact ⟨body, hbody, hdecode⟩

theorem finalUsage_eq_none {received : List StreamChatCompletionResponse} :
    finalUsage received = none ↔ ∀ response ∈ received, response.usage = none := by
  simp [finalUsage]

theorem finalUsage_responses_eq_none : finalUsage (responses decode lines) = none ↔
    ∀ line ∈ linesRead lines, ¬ CarriesUsage decode line := by
  rw [finalUsage_eq_none]
  constructor
  · rintro hnone line hline ⟨body, response, rfl, hdecode, husage⟩
    rw [hnone response (mem_responses.mpr ⟨body, hline, hdecode⟩)] at husage
    cases husage
  · intro hnone response hresponse
    obtain ⟨body, hline, hdecode⟩ := mem_responses.mp hresponse
    cases husage : response.usage with
    | none => rfl
    | some usage => exact absurd ⟨body, response, rfl, hdecode, by rw [husage]; rfl⟩ (hnone _ hline)

end Lines

/-! ### The usage is dereferenced -/

section Usageless

variable (cfg : Config) (outcome : Call → Outcome) (w : World) (id : UUID) (model content : String)

/-- The request has a usage with tokens and goes on to store its messages. -/
def Proceeds : Prop :=
  ∃ conversation user received usage,
    Answered cfg outcome w id model content conversation user received ∧
      finalUsage received = some usage ∧ 0 < usage.totalTokens.toNat ∧
      run cfg outcome (addMessageAndCallChat cfg id model content) w =
        run cfg outcome (attempt (createMessage id "user" content) fun _ =>
          saveAnswer id conversation user received usage) w

/-- The request proceeds, or it returns an error that is no panic and leaves the world as it was. -/
def Handled : Prop :=
  (∃ e, e ≠ .panic ∧
    run cfg outcome (addMessageAndCallChat cfg id model content) w = (.error e, w)) ∨
    Proceeds cfg outcome w id model content

/-- The stream is read without an error and no line carries a usage. -/
def Usageless : Prop :=
  ∃ conversation user lines,
    Answered cfg outcome w id model content conversation user (responses cfg.decodeChunk lines) ∧
      (outcome (.createChatCompletionStream
        (requestFor cfg w id model content conversation user))).upstream = some ⟨lines, false⟩ ∧
      ∀ line ∈ linesRead lines, ¬ CarriesUsage cfg.decodeChunk line

variable {cfg outcome w id model content} {conversation : Conversation} {user : User}
  {received : List StreamChatCompletionResponse}

theorem run_saveAndPublish_none (h : finalUsage received = none) :
    run cfg outcome (saveAndPublish id content conversation user received) w =
      (.error .panic, w) := by
  unfold saveAndPublish
  rw [h]
  rfl

theorem run_saveAndPublish_zero {usage : Usage} (h : finalUsage received = some usage)
    (hzero : usage.totalTokens = 0) :
    run cfg outcome (saveAndPublish id content conversation user received) w =
      (.error (.text "invalid usage data from chat API"), w) := by
  unfold saveAndPublish
  rw [h]
  dsimp only
  rw [if_pos hzero]
  rfl

theorem Answered.handled_iff (h : Answered cfg outcome w id model content conversation user
    received) : Handled cfg outcome w id model content ↔ finalUsage received ≠ none := by
  constructor
  · rintro (⟨e, hpanic, hrun⟩ | ⟨conversation', user', received', usage, h', husage, -, -⟩) hnone
    · rw [h.run_eq, run_saveAndPublish_none hnone] at hrun
      exact hpanic (Except.error.inj (congrArg Prod.fst hrun)).symm
    · obtain ⟨-, -, rfl⟩ := h.unique h'
      cases hnone.symm.trans husage
  · intro hsome
    obtain ⟨usage, husage⟩ := Option.ne_none_iff_exists'.mp hsome
    by_cases hzero : usage.totalTokens = 0
    · refine Or.inl ⟨.text "invalid usage data from chat API", by decide, ?_⟩
      rw [h.run_eq, run_saveAndPublish_zero husage hzero]
    · refine Or.inr ⟨_, _, _, usage, h, husage, ?_, ?_⟩
      · exact Nat.pos_of_ne_zero fun hnat => hzero (UInt32.toNat_inj.mp hnat)
      · rw [h.run_eq, saveAndPublish_eq husage hzero]

variable (cfg outcome w id model content) in
/-- Every stream is handled but the ones that come to their end without a usage. -/
theorem stream_handled_iff : Handled cfg outcome w id model content ↔
    ¬ Usageless cfg outcome w id model content := by
  constructor
  · rintro handled ⟨conversation, user, lines, answered, -, hnone⟩
    exact answered.handled_iff.mp handled (finalUsage_responses_eq_none.mpr hnone)
  · intro husage
    rcases refused_or_answered with hrefused | ⟨conversation, user, lines, answered, hlines⟩
    · exact Or.inl hrefused
    · refine answered.handled_iff.mpr fun hnone => husage ?_
      exact ⟨conversation, user, lines, answered, hlines, finalUsage_responses_eq_none.mp hnone⟩

end Usageless

namespace Sample

/-- The chat service answers with an empty body. -/
def silent : Call → Outcome
  | .createChatCompletionStream _ => ⟨false, some ⟨[], false⟩, none, 0, 0⟩
  | _ => done

theorem silent_answered : Answered cfg silent ⟨holding 500 [], []⟩ convoID "deepseek-r1" "hi"
    conversation (user 500) [] where
  history := rfl
  reached := rfl
  conversation_eq := rfl
  owned := rfl
  user_eq := user_holding
  room := by decide
  funded := by decide
  complete := ⟨[], rfl, rfl⟩

/-- The handler panics on an empty body. -/
theorem empty_body_panics :
    (run cfg silent (addMessageAndCallChat cfg convoID "deepseek-r1" "hi")
      ⟨holding 500 [], []⟩).1 = .error .panic ∧
    ¬ Handled cfg silent ⟨holding 500 [], []⟩ convoID "deepseek-r1" "hi" := by
  constructor
  · rw [silent_answered.run_eq, run_saveAndPublish_none rfl]
  · exact fun handled => silent_answered.handled_iff.mp handled rfl

end Sample

/-! ### The limit that goes out -/

/-- What is left of the context, as a number. -/
def room (cfg : Config) (conversation : Conversation) : ℤ :=
  cfg.maxContextTokens.toInt - conversation.totalTokens.toNat

section Limit

variable {cfg : Config} {conversation : Conversation} {user : User} {messages : List Message}
  {id : UUID} {model content : String} {answer : ∀ c, Call.Answer c}
  {request : ChatCompletionRequest}

/-- The remaining context wraps once it is below the range of an `int64`. -/
theorem toInt_remainingContextTokens (htotal : conversation.totalTokens.toNat < 2 ^ 63) :
    (remainingContextTokens cfg conversation).toInt =
      if room cfg conversation < -2 ^ 63 then room cfg conversation + 2 ^ 64
      else room cfg conversation := by
  have hlow := cfg.maxContextTokens.le_toInt
  have hhigh := cfg.maxContextTokens.toInt_lt
  have hsub : remainingContextTokens cfg conversation =
      cfg.maxContextTokens - conversation.totalTokens.toInt64 := by
    rw [remainingContextTokens, UInt64.toInt64_sub, Int64.toInt64_toUInt64]
  have hnat : conversation.totalTokens.toInt64.toInt = conversation.totalTokens.toNat := by
    have hofNat : (UInt64.ofNat conversation.totalTokens.toNat).toInt64 =
        Int64.ofNat conversation.totalTokens.toNat := UInt64.toInt64_ofNat'
    rw [UInt64.ofNat_toNat] at hofNat
    rw [hofNat, Int64.toInt_ofNat_of_lt htotal]
  rw [hsub, Int64.toInt_sub, hnat, Int.bmod_def, room]
  split_ifs <;> omega

theorem toNat_toUInt64_of_pos {n : Int64} (h : 1 ≤ n.toInt) : (n.toUInt64.toNat : ℤ) = n.toInt := by
  have hnonneg : 0 ≤ n := Int64.le_iff_toInt_le.mpr (by simp; omega)
  rw [Int64.toNat_toUInt64_of_le hnonneg, Int64.cast_toNatClampNeg n hnonneg]

/-- The two conversions to 32 bits cut off what is above them. -/
theorem toNat_maxTokens {remaining : Int64} (h : 1 ≤ remaining.toInt) :
    ((maxTokens remaining user).toNat : ℤ) =
      min remaining.toInt user.tokens.toNat % 2 ^ 32 := by
  have hwide := toNat_toUInt64_of_pos h
  unfold maxTokens
  split_ifs with hless
  · have hless := UInt64.lt_iff_toNat_lt.mp hless
    rw [UInt64.toNat_toUInt32, min_eq_right (by omega)]
    exact Int.natCast_mod _ _
  · have hless := mt UInt64.lt_iff_toNat_lt.mpr hless
    rw [UInt64.toNat_toUInt32, min_eq_left (by omega), ← hwide]
    exact Int.natCast_mod _ _

theorem saveAndPublish_chatless {received : List StreamChatCompletionResponse} :
    (saveAndPublish id content conversation user received).Forall fun c =>
      ∀ request, c ≠ .createChatCompletionStream request := by
  have hcall {c : Call} (h : ∀ request, c ≠ .createChatCompletionStream request) :
      (Program.perform c : Async (Call.Answer c)).Forall fun c =>
        ∀ request, c ≠ .createChatCompletionStream request := (Program.forall_perform _).mpr h
  unfold saveAndPublish
  split
  · exact Program.forall_pure _
  split
  · exact Program.forall_pure _
  refine forall_attempt (hcall fun _ => Call.noConfusion) fun _ => ?_
  refine forall_attempt (hcall fun _ => Call.noConfusion) fun answer => ?_
  apply Program.Forall.bind (hcall fun _ => Call.noConfusion)
  intro _
  exact Program.Forall.bind (hcall fun _ => Call.noConfusion) fun _ => Program.forall_pure _

theorem callChat_forall : (callChat cfg id model content messages conversation user).Forall fun c =>
    ∀ request, c = .createChatCompletionStream request →
      request = chatRequest cfg model content messages conversation user := by
  unfold callChat
  split
  · exact Program.forall_pure _
  split
  · exact Program.forall_pure _
  apply Program.Forall.bind ((Program.forall_perform _).mpr fun request h => by cases h; rfl)
  intro upstream
  cases upstream with
  | none => exact Program.forall_pure _
  | some upstream =>
      apply Program.Forall.bind (forall_streamAll _ fun _ _ h => by cases h)
      intro _
      split
      · exact Program.forall_pure _
      · exact saveAndPublish_chatless.mono fun c hc request h => absurd h (hc request)

theorem mem_calls_callChat : .createChatCompletionStream request ∈
    (callChat cfg id model content messages conversation user).calls answer ↔
      1 ≤ (remainingContextTokens cfg conversation).toInt ∧ 1 ≤ user.tokens.toNat ∧
        request = chatRequest cfg model content messages conversation user := by
  have hroom : remainingContextTokens cfg conversation < 1 ↔
      ¬ 1 ≤ (remainingContextTokens cfg conversation).toInt :=
    Int64.lt_iff_toInt_lt.trans Int.not_le.symm
  have hfunded : user.tokens < 1 ↔ ¬ 1 ≤ user.tokens.toNat :=
    UInt64.lt_iff_toNat_lt.trans Nat.not_le.symm
  constructor
  · intro hsent
    have hrequest := callChat_forall.of_mem_calls answer hsent request rfl
    by_cases h : remainingContextTokens cfg conversation < 1
    · rw [callChat, if_pos h] at hsent
      cases hsent
    by_cases h' : user.tokens < 1
    · rw [callChat, if_neg h, if_pos h'] at hsent
      cases hsent
    exact ⟨not_not.mp (mt hroom.mpr h), not_not.mp (mt hfunded.mpr h'), hrequest⟩
  · rintro ⟨h, h', rfl⟩
    rw [callChat, if_neg fun hlt => hroom.mp hlt h, if_neg fun hlt => hfunded.mp hlt h']
    exact List.mem_cons_self

end Limit

/-! ### When it is the minimum -/

section Bounded

variable (cfg : Config) (id : UUID) (model content : String) (answer : ∀ c, Call.Answer c)

/-- What the request has read when it comes to the checks. -/
structure HasRead (messages : List Message) (conversation : Conversation) (user : User) : Prop where
  history : (getMessagesByConversationID id).eval answer = .ok messages
  conversation_eq : (getConversationByID id).eval answer = .ok conversation
  user_eq : (getUserByPublicKey conversation.userPubkey).eval answer = .ok user

/-- A request goes out only when there is room and there are tokens, and its limit is the smaller
of the two, or the largest that fits. -/
def Bounded : Prop :=
  ∀ request, .createChatCompletionStream request ∈
      (addMessageAndCallChat cfg id model content).calls answer →
    ∃ messages conversation user, HasRead id answer messages conversation user ∧
      1 ≤ room cfg conversation ∧ 1 ≤ user.tokens.toNat ∧ 1 ≤ request.maxTokens.toNat ∧
      (request.maxTokens.toNat : ℤ) =
        min (min (room cfg conversation) user.tokens.toNat) (2 ^ 32 - 1)

/-- The context is overdrawn so far that it wraps, or the limit does not fit and is cut off to
another number than the largest. -/
def Misjudged (conversation : Conversation) (user : User) : Prop :=
  room cfg conversation < -2 ^ 63 ∨
    1 ≤ room cfg conversation ∧ 2 ^ 32 ≤ min (room cfg conversation) user.tokens.toNat ∧
      min (room cfg conversation) user.tokens.toNat % 2 ^ 32 ≠ 2 ^ 32 - 1

variable {cfg id model content answer} {messages : List Message} {conversation : Conversation}
  {user : User} {request : ChatCompletionRequest}

theorem mem_calls_addMessage : .createChatCompletionStream request ∈
    (addMessageAndCallChat cfg id model content).calls answer ↔
      ∃ messages conversation user, HasRead id answer messages conversation user ∧
        .createChatCompletionStream request ∈
          (callChat cfg id model content messages conversation user).calls answer := by
  constructor
  · intro hsent
    rcases mem_calls_attempt.mp hsent with h | ⟨messages, hmessages, hsent⟩
    · cases List.mem_singleton.mp h
    rcases mem_calls_attempt.mp hsent with h | ⟨conversation, hconversation, hsent⟩
    · cases List.mem_singleton.mp h
    rcases mem_calls_attempt.mp hsent with h | ⟨user, huser, hsent⟩
    · cases List.mem_singleton.mp h
    exact ⟨messages, conversation, user, ⟨hmessages, hconversation, huser⟩, hsent⟩
  · rintro ⟨messages, conversation, user, hread, hsent⟩
    refine mem_calls_attempt.mpr (Or.inr ⟨messages, hread.history, ?_⟩)
    refine mem_calls_attempt.mpr (Or.inr ⟨conversation, hread.conversation_eq, ?_⟩)
    exact mem_calls_attempt.mpr (Or.inr ⟨user, hread.user_eq, hsent⟩)

theorem HasRead.unique {messages' : List Message} {conversation' : Conversation} {user' : User}
    (h : HasRead id answer messages conversation user)
    (h' : HasRead id answer messages' conversation' user') :
    conversation' = conversation ∧ user' = user := by
  obtain rfl := Except.ok.inj (h'.conversation_eq.symm.trans h.conversation_eq)
  exact ⟨rfl, Except.ok.inj (h'.user_eq.symm.trans h.user_eq)⟩

/-- The wrapped difference is positive where it should not be. -/
theorem one_le_remaining_iff (htotal : conversation.totalTokens.toNat < 2 ^ 63) :
    1 ≤ (remainingContextTokens cfg conversation).toInt ↔
      room cfg conversation < -2 ^ 63 ∨ 1 ≤ room cfg conversation := by
  have hlow := cfg.maxContextTokens.le_toInt
  rw [toInt_remainingContextTokens htotal]
  unfold room
  split_ifs <;> omega

theorem toNat_maxTokens_of_room (user : User) (htotal : conversation.totalTokens.toNat < 2 ^ 63)
    (h : 1 ≤ room cfg conversation) :
    ((maxTokens (remainingContextTokens cfg conversation) user).toNat : ℤ) =
      min (room cfg conversation) user.tokens.toNat % 2 ^ 32 := by
  have hremaining : (remainingContextTokens cfg conversation).toInt = room cfg conversation := by
    rw [toInt_remainingContextTokens htotal, if_neg (by omega)]
  rw [toNat_maxTokens (hremaining.symm ▸ h), hremaining]

variable (cfg id model content answer) in
/-- The limit is the capped minimum unless the room wraps or the minimum is cut off. -/
theorem bounded_iff (htotal : ∀ conversation, (getConversationByID id).eval answer =
      .ok conversation → conversation.totalTokens.toNat < 2 ^ 63) :
    Bounded cfg id model content answer ↔
      ¬ ∃ messages conversation user, HasRead id answer messages conversation user ∧
        1 ≤ user.tokens.toNat ∧ Misjudged cfg conversation user := by
  constructor
  · rintro bounded ⟨messages, conversation, user, hread, hfunded, misjudged⟩
    have htotal := htotal conversation hread.conversation_eq
    have hpasses : 1 ≤ (remainingContextTokens cfg conversation).toInt :=
      (one_le_remaining_iff htotal).mpr (misjudged.imp (fun h => h) fun h => h.1)
    obtain ⟨messages', conversation', user', hread', hroom, -, -, hlimit⟩ := bounded _
      (mem_calls_addMessage.mpr ⟨messages, conversation, user, hread,
        mem_calls_callChat.mpr ⟨hpasses, hfunded, rfl⟩⟩)
    obtain ⟨rfl, rfl⟩ := hread.unique hread'
    have hcut := toNat_maxTokens_of_room user' htotal hroom
    rcases misjudged with hwraps | ⟨-, hwide, hother⟩
    · omega
    · exact hother (hcut.symm.trans (hlimit.trans (min_eq_right (by omega))))
  · intro hnone request hsent
    obtain ⟨messages, conversation, user, hread, hsent⟩ := mem_calls_addMessage.mp hsent
    obtain ⟨hpasses, hfunded, rfl⟩ := mem_calls_callChat.mp hsent
    have htotal := htotal conversation hread.conversation_eq
    have hright : ¬ Misjudged cfg conversation user := fun misjudged =>
      hnone ⟨messages, conversation, user, hread, hfunded, misjudged⟩
    have hroom : 1 ≤ room cfg conversation :=
      ((one_le_remaining_iff htotal).mp hpasses).resolve_left fun hwraps => hright (Or.inl hwraps)
    have hcut := toNat_maxTokens_of_room user htotal hroom
    have hsmall : min (room cfg conversation) (user.tokens.toNat : ℤ) % 2 ^ 32 =
        min (min (room cfg conversation) user.tokens.toNat) (2 ^ 32 - 1) := by
      by_contra hdiffers
      exact hright (Or.inr ⟨hroom, by omega, by omega⟩)
    have hlimit := hcut.trans hsmall
    refine ⟨messages, conversation, user, hread, hroom, hfunded, ?_, hlimit⟩
    show 1 ≤ (maxTokens (remainingContextTokens cfg conversation) user).toNat
    omega

end Bounded

namespace Sample

/-- A database that does not fail, in which everyone has as many tokens. -/
def rowsRead (tokens : ℤ) (c : Call) : Call.Answer c :=
  (respond cfg done c ⟨holding tokens [], []⟩).1

theorem hasRead_few : HasRead convoID (rowsRead 500) [] conversation (user 500) := ⟨rfl, rfl, rfl⟩

theorem hasRead_many : HasRead convoID (rowsRead 4294967296) [] conversation (user 4294967296) :=
  ⟨rfl, rfl, rfl⟩

/-- A context of `2 ^ 32` tokens. -/
def wide : Config := { cfg with maxContextTokens := 4294967296 }

end Sample

theorem bounded_iff_sample : Bounded Sample.cfg Sample.convoID "deepseek-r1" "hi"
    (Sample.rowsRead 500) := by
  refine (bounded_iff _ _ _ _ _ fun conversation hconversation => ?_).mpr ?_
  · obtain rfl := Except.ok.inj (Sample.hasRead_few.conversation_eq.symm.trans hconversation)
    decide
  · rintro ⟨messages, conversation, user, hread, -, misjudged⟩
    obtain ⟨rfl, rfl⟩ := Sample.hasRead_few.unique hread
    revert misjudged
    unfold Misjudged
    decide

/-- With a context and a balance of `2 ^ 32` tokens the limit that goes out is zero. -/
theorem limit_cut_to_zero :
    (∃ request, .createChatCompletionStream request ∈ (addMessageAndCallChat Sample.wide
      Sample.convoID "deepseek-r1" "hi").calls (Sample.rowsRead 4294967296) ∧
        request.maxTokens = 0) ∧
    ¬ Bounded Sample.wide Sample.convoID "deepseek-r1" "hi" (Sample.rowsRead 4294967296) := by
  have hsent : Call.createChatCompletionStream (chatRequest Sample.wide "deepseek-r1" "hi" []
      Sample.conversation (Sample.user 4294967296)) ∈ (addMessageAndCallChat Sample.wide
        Sample.convoID "deepseek-r1" "hi").calls (Sample.rowsRead 4294967296) :=
    mem_calls_addMessage.mpr ⟨_, _, _, Sample.hasRead_many,
      mem_calls_callChat.mpr ⟨by decide, by decide, rfl⟩⟩
  refine ⟨⟨_, hsent, by decide⟩, fun bounded => ?_⟩
  obtain ⟨_, _, _, -, -, -, hpos, -⟩ := bounded _ hsent
  revert hpos
  decide

end DsProxy.Backend
