import DsProxy.Controller.Message
import DsProxy.Lib.Program

/-!
# The message handler

`update_machine` and `handle_message` of `node/message_handler.rs`. A charge, a relay publication
and a spawned timer are calls to the environment, made in the source's order; what `?` propagates is
an `error`, which stops the controller.
-/

namespace DsProxy.Controller

open Relay

def payAmount : UInt64 := 5000000
def tokensLamportsRatio : Int64 := 1

/-- What a controller is started with. -/
structure Config where
  session : String
  controllerPubkey : PublicKey
  adminPubkey : PublicKey
  machinePubkeys : List PublicKey
  startedAt : UInt64
  parsePublicKey : String → Option PublicKey
  codec : Codec

structure Machine where
  status : Status
  initialRequest : Option EventId
  deriving DecidableEq

abbrev Machines := PublicKey → Option Machine

inductive Error
  | serdeJson
  | nostrKey
  | relayClient
  | machineNotMentioned (event : Event)
  | machineNotControlled (event : Event)
  deriving DecidableEq

/-- The spawned task: after ten seconds, report the request's session over. -/
structure Timer where
  mention : String
  eventId : EventId
  payload : Payload
  deriving DecidableEq

inductive Call
  | pay (user : String) (amount : UInt64) (recoverInfo : String)
  | sendEvent (dest : String) (message : Message)
  | spawn (timer : Timer)

/-- What became of a `send_event`: the relay may store the event and the reply still be lost. -/
structure Sent where
  ok : Bool
  stamp : Option Stamp

/-- `pay` answers whether it returned `Ok`. -/
def Call.Answer : Call → Type
  | pay _ _ _ => Bool
  | sendEvent _ _ => Sent
  | spawn _ => Unit

abbrev Async := Program Call.Answer

def pay (user : String) (amount : UInt64) (recoverInfo : String) : Async Bool :=
  Program.perform (Call.pay user amount recoverInfo)

def sendEvent (dest : String) (message : Message) : Async Bool := do
  let sent : Sent ← Program.perform (Call.sendEvent dest message)
  return sent.ok

def spawn (timer : Timer) : Async Unit := Program.perform (Call.spawn timer)

def updateMachine (cfg : Config) (machines : Machines) (event : Event) : Except Error Machines :=
  match extractMention event with
  | none => .error (.machineNotMentioned event)
  | some text =>
    match cfg.parsePublicKey text with
    | none => .error .nostrKey
    | some mention =>
      match machines mention with
      | none => .error (.machineNotControlled event)
      | some _ =>
        match cfg.codec.decodeMessage event.content with
        | none => .error .serdeJson
        | some (.status status _ initialRequest _) =>
          .ok (Function.update machines mention (some ⟨status, some initialRequest⟩))
        | some _ => .ok machines

/-- The message a timer sends when it fires. -/
def Timer.message (cfg : Config) (timer : Timer) : Message :=
  .status .available .userBehaviour timer.eventId (cfg.codec.encodeStatusPayload timer.payload)

def handleMessage (cfg : Config) (machines : Machines) (event : Event) (message : Message) :
    Async (Except Error Machines) :=
  match message with
  | .request toStatus reason initialRequest payload => do
    -- a reason only the admin may use is logged, whoever the author is, and handled all the same
    let some mention := extractMention event | return .ok machines
    let some machinePubkey := cfg.parsePublicKey mention | return .ok machines
    let some machine := machines machinePubkey | return .ok machines
    if machine.status = toStatus then return .ok machines
    if toStatus = .available then
      if reason = .userRequest then return .ok machines
      if machine.initialRequest.any (· != initialRequest) then return .ok machines
    let some parsedPayload := cfg.codec.decodeRequestPayload payload | return .ok machines
    if !(← pay parsedPayload.user payAmount parsedPayload.recoverInfo) then return .ok machines
    let status := .status toStatus reason event.id (cfg.codec.encodeStatusPayload parsedPayload)
    if !(← sendEvent mention status) then return .error .relayClient
    let tokens := payAmount.toInt64 * tokensLamportsRatio
    if !(← sendEvent mention (.transaction parsedPayload.user tokens)) then
      return .error .relayClient
    if toStatus = .working then
      spawn ⟨mention, event.id, parsedPayload⟩
    return .ok machines
  | .status .. => return updateMachine cfg machines event
  | .transaction .. => return .ok machines

/-- The main loop's treatment of a delivered event: what does not parse is skipped. -/
def handleEvent (cfg : Config) (machines : Machines) (event : Event) :
    Async (Except Error Machines) :=
  match cfg.codec.decodeMessage event.content with
  | none => return .ok machines
  | some message => handleMessage cfg machines event message

/-- The machines after a call that may have failed. -/
def resulting (machines : Machines) : Except Error Machines → Machines
  | .ok updated => updated
  | .error _ => machines

/-! ### What a status does -/

/-- The machine an event mentions, as both message paths read it. -/
def mentioned (cfg : Config) (event : Event) : Option PublicKey :=
  (extractMention event).bind cfg.parsePublicKey

/-- The machine state that a Status event reports for a machine. -/
def reported (cfg : Config) (key : PublicKey) (event : Event) : Option Machine :=
  match cfg.codec.decodeMessage event.content with
  | some (.status status _ initialRequest _) =>
    if mentioned cfg event = some key then some ⟨status, some initialRequest⟩ else none
  | _ => none

theorem resulting_updateMachine {cfg : Config} {machines : Machines} {event : Event}
    {status : Status} {reason : StatusReason} {initialRequest : EventId} {payload : String}
    (hmessage : cfg.codec.decodeMessage event.content =
      some (.status status reason initialRequest payload)) (key : PublicKey) :
    resulting machines (updateMachine cfg machines event) key =
      (machines key).map fun machine => (reported cfg key event).getD machine := by
  unfold updateMachine reported mentioned
  rw [hmessage]
  cases extractMention event with
  | none => simp [resulting]
  | some text =>
  cases hparse : cfg.parsePublicKey text with
  | none => simp [hparse, resulting]
  | some mention =>
  cases hmention : machines mention with
  | none =>
      by_cases h : mention = key
      · simp [hparse, hmention, resulting, ← h]
      · simp [hparse, hmention, resulting, h]
  | some other =>
      by_cases h : key = mention
      · simp [hparse, hmention, resulting, h]
      · simp [hparse, hmention, resulting, h, Ne.symm h]

/-! ### What a request does -/

/-- The checks a request passes before its user is charged, as one function of what is read. -/
def admission (cfg : Config) (machines : Machines) (event : Event) (toStatus : Status)
    (reason : StatusReason) (initialRequest : EventId) (payload : String) :
    Option (String × PublicKey × Payload) := do
  let mention ← extractMention event
  let key ← cfg.parsePublicKey mention
  let machine ← machines key
  if machine.status = toStatus then none
  else if toStatus = .available ∧
      (reason = .userRequest ∨ machine.initialRequest.any (· != initialRequest) = true) then none
  else
    let parsed ← cfg.codec.decodeRequestPayload payload
    return (mention, key, parsed)

theorem admission_eq_some {cfg : Config} {machines : Machines} {event : Event} {toStatus : Status}
    {reason : StatusReason} {initialRequest : EventId} {payload mention : String}
    {key : PublicKey} {parsed : Payload}
    (h : admission cfg machines event toStatus reason initialRequest payload =
      some (mention, key, parsed)) :
    mentioned cfg event = some key ∧
      ∃ machine, machines key = some machine ∧ machine.status ≠ toStatus := by
  simp only [admission, Option.bind_eq_bind, Option.bind_eq_some_iff] at h
  obtain ⟨text, hmention, mention', hkey, machine, hmachine, h⟩ := h
  split_ifs at h with hstatus hstop
  simp only [Option.bind_eq_some_iff] at h
  obtain ⟨_, -, hpure⟩ := h
  cases hpure
  refine ⟨?_, machine, hmachine, hstatus⟩
  rw [mentioned, hmention, Option.bind_some, hkey]

/-- What is done for an admitted request. -/
def charge (cfg : Config) (machines : Machines) (event : Event) (toStatus : Status)
    (reason : StatusReason) (mention : String) (parsed : Payload) :
    Async (Except Error Machines) := do
  if !(← pay parsed.user payAmount parsed.recoverInfo) then return .ok machines
  let status := .status toStatus reason event.id (cfg.codec.encodeStatusPayload parsed)
  if !(← sendEvent mention status) then return .error .relayClient
  let tokens := payAmount.toInt64 * tokensLamportsRatio
  if !(← sendEvent mention (.transaction parsed.user tokens)) then return .error .relayClient
  if toStatus = .working then
    spawn ⟨mention, event.id, parsed⟩
  return .ok machines

variable {cfg : Config} {machines : Machines} {event : Event} {toStatus : Status}
  {reason : StatusReason} {initialRequest : EventId} {payload : String}

theorem handleMessage_request :
    handleMessage cfg machines event (.request toStatus reason initialRequest payload) =
      match admission cfg machines event toStatus reason initialRequest payload with
      | none => pure (.ok machines)
      | some (mention, _, parsed) =>
        charge cfg machines event toStatus reason mention parsed := by
  cases hmention : extractMention event with
  | none => simp [handleMessage, admission, hmention]
  | some mention =>
  cases hkey : cfg.parsePublicKey mention with
  | none => simp [handleMessage, admission, hmention, hkey]
  | some key =>
  cases hmachine : machines key with
  | none => simp [handleMessage, admission, hmention, hkey, hmachine]
  | some machine =>
  by_cases hstatus : machine.status = toStatus
  · simp [handleMessage, admission, hmention, hkey, hmachine, hstatus]
  by_cases hstop : toStatus = .available
  · subst hstop
    by_cases hreason : reason = .userRequest
    · simp [handleMessage, admission, hmention, hkey, hmachine, hreason]
    by_cases hother : machine.initialRequest.any (· != initialRequest) = true
    · simp [handleMessage, admission, hmention, hkey, hmachine, hreason, hother]
    cases hpayload : cfg.codec.decodeRequestPayload payload <;>
      simp [handleMessage, admission, charge, hmention, hkey, hmachine, hstatus, hreason, hother,
        hpayload]
  · cases hpayload : cfg.codec.decodeRequestPayload payload <;>
      simp [handleMessage, admission, charge, hmention, hkey, hmachine, hstatus, hstop, hpayload]

@[simp] theorem calls_pay (answer : ∀ c, Call.Answer c) (user : String) (amount : UInt64)
    (recoverInfo : String) :
    (pay user amount recoverInfo).calls answer = [.pay user amount recoverInfo] := rfl

@[simp] theorem calls_sendEvent (answer : ∀ c, Call.Answer c) (dest : String) (message : Message) :
    (sendEvent dest message).calls answer = [.sendEvent dest message] := rfl

@[simp] theorem calls_spawn (answer : ∀ c, Call.Answer c) (timer : Timer) :
    (spawn timer).calls answer = [.spawn timer] := rfl

/-- The answer to `pay`, read as the boolean it is. -/
def paid (answer : ∀ c, Call.Answer c) (parsed : Payload) : Bool :=
  (pay parsed.user payAmount parsed.recoverInfo).eval answer

/-- A successful payment is among the calls. -/
def Charged (answer : ∀ c, Call.Answer c) (made : List Call) : Prop :=
  ∃ user amount recoverInfo, .pay user amount recoverInfo ∈ made ∧
    (pay user amount recoverInfo).eval answer = true

variable (cfg machines event toStatus reason initialRequest payload) in
theorem eval_request (answer : ∀ c, Call.Answer c) :
    (handleMessage cfg machines event (.request toStatus reason initialRequest payload)).eval
        answer = .ok machines ∨
      (handleMessage cfg machines event (.request toStatus reason initialRequest payload)).eval
        answer = .error .relayClient := by
  rw [handleMessage_request]
  cases admission cfg machines event toStatus reason initialRequest payload with
  | none => exact Or.inl rfl
  | some admitted =>
      obtain ⟨mention, key, parsed⟩ := admitted
      simp only [charge, Program.eval_bind, Program.eval_ite, Program.eval_pure]
      split_ifs <;> simp

/-- Machines change through delivered Status events only, and whoever signed them. -/
theorem resulting_handleEvent (answer : ∀ c, Call.Answer c) (key : PublicKey) :
    resulting machines ((handleEvent cfg machines event).eval answer) key =
      (machines key).map fun machine => (reported cfg key event).getD machine := by
  unfold handleEvent
  cases hmessage : cfg.codec.decodeMessage event.content with
  | none => simp [reported, hmessage, resulting]
  | some message =>
      cases message with
      | request toStatus reason initialRequest payload =>
          rcases eval_request cfg machines event toStatus reason initialRequest payload answer
            with h | h <;> simp [h, reported, hmessage, resulting]
      | transaction user tokens => simp [handleMessage, reported, hmessage, resulting]
      | status status reason initialRequest payload =>
          exact resulting_updateMachine hmessage key

/-- The user is charged exactly when the request is admitted and the payment goes through. -/
theorem charged_request (answer : ∀ c, Call.Answer c) :
    Charged answer ((handleMessage cfg machines event
      (.request toStatus reason initialRequest payload)).calls answer) ↔
    ∃ mention key parsed,
      admission cfg machines event toStatus reason initialRequest payload =
        some (mention, key, parsed) ∧
      paid answer parsed = true := by
  rw [handleMessage_request]
  cases admission cfg machines event toStatus reason initialRequest payload with
  | none => simp [Charged]
  | some admitted =>
      obtain ⟨mention, key, parsed⟩ := admitted
      simp [Charged, charge, paid]

/-! ### What a delivered event makes the controller call -/

/-- The answer to `sendEvent`, read as the boolean it is. -/
def sent (answer : ∀ c, Call.Answer c) (dest : String) (message : Message) : Bool :=
  (sendEvent dest message).eval answer

/-- The status of a charged request. -/
def chargedStatus (cfg : Config) (event : Event) (toStatus : Status) (reason : StatusReason)
    (parsed : Payload) : Message :=
  .status toStatus reason event.id (cfg.codec.encodeStatusPayload parsed)

/-- The credit of a charged request. -/
def chargedCredit (parsed : Payload) : Message :=
  .transaction parsed.user (payAmount.toInt64 * tokensLamportsRatio)

theorem calls_charge (answer : ∀ c, Call.Answer c) (mention : String) (parsed : Payload) :
    (charge cfg machines event toStatus reason mention parsed).calls answer =
      .pay parsed.user payAmount parsed.recoverInfo ::
        if paid answer parsed = true then
          .sendEvent mention (chargedStatus cfg event toStatus reason parsed) ::
            if sent answer mention (chargedStatus cfg event toStatus reason parsed) = true then
              .sendEvent mention (chargedCredit parsed) ::
                if sent answer mention (chargedCredit parsed) = true ∧ toStatus = .working then
                  [.spawn ⟨mention, event.id, parsed⟩]
                else []
            else []
        else [] := by
  simp only [charge, Program.calls_bind, calls_pay, Program.calls_ite, Program.calls_pure,
    calls_sendEvent, calls_spawn, List.singleton_append]
  cases hpaid : paid answer parsed with
  | false =>
      simp only [paid] at hpaid
      simp [hpaid]
  | true =>
      cases hstatus : sent answer mention (chargedStatus cfg event toStatus reason parsed) <;>
        cases hcredit : sent answer mention (chargedCredit parsed) <;>
        simp only [paid, sent, chargedStatus, chargedCredit] at hpaid hstatus hcredit <;>
        simp [hpaid, hstatus, hcredit, chargedStatus, chargedCredit]

/-- Only an event that cannot be sent stops the controller. -/
theorem eval_charge (answer : ∀ c, Call.Answer c) (mention : String) (parsed : Payload) :
    (charge cfg machines event toStatus reason mention parsed).eval answer =
      if paid answer parsed = true ∧
          ¬ (sent answer mention (chargedStatus cfg event toStatus reason parsed) = true ∧
            sent answer mention (chargedCredit parsed) = true) then
        .error .relayClient
      else .ok machines := by
  simp only [charge, Program.eval_bind, Program.eval_ite, Program.eval_pure]
  cases hpaid : paid answer parsed with
  | false =>
      simp only [paid] at hpaid
      simp [hpaid]
  | true =>
      cases hstatus : sent answer mention (chargedStatus cfg event toStatus reason parsed) <;>
        cases hcredit : sent answer mention (chargedCredit parsed) <;>
        simp only [paid, sent, chargedStatus, chargedCredit] at hpaid hstatus hcredit <;>
        simp [hpaid, hstatus, hcredit]

/-- The request an event carries, if it is admitted: its status, reason, mention and payload. -/
def admittedRequest (cfg : Config) (machines : Machines) (event : Event) :
    Option (Status × StatusReason × String × Payload) :=
  match cfg.codec.decodeMessage event.content with
  | some (.request toStatus reason initialRequest payload) =>
    (admission cfg machines event toStatus reason initialRequest payload).map
      fun (mention, _, parsed) => (toStatus, reason, mention, parsed)
  | _ => none

theorem admittedRequest_eq_some {mention : String} {parsed : Payload}
    (h : admittedRequest cfg machines event = some (toStatus, reason, mention, parsed)) :
    ∃ initialRequest payload key, cfg.codec.decodeMessage event.content =
        some (.request toStatus reason initialRequest payload) ∧
      admission cfg machines event toStatus reason initialRequest payload =
        some (mention, key, parsed) := by
  unfold admittedRequest at h
  split at h
  · rename_i toStatus' reason' initialRequest payload hmessage
    obtain ⟨⟨mention', key, parsed'⟩, hadmission, heq⟩ := Option.map_eq_some_iff.mp h
    cases heq
    exact ⟨initialRequest, payload, key, hmessage, hadmission⟩
  · cases h

theorem handleEvent_of_admitted {mention : String} {parsed : Payload}
    (h : admittedRequest cfg machines event = some (toStatus, reason, mention, parsed)) :
    handleEvent cfg machines event =
      charge cfg machines event toStatus reason mention parsed := by
  obtain ⟨initialRequest, payload, key, hmessage, hadmission⟩ := admittedRequest_eq_some h
  rw [handleEvent, hmessage]
  show handleMessage _ _ _ _ = _
  rw [handleMessage_request, hadmission]

theorem calls_of_not_admitted (h : admittedRequest cfg machines event = none)
    (answer : ∀ c, Call.Answer c) : (handleEvent cfg machines event).calls answer = [] := by
  unfold handleEvent
  cases hmessage : cfg.codec.decodeMessage event.content with
  | none => rfl
  | some message =>
      cases message with
      | request toStatus reason initialRequest payload =>
          show (handleMessage _ _ _ _).calls _ = _
          simp only [admittedRequest, hmessage, Option.map_eq_none_iff] at h
          rw [handleMessage_request, h]
          rfl
      | status status reason initialRequest payload => rfl
      | transaction user tokens => rfl

variable (cfg machines event) in
/-- An event is a request that is charged, or makes the controller call nothing. -/
theorem handleEvent_cases :
    (∃ toStatus reason mention parsed, handleEvent cfg machines event =
      charge cfg machines event toStatus reason mention parsed) ∨
    ∀ answer, (handleEvent cfg machines event).calls answer = [] := by
  cases hadmitted : admittedRequest cfg machines event with
  | none => exact Or.inr fun answer => calls_of_not_admitted hadmitted answer
  | some admitted =>
      obtain ⟨toStatus, reason, mention, parsed⟩ := admitted
      exact Or.inl ⟨toStatus, reason, mention, parsed, handleEvent_of_admitted hadmitted⟩

end DsProxy.Controller
