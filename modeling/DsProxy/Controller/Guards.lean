import DsProxy.Controller.Session

/-!
# What a delivered event may do

The main loop takes events of any author. Three of its guards are looked at one by one: whose Status
events move a machine, what becomes of a request whose reason only the admin may give, and which
events are skipped rather than returned as an error, on which the loop panics.
-/

namespace DsProxy.Controller

open Relay Runs System

/-! ### Whose statuses move a machine -/

section Statuses

variable {cfg : Config} {s s' : State} {op : Op} {event : Event}

def IsStatus (cfg : Config) (event : Event) : Prop :=
  ∃ status reason initialRequest payload,
    cfg.codec.decodeMessage event.content = some (.status status reason initialRequest payload)

/-- The operation delivers a Status event of the controller's own key. -/
def Op.OwnStatus (cfg : Config) : Op → Prop
  | .deliver event _ => event.pubkey = cfg.controllerPubkey ∧ IsStatus cfg event
  | _ => False

/-- Along a run the machines change only by Status events that the controller signed. -/
def MachinesOwn (cfg : Config) (s₀ : State) (ops : List Op) : Prop :=
  ∀ i op s s', StepAt (system cfg) s₀ ops i op s s' →
    ∀ key, s'.machines key ≠ s.machines key → op.OwnStatus cfg

/-- What a Status event of another key says of a machine is what the machine is already. -/
def NothingNew (cfg : Config) (s : State) : Op → Prop
  | .deliver event _ => event.pubkey ≠ cfg.controllerPubkey →
    ∀ key report machine, reported cfg key event = some report → s.machines key = some machine →
      report = machine
  | _ => True

theorem isStatus_of_reported {key : PublicKey} {report : Machine}
    (h : reported cfg key event = some report) : IsStatus cfg event := by
  unfold reported at h
  split at h
  · rename_i status reason initialRequest payload hmessage
    exact ⟨status, reason, initialRequest, payload, hmessage⟩
  · cases h

/-- A step leaves a machine alone unless the operation reports something else of it. -/
theorem machine_unchanged_iff (hstep : (system cfg).step s op = some s') (key : PublicKey) :
    s'.machines key = s.machines key ↔ ∀ report machine, op.reports cfg key = some report →
      s.machines key = some machine → report = machine := by
  rw [machine_of_step hstep key]
  cases s.machines key with
  | none => simp
  | some machine => cases op.reports cfg key <;> simp

theorem step_own_iff (hstep : (system cfg).step s op = some s') :
    (∀ key, s'.machines key ≠ s.machines key → op.OwnStatus cfg) ↔ NothingNew cfg s op := by
  cases op with
  | publish event =>
      refine iff_of_true (fun key hchanged => absurd ?_ hchanged) trivial
      rw [machine_unchanged_iff hstep]
      intro report machine hreport
      cases hreport
  | fire timer stamp =>
      refine iff_of_true (fun key hchanged => absurd ?_ hchanged) trivial
      rw [machine_unchanged_iff hstep]
      intro report machine hreport
      cases hreport
  | deliver event answer =>
      constructor
      · intro hown hforeign key
        by_contra hnew
        exact hforeign (hown key (mt (machine_unchanged_iff hstep key).mp hnew)).1
      · intro hnothing key hchanged
        rw [Ne, machine_unchanged_iff hstep] at hchanged
        push Not at hchanged
        obtain ⟨report, machine, hreport, hmachine, hne⟩ := hchanged
        refine ⟨?_, isStatus_of_reported hreport⟩
        by_contra hforeign
        exact hne (hnothing hforeign key report machine hreport hmachine)

/-- The machines are the controller's own exactly in the runs in which no other key's Status event
says anything new. -/
theorem machines_own_iff (cfg : Config) (s₀ : State) (ops : List Op) :
    MachinesOwn cfg s₀ ops ↔ (system cfg).Throughout (NothingNew cfg) s₀ ops := by
  rw [throughout_iff_stepAt]
  constructor
  · intro hown i op s s' hat
    exact (step_own_iff hat.step).mp (hown i op s s' hat)
  · intro hnothing i op s s' hat
    exact (step_own_iff hat.step).mpr (hnothing i op s s' hat)

end Statuses

namespace Sample

/-- An event of someone who is neither the controller nor the admin. -/
def outsider (mentions : List String) (message : Message) : Event where
  id := Bytes.toLE 32 5
  pubkey := Vector.replicate 32 9
  createdAt := 1735000001
  kind := eventKind
  tags := ["s", cfg.session] :: mentions.map fun mention => ["p", mention]
  content := cfg.codec.encodeMessage message

theorem decode_outsider (mentions : List String) (message : Message) :
    cfg.codec.decodeMessage (outsider mentions message).content = some message :=
  decodeMessage_encodeMessage message

theorem mentioned_outsider (mention : String) (mentions : List String) (message : Message) :
    mentioned cfg (outsider (mention :: mentions) message) = cfg.parsePublicKey mention := by
  simp [mentioned, extractMention, outsider]

/-- A Working status that the controller never published. -/
def hijack : Event :=
  outsider [machine.toHex] (.status .working .userRequest (Bytes.toLE 32 1) "")

def hijacked : List Op := [.publish hijack, .deliver hijack (answer 0)]

theorem step_hijack_publish :
    (system cfg).step start (.publish hijack) = some { start with relay := [hijack] } := by
  have hauthor : hijack.pubkey ≠ cfg.controllerPubkey := by
    change Vector.replicate 32 9 ≠ Vector.replicate 32 1
    decide
  simp [system, hauthor, start]

theorem step_hijack_deliver :
    (system cfg).step { start with relay := [hijack] } (.deliver hijack (answer 0)) =
      some (onEvent cfg { start with relay := [hijack] } hijack (answer 0)) := by
  have haccepts : (subscription cfg).accepts hijack = true := by
    simp [subscription, Filter.accepts, Event.hasTag, hijack, outsider, cfg]
  have hguard : start.stopped = false ∧ hijack ∈ [hijack] ∧
      (subscription cfg).accepts hijack = true := ⟨rfl, List.mem_singleton_self _, haccepts⟩
  simp only [system]
  rw [if_pos hguard]

theorem decode_hijack : cfg.codec.decodeMessage hijack.content =
    some (.status .working .userRequest (Bytes.toLE 32 1) "") := decode_outsider _ _

theorem reported_hijack : reported cfg machine hijack = some (busy 1) := by
  have hmention : mentioned cfg hijack = some machine :=
    (mentioned_outsider _ _ _).trans parse_machine
  rw [reported, decode_hijack]
  exact if_pos hmention

end Sample

/-- A stranger's status sets the machine working. -/
theorem machine_hijacked : ¬ MachinesOwn Sample.cfg Sample.start Sample.hijacked := by
  intro hown
  have hat : StepAt (system Sample.cfg) Sample.start Sample.hijacked 1
      (.deliver Sample.hijack (Sample.answer 0)) { Sample.start with relay := [Sample.hijack] } _ :=
    ⟨rfl, (next_of_step Sample.step_hijack_publish).symm, Sample.step_hijack_deliver⟩
  have hforeign : Sample.hijack.pubkey ≠ Sample.cfg.controllerPubkey := by
    change Vector.replicate 32 9 ≠ Vector.replicate 32 1
    decide
  refine hforeign (hown _ _ _ _ hat Sample.machine fun hsame => ?_).1
  have hidle : initialMachines Sample.cfg Sample.machine = some Sample.idle := by
    simp [initialMachines, Sample.cfg, Sample.idle]
  have hnew := (machine_unchanged_iff hat.step Sample.machine).mp hsame _ _
    Sample.reported_hijack hidle
  cases hnew

/-! ### Requests with a reason that only the admin may give -/

section Reasons

variable {cfg : Config} {machines : Machines} {event : Event}

/-- The event is skipped: nothing is called and no machine changes. -/
def Skipped (cfg : Config) (machines : Machines) (event : Event) : Prop :=
  ∀ answer, (handleEvent cfg machines event).calls answer = [] ∧
    resulting machines ((handleEvent cfg machines event).eval answer) = machines

/-- The event makes the controller publish, at once, that a machine is available. -/
def PublishesAvailable (cfg : Config) (machines : Machines) (event : Event) : Prop :=
  ∃ answer dest reason initialRequest payload,
    .sendEvent dest (.status .available reason initialRequest payload) ∈
      (handleEvent cfg machines event).calls answer

/-- A request of someone else than the admin, whose reason is not `UserRequest`. -/
def Privileged (cfg : Config) (event : Event) (toStatus : Status) (reason : StatusReason)
    (initialRequest : EventId) (payload : String) : Prop :=
  event.pubkey ≠ cfg.adminPubkey ∧ reason ≠ .userRequest ∧
    cfg.codec.decodeMessage event.content = some (.request toStatus reason initialRequest payload)

/-- Privileged requests are skipped, and whoever is not the admin cannot have a machine reported as
available. -/
structure SkipsPrivileged (cfg : Config) (machines : Machines) (event : Event) : Prop where
  skipped : ∀ {toStatus reason initialRequest payload},
    Privileged cfg event toStatus reason initialRequest payload → Skipped cfg machines event
  noStop : event.pubkey ≠ cfg.adminPubkey → ¬ PublishesAvailable cfg machines event

/-- The request passes the guards that are not about its reason. -/
structure PassesGuards (cfg : Config) (machines : Machines) (event : Event) (toStatus : Status)
    (initialRequest : EventId) (payload : String) (key : PublicKey) (machine : Machine) :
    Prop where
  mentions : mentioned cfg event = some key
  controlled : machines key = some machine
  otherStatus : machine.status ≠ toStatus
  sameRequest : toStatus = .available →
    ∀ request, machine.initialRequest = some request → request = initialRequest
  readable : (cfg.codec.decodeRequestPayload payload).isSome = true

/-- Without a guard on the reason, the others decide what is admitted. -/
theorem admission_isSome_iff {toStatus : Status} {reason : StatusReason} {initialRequest : EventId}
    {payload : String} (hreason : reason ≠ .userRequest) :
    (admission cfg machines event toStatus reason initialRequest payload).isSome = true ↔
      ∃ key machine,
        PassesGuards cfg machines event toStatus initialRequest payload key machine := by
  constructor
  · intro hsome
    obtain ⟨⟨mention, key, parsed⟩, hadmission⟩ := Option.isSome_iff_exists.mp hsome
    obtain ⟨hmentions, machine, hmachine, hstatus⟩ := admission_eq_some hadmission
    simp only [admission, Option.bind_eq_bind, Option.bind_eq_some_iff] at hadmission
    obtain ⟨text, htext, key', hkey', machine', hmachine', hadmission⟩ := hadmission
    split_ifs at hadmission with hsame hstop
    obtain ⟨parsed', hparsed, hpure⟩ := Option.bind_eq_some_iff.mp hadmission
    cases hpure
    cases hmachine.symm.trans hmachine'
    refine ⟨key, machine, hmentions, hmachine, hstatus, fun havailable request hrequest => ?_, ?_⟩
    · by_contra hne
      exact hstop ⟨havailable, Or.inr (by simp [hrequest, hne])⟩
    · rw [hparsed, Option.isSome_some]
  · intro hadmissible
    obtain ⟨key, machine, hmentions, hmachine, hstatus, hsame, hreadable⟩ := hadmissible
    obtain ⟨text, htext, hkey⟩ := Option.bind_eq_some_iff.mp hmentions
    obtain ⟨parsed, hparsed⟩ := Option.isSome_iff_exists.mp hreadable
    have hstop : ¬ (toStatus = .available ∧ (reason = .userRequest ∨
        machine.initialRequest.any (· != initialRequest) = true)) := by
      intro hforbidden
      obtain ⟨havailable, huser | hother⟩ := hforbidden
      · exact hreason huser
      · cases hrequest : machine.initialRequest with
        | none => simp [hrequest] at hother
        | some request => simp [hrequest, hsame havailable request hrequest] at hother
    simp [admission, htext, hkey, hmachine, hstatus, hstop, hparsed]

/-- The privileged request that an event carries passes every guard there is. -/
def Slips (cfg : Config) (machines : Machines) (event : Event) : Prop :=
  ∃ toStatus reason initialRequest payload key machine,
    Privileged cfg event toStatus reason initialRequest payload ∧
      PassesGuards cfg machines event toStatus initialRequest payload key machine

theorem skipped_of_not_admitted (h : admittedRequest cfg machines event = none)
    (hstatus : ¬ IsStatus cfg event) : Skipped cfg machines event := by
  intro answer
  refine ⟨calls_of_not_admitted h answer, ?_⟩
  funext key
  rw [resulting_handleEvent]
  cases hreport : reported cfg key event with
  | none => simp
  | some report => exact absurd (isStatus_of_reported hreport) hstatus

theorem not_skipped_of_admitted {toStatus : Status} {reason : StatusReason} {mention : String}
    {parsed : Payload}
    (h : admittedRequest cfg machines event = some (toStatus, reason, mention, parsed))
    (answer : ∀ c, Call.Answer c) : (handleEvent cfg machines event).calls answer ≠ [] := by
  rw [handleEvent_of_admitted h, calls_charge]
  exact List.cons_ne_nil _ _

theorem admitted_of_publishes (h : PublishesAvailable cfg machines event) :
    ∃ reason mention parsed,
      admittedRequest cfg machines event = some (.available, reason, mention, parsed) := by
  obtain ⟨answer, dest, reason, initialRequest, payload, hmem⟩ := h
  cases hadmitted : admittedRequest cfg machines event with
  | none =>
      rw [calls_of_not_admitted hadmitted] at hmem
      cases hmem
  | some admitted =>
      obtain ⟨toStatus, reason', mention, parsed⟩ := admitted
      rw [handleEvent_of_admitted hadmitted, calls_charge] at hmem
      refine ⟨reason', mention, parsed, ?_⟩
      suffices hstatus : toStatus = .available by rw [hstatus]
      split_ifs at hmem <;> simp_all [chargedStatus, chargedCredit]

/-- A request to Available is admitted for a reason other than the user's only. -/
theorem reason_of_admission_available {reason : StatusReason} {initialRequest : EventId}
    {payload : String} {admitted : String × PublicKey × Payload}
    (h : admission cfg machines event .available reason initialRequest payload = some admitted) :
    reason ≠ .userRequest := by
  intro heq
  subst heq
  simp only [admission, Option.bind_eq_bind, Option.bind_eq_some_iff] at h
  obtain ⟨text, -, key, -, machine, -, h⟩ := h
  simp at h

/-- An environment that refuses every call. -/
def refusing : ∀ c, Call.Answer c
  | .pay _ _ _ => false
  | .sendEvent _ _ => ⟨false, none⟩
  | .spawn _ => ()

theorem Slips.not_skips (h : Slips cfg machines event) : ¬ SkipsPrivileged cfg machines event := by
  intro hskips
  obtain ⟨toStatus, reason, initialRequest, payload, key, machine, hprivileged, hpasses⟩ := h
  obtain ⟨⟨mention, key', parsed⟩, hadmission⟩ := Option.isSome_iff_exists.mp
    ((admission_isSome_iff hprivileged.2.1).mpr ⟨key, machine, hpasses⟩)
  have hadmitted : admittedRequest cfg machines event =
      some (toStatus, reason, mention, parsed) := by
    simp only [admittedRequest, hprivileged.2.2, hadmission, Option.map_some]
  exact not_skipped_of_admitted hadmitted refusing (hskips.skipped hprivileged refusing).1

/-- Privileged requests are skipped exactly when they fail another guard. -/
theorem skips_privileged_iff (cfg : Config) (machines : Machines) (event : Event) :
    SkipsPrivileged cfg machines event ↔ ¬ Slips cfg machines event := by
  constructor
  · intro hskips hslips
    exact hslips.not_skips hskips
  · intro hslips
    have hrefused {toStatus reason mention parsed} (hauthor : event.pubkey ≠ cfg.adminPubkey)
        (hreason : reason ≠ .userRequest) : admittedRequest cfg machines event ≠
          some (toStatus, reason, mention, parsed) := by
      intro hadmitted
      obtain ⟨initialRequest, payload, key, hmessage, hadmission⟩ :=
        admittedRequest_eq_some hadmitted
      obtain ⟨key', machine, hpasses⟩ := (admission_isSome_iff hreason).mp
        (Option.isSome_iff_exists.mpr ⟨_, hadmission⟩)
      exact hslips ⟨toStatus, reason, initialRequest, payload, key', machine,
        ⟨hauthor, hreason, hmessage⟩, hpasses⟩
    constructor
    · intro toStatus reason initialRequest payload hprivileged
      apply skipped_of_not_admitted
      · by_contra hne
        obtain ⟨⟨toStatus', reason', mention, parsed⟩, hadmitted⟩ :=
          Option.ne_none_iff_exists'.mp hne
        obtain ⟨initialRequest', payload', key, hmessage, -⟩ := admittedRequest_eq_some hadmitted
        cases hprivileged.2.2.symm.trans hmessage
        exact hrefused hprivileged.1 hprivileged.2.1 hadmitted
      · intro hstatus
        obtain ⟨status, reason', request, payload', hmessage⟩ := hstatus
        cases hprivileged.2.2.symm.trans hmessage
    · intro hauthor hpublishes
      obtain ⟨reason, mention, parsed, hadmitted⟩ := admitted_of_publishes hpublishes
      obtain ⟨initialRequest, payload, key, -, hadmission⟩ := admittedRequest_eq_some hadmitted
      exact hrefused hauthor (reason_of_admission_available hadmission) hadmitted

end Reasons

namespace Sample

/-- A stranger asks for the end of session 1, giving `Reset` as the reason. -/
def reset : Event := outsider [machine.toHex]
  (.request .available .reset (Bytes.toLE 32 1) (cfg.codec.encodeStatusPayload (payload 1)))

end Sample

/-- The stranger's request is charged for and the machine reported as available. -/
theorem reset_not_skipped :
    ¬ SkipsPrivileged Sample.cfg (Sample.state (Sample.busy 1) [] []).machines Sample.reset := by
  apply Slips.not_skips
  have hadmin : Sample.reset.pubkey ≠ Sample.cfg.adminPubkey := by
    change Vector.replicate 32 9 ≠ Vector.replicate 32 2
    decide
  refine ⟨.available, .reset, Bytes.toLE 32 1, _, Sample.machine, Sample.busy 1,
    ⟨hadmin, by decide, Sample.decode_outsider _ _⟩, ?_⟩
  refine ⟨(Sample.mentioned_outsider _ _ _).trans Sample.parse_machine,
    Sample.machines_state _ _ _, by decide, fun _ request hrequest => ?_, ?_⟩
  · exact (Option.some.inj hrequest).symm
  · have hpayload := SerdeJson.decodePayload_encodePayload (Sample.payload 1)
    exact Option.isSome_iff_exists.mpr ⟨_, hpayload⟩

/-! ### Events that stop the controller -/

section Errors

variable {cfg : Config} {machines : Machines} {event : Event} {answer : ∀ c, Call.Answer c}

/-- The call was made without error. -/
def Call.Completes (answer : ∀ c, Call.Answer c) : Call → Prop
  | .pay user amount recoverInfo =>
    (Controller.pay user amount recoverInfo).eval answer = true
  | .sendEvent dest message => sent answer dest message = true
  | .spawn _ => True

/-- A Status event whose first mention is not a machine of ours. -/
def Misdirected (cfg : Config) (machines : Machines) (event : Event) : Prop :=
  IsStatus cfg event ∧ ∀ key, mentioned cfg event = some key → machines key = none

/-- A status is handled without error exactly when it mentions a controlled machine first. -/
theorem updateMachine_isOk_iff {status : Status} {reason : StatusReason} {initialRequest : EventId}
    {payload : String} (hmessage : cfg.codec.decodeMessage event.content =
      some (.status status reason initialRequest payload)) :
    (updateMachine cfg machines event).isOk = true ↔
      ∃ key, mentioned cfg event = some key ∧ (machines key).isSome = true := by
  unfold updateMachine mentioned
  rw [hmessage]
  cases extractMention event with
  | none => simp [Except.isOk, Except.toBool]
  | some text =>
      cases hparse : cfg.parsePublicKey text with
      | none => simp [hparse, Except.isOk, Except.toBool]
      | some key =>
          cases hmachine : machines key <;> simp [hparse, hmachine, Except.isOk, Except.toBool]

theorem handleEvent_status {status : Status} {reason : StatusReason} {initialRequest : EventId}
    {payload : String} (hmessage : cfg.codec.decodeMessage event.content =
      some (.status status reason initialRequest payload)) :
    handleEvent cfg machines event = pure (updateMachine cfg machines event) := by
  simp only [handleEvent, hmessage]
  rfl

theorem charge_isOk {toStatus : Status} {reason : StatusReason} {mention : String}
    {parsed : Payload} (h : ∀ c ∈ (charge cfg machines event toStatus reason mention parsed).calls
      answer, c.Completes answer) :
    ((charge cfg machines event toStatus reason mention parsed).eval answer).isOk = true := by
  rw [calls_charge] at h
  have hpaid : paid answer parsed = true := h _ List.mem_cons_self
  rw [if_pos hpaid] at h
  have hstatus : sent answer mention (chargedStatus cfg event toStatus reason parsed) = true :=
    h _ (List.mem_cons_of_mem _ List.mem_cons_self)
  rw [if_pos hstatus] at h
  have hcredit : sent answer mention (chargedCredit parsed) = true :=
    h _ (List.mem_cons_of_mem _ (List.mem_cons_of_mem _ List.mem_cons_self))
  simp only [paid, sent, chargedStatus, chargedCredit] at hpaid hstatus hcredit
  simp only [charge, Program.eval_bind, Program.eval_ite, hpaid, hstatus, hcredit]
  simp [Except.isOk, Except.toBool]

/-- If every call completes, an event stops the controller exactly when it is a misdirected
status. -/
theorem never_stopped_iff
    (hcompletes : ∀ c ∈ (handleEvent cfg machines event).calls answer, c.Completes answer) :
    ((handleEvent cfg machines event).eval answer).isOk = true ↔
      ¬ Misdirected cfg machines event := by
  have hnot_status (h : ¬ IsStatus cfg event) : ¬ Misdirected cfg machines event :=
    fun hmisdirected => h hmisdirected.1
  cases hmessage : cfg.codec.decodeMessage event.content with
  | none =>
      refine iff_of_true ?_ (hnot_status ?_)
      · simp [handleEvent, hmessage, Except.isOk, Except.toBool]
      · simp [IsStatus, hmessage]
  | some message =>
      cases message with
      | request toStatus reason initialRequest payload =>
          refine iff_of_true ?_ (hnot_status ?_)
          · cases hadmitted : admittedRequest cfg machines event with
            | some admitted =>
                obtain ⟨toStatus', reason', mention, parsed⟩ := admitted
                rw [handleEvent_of_admitted hadmitted] at hcompletes ⊢
                exact charge_isOk hcompletes
            | none =>
                simp only [admittedRequest, hmessage, Option.map_eq_none_iff] at hadmitted
                simp only [handleEvent, hmessage, handleMessage_request, hadmitted]
                rfl
          · simp [IsStatus, hmessage]
      | transaction user tokens =>
          refine iff_of_true ?_ (hnot_status ?_)
          · simp [handleEvent, handleMessage, hmessage, Except.isOk, Except.toBool]
          · simp [IsStatus, hmessage]
      | status status reason initialRequest payload =>
          have hstatus : IsStatus cfg event := ⟨status, reason, initialRequest, payload, hmessage⟩
          rw [handleEvent_status hmessage, Program.eval_pure, updateMachine_isOk_iff hmessage,
            Misdirected]
          simp [hstatus, Option.isSome_iff_ne_none]

end Errors

namespace Sample

def otherMachine : PublicKey := Vector.replicate 32 7

/-- A status that mentions our machine, but only after another one. -/
def stray : Event := outsider [otherMachine.toHex, machine.toHex]
  (.status .working .userRequest (Bytes.toLE 32 1) "")

theorem decode_stray : cfg.codec.decodeMessage stray.content =
    some (.status .working .userRequest (Bytes.toLE 32 1) "") := decode_outsider _ _

theorem accepts_stray : (subscription cfg).accepts stray = true := by
  simp [subscription, Filter.accepts, Event.hasTag, stray, outsider, cfg]

theorem misdirected_stray : Misdirected cfg (initialMachines cfg) stray := by
  refine ⟨⟨_, _, _, _, decode_stray⟩, fun key hmention => ?_⟩
  have hother : mentioned cfg stray = some otherMachine :=
    (mentioned_outsider _ _ _).trans (Hex.toVector_ofVector otherMachine)
  cases hmention.symm.trans hother
  have hne : otherMachine ≠ machine := by decide
  simp [initialMachines, cfg, hne]

theorem completes_request : ∀ c ∈ (handleEvent cfg (state idle [] []).machines
    (request 1 0)).calls (answer 10), c.Completes (answer 10) := by
  have hpaid : paid (answer 10) (payload 0) = true := rfl
  have hsent (message : Message) : sent (answer 10) machine.toHex message = true := by
    cases message <;> rfl
  rw [handleEvent_request rfl, calls_charge, if_pos hpaid, if_pos (hsent _),
    if_pos ⟨hsent _, rfl⟩]
  intro c hc
  simp only [List.mem_cons, List.not_mem_nil, or_false] at hc
  rcases hc with rfl | rfl | rfl | rfl
  · rfl
  · rfl
  · rfl
  · trivial

theorem not_misdirected_request :
    ¬ Misdirected cfg (state idle [] []).machines (request 1 0) := by
  rintro ⟨⟨status, reason, initialRequest, payload, hstatus⟩, -⟩
  cases decode_request.symm.trans hstatus

end Sample

/-- An event of anyone that the subscription delivers can stop the controller. -/
theorem stopped_by_stray : (subscription Sample.cfg).accepts Sample.stray = true ∧
    ((handleEvent Sample.cfg (initialMachines Sample.cfg) Sample.stray).eval
      (Sample.answer 0)).isOk = false := by
  refine ⟨Sample.accepts_stray, ?_⟩
  have hmisdirected : ¬ ∃ key, mentioned Sample.cfg Sample.stray = some key ∧
      (initialMachines Sample.cfg key).isSome = true := by
    intro hcontrolled
    obtain ⟨key, hmention, hcontrolled⟩ := hcontrolled
    rw [Sample.misdirected_stray.2 key hmention] at hcontrolled
    cases hcontrolled
  rw [handleEvent_status Sample.decode_stray, Program.eval_pure]
  exact Bool.eq_false_of_not_eq_true
    (mt (updateMachine_isOk_iff Sample.decode_stray).mp hmisdirected)

/-- A request that is charged does not stop the controller. -/
theorem never_stopped_iff_sample :
    ((handleEvent Sample.cfg (Sample.state Sample.idle [] []).machines (Sample.request 1 0)).eval
      (Sample.answer 10)).isOk = true :=
  (never_stopped_iff Sample.completes_request).mpr Sample.not_misdirected_request

end DsProxy.Controller
