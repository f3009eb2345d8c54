import DsProxy.BalancePayment.Sdk
import DsProxy.Controller.Run
import DsProxy.Controller.SerdeJson

/-!
# Sessions of a machine

A charged request opens a session: its Working status comes back through the relay, and later its
Available. The status path takes every delivered status as it comes, so what holds of sessions
depends on the order of deliveries. Both laws below are about whole runs, under the condition on the
deliveries that the code leaves to the relay.
-/

namespace DsProxy.Controller

open Relay Runs System

/-! ### Two requests before the first echo -/

namespace Sample

def machine : PublicKey :=
  Bytes.toLE 32 66740383189935787891070401337474744475438759275593358092488284172302924005840

def cfg : Config where
  session := "dephy-dsproxy-controller"
  controllerPubkey := Vector.replicate 32 1
  adminPubkey := Vector.replicate 32 2
  machinePubkeys := [machine]
  startedAt := 1735000000
  parsePublicKey := Hex.toVector 32
  codec := SerdeJson.codec

def start : State := ⟨initialMachines cfg, [], [], false⟩

/-- What the user's app sends along with a request: one of the two signed authorisations. -/
def payload (nonce : UInt64) : Payload where
  user := BalancePayment.Sdk.keyText BalancePayment.Sample.user
  nonce := nonce
  recoverInfo := BalancePayment.Sdk.recoverInfoText
    (if nonce = 0 then BalancePayment.Sample.first else BalancePayment.Sample.second)

/-- The request of the user for a nonce, under the id `n`. -/
def request (n : ℕ) (nonce : UInt64) : Event where
  id := Bytes.toLE 32 n
  pubkey := Vector.replicate 32 9
  createdAt := 1735000001
  kind := eventKind
  tags := [["s", cfg.session], ["p", machine.toHex]]
  content := cfg.codec.encodeMessage (.request .working .userRequest (Vector.replicate 32 0)
    (cfg.codec.encodeStatusPayload (payload nonce)))

def stamp (n : ℕ) : Stamp := ⟨Bytes.toLE 32 n, 1735000002⟩

/-- Payment and relay accept everything; the status gets the id `n`. -/
def answer (n : ℕ) : ∀ c, Call.Answer c
  | .pay _ _ _ => true
  | .sendEvent _ (.status ..) => ⟨true, some (stamp n)⟩
  | .sendEvent _ _ => ⟨true, some (stamp (n + 1))⟩
  | .spawn _ => ()

/-- The Working status of request `n`, stored under the id `id`. -/
def working (n : ℕ) (nonce : UInt64) (id : ℕ) : Event :=
  storedEvent cfg machine.toHex (.status .working .userRequest (Bytes.toLE 32 n)
    (cfg.codec.encodeStatusPayload (payload nonce))) (stamp id)

def timer (n : ℕ) (nonce : UInt64) : Timer := ⟨machine.toHex, Bytes.toLE 32 n, payload nonce⟩

def available (n : ℕ) (nonce : UInt64) (id : ℕ) : Event :=
  storedEvent cfg machine.toHex ((timer n nonce).message cfg) (stamp id)

/-- The credit of request `n`. -/
def credit (nonce : UInt64) (id : ℕ) : Event :=
  storedEvent cfg machine.toHex (.transaction (payload nonce).user
    (payAmount.toInt64 * tokensLamportsRatio)) (stamp id)

def idle : Machine := ⟨.available, none⟩
def busy (n : ℕ) : Machine := ⟨.working, some (Bytes.toLE 32 n)⟩
def finished (n : ℕ) : Machine := ⟨.available, some (Bytes.toLE 32 n)⟩

def state (m : Machine) (relay : List Event) (timers : List Timer) : State :=
  ⟨fun key => if key = machine then some m else none, relay, timers, false⟩

@[simp] theorem machines_state (m : Machine) (relay : List Event) (timers : List Timer) :
    (state m relay timers).machines machine = some m := by
  simp [state]

theorem decodeMessage_encodeMessage (message : Message) :
    cfg.codec.decodeMessage (cfg.codec.encodeMessage message) = some message :=
  SerdeJson.decodeMessage_encodeMessage message

theorem parse_machine : cfg.parsePublicKey machine.toHex = some machine :=
  Hex.toVector_ofVector machine

section Steps

variable {m : Machine} {relay : List Event} {timers : List Timer} {n id : ℕ} {nonce : UInt64}

theorem start_eq : start = state idle [] [] := by
  simp [start, state, idle, initialMachines, cfg, funext_iff]

theorem step_publish :
    (system cfg).step (state m relay timers) (.publish (request n nonce)) =
      some (state m (relay ++ [request n nonce]) timers) := by
  have hauthor : (request n nonce).pubkey ≠ cfg.controllerPubkey := by
    change Vector.replicate 32 9 ≠ Vector.replicate 32 1
    decide
  simp [system, hauthor, state]

theorem accepts_request : (subscription cfg).accepts (request n nonce) = true := by
  simp [subscription, Filter.accepts, Event.hasTag, request, cfg]

theorem accepts_stored (message : Message) :
    (subscription cfg).accepts (storedEvent cfg machine.toHex message (stamp id)) = true := by
  simp [subscription, Filter.accepts, Event.hasTag, storedEvent, Event.posted, stamp, cfg]

theorem admission_request (hm : m.status = .available) :
    admission cfg (state m relay timers).machines (request n nonce) .working .userRequest
      (Vector.replicate 32 0) (cfg.codec.encodeStatusPayload (payload nonce)) =
    some (machine.toHex, machine, payload nonce) := by
  have hpayload : cfg.codec.decodeRequestPayload (cfg.codec.encodeStatusPayload (payload nonce)) =
      some (payload nonce) := SerdeJson.decodePayload_encodePayload _
  have hmention : extractMention (request n nonce) = some machine.toHex := rfl
  simp [admission, hmention, parse_machine, state, hm, hpayload]

theorem decode_request : cfg.codec.decodeMessage (request n nonce).content =
    some (.request .working .userRequest (Vector.replicate 32 0)
      (cfg.codec.encodeStatusPayload (payload nonce))) :=
  decodeMessage_encodeMessage _

theorem handleEvent_request (hm : m.status = .available) :
    handleEvent cfg (state m relay timers).machines (request n nonce) =
      charge cfg (state m relay timers).machines (request n nonce) .working .userRequest
        machine.toHex (payload nonce) := by
  rw [handleEvent, decode_request]
  dsimp only
  rw [handleMessage_request, admission_request hm]

theorem step_request (hmem : request n nonce ∈ relay) (hm : m.status = .available) :
    (system cfg).step (state m relay timers) (.deliver (request n nonce) (answer id)) =
      some (state m (relay ++ [working n nonce id, credit nonce (id + 1)])
        (timers ++ [timer n nonce])) := by
  have hguard : (state m relay timers).stopped = false ∧
      request n nonce ∈ (state m relay timers).relay ∧
      (subscription cfg).accepts (request n nonce) = true := ⟨rfl, hmem, accepts_request⟩
  simp only [system]
  rw [if_pos hguard]
  simp only [onEvent, handleEvent_request hm, charge]
  rfl

theorem step_status {status : Status} {reason : StatusReason} {request : EventId} {text : String}
    (hmem : storedEvent cfg machine.toHex (.status status reason request text) (stamp id) ∈ relay) :
    (system cfg).step (state m relay timers)
        (.deliver (storedEvent cfg machine.toHex (.status status reason request text) (stamp id))
          (answer 0)) =
      some (state ⟨status, some request⟩ relay timers) := by
  have hguard : (state m relay timers).stopped = false ∧
      storedEvent cfg machine.toHex (.status status reason request text) (stamp id) ∈
        (state m relay timers).relay ∧
      (subscription cfg).accepts (storedEvent cfg machine.toHex
        (.status status reason request text) (stamp id)) = true := ⟨rfl, hmem, accepts_stored _⟩
  have hdecode : cfg.codec.decodeMessage (storedEvent cfg machine.toHex
      (.status status reason request text) (stamp id)).content =
      some (.status status reason request text) := decodeMessage_encodeMessage _
  have hmention : extractMention (storedEvent cfg machine.toHex
      (.status status reason request text) (stamp id)) = some machine.toHex := rfl
  have hupdate : updateMachine cfg (state m relay timers).machines (storedEvent cfg machine.toHex
      (.status status reason request text) (stamp id)) =
      .ok (state ⟨status, some request⟩ relay timers).machines := by
    simp only [updateMachine, hmention, parse_machine, machines_state, hdecode]
    apply congrArg Except.ok
    funext key
    by_cases h : key = machine <;> simp [state, h]
  have hevent : handleEvent cfg (state m relay timers).machines (storedEvent cfg machine.toHex
      (.status status reason request text) (stamp id)) =
      pure (.ok (state ⟨status, some request⟩ relay timers).machines) := by
    rw [handleEvent, hdecode]
    exact congrArg pure hupdate
  simp only [system]
  rw [if_pos hguard]
  simp only [onEvent, hevent]
  simp [resulting, state, Except.isOk, Except.toBool]

theorem step_working (hmem : working n nonce id ∈ relay) :
    (system cfg).step (state m relay timers) (.deliver (working n nonce id) (answer 0)) =
      some (state (busy n) relay timers) :=
  step_status hmem

theorem step_available (hmem : available n nonce id ∈ relay) :
    (system cfg).step (state m relay timers) (.deliver (available n nonce id) (answer 0)) =
      some (state (finished n) relay timers) :=
  step_status hmem

theorem step_fire (hmem : timer n nonce ∈ timers) :
    (system cfg).step (state m relay timers) (.fire (timer n nonce) (some (stamp id))) =
      some (state m (relay ++ [available n nonce id]) (timers.erase (timer n nonce))) := by
  have hguard : (state m relay timers).stopped = false ∧
      timer n nonce ∈ (state m relay timers).timers := ⟨rfl, hmem⟩
  simp only [system]
  rw [if_pos hguard]
  rfl

end Steps

/-- Both requests are delivered before the status of the first comes back. -/
def crossed : List Op :=
  [.publish (request 1 0), .publish (request 2 1), .deliver (request 1 0) (answer 10),
    .deliver (request 2 1) (answer 20), .deliver (working 1 0 10) (answer 0),
    .deliver (working 2 1 20) (answer 0), .fire (timer 1 0) (some (stamp 30)),
    .deliver (available 1 0 30) (answer 0)]

def posted : List Event := [request 1 0, request 2 1]
def charged : List Event := [request 1 0, request 2 1, working 1 0 10, credit 0 11]

theorem crossed_two : (system cfg).run start (crossed.take 2) = state idle posted [] := by
  have hops : crossed.take 2 = [.publish (request 1 0), .publish (request 2 1)] := rfl
  rw [hops, start_eq, run_cons, next_of_step step_publish, run_cons, next_of_step step_publish]
  rfl

theorem crossed_three :
    (system cfg).run start (crossed.take 3) = state idle charged [timer 1 0] := by
  have hops : crossed.take 3 = crossed.take 2 ++ [.deliver (request 1 0) (answer 10)] := rfl
  rw [hops, run_concat, crossed_two, next_of_step (step_request ?_ rfl)]
  · rfl
  · exact List.mem_cons_self

theorem crossed_four : (system cfg).run start (crossed.take 4) =
    state idle (charged ++ [working 2 1 20, credit 1 21]) [timer 1 0, timer 2 1] := by
  have hops : crossed.take 4 = crossed.take 3 ++ [.deliver (request 2 1) (answer 20)] := rfl
  rw [hops, run_concat, crossed_three, next_of_step (step_request ?_ rfl)]
  · rfl
  · exact List.mem_cons_of_mem _ List.mem_cons_self

theorem working_mem : working 1 0 10 ∈ charged :=
  List.mem_cons_of_mem _ (List.mem_cons_of_mem _ List.mem_cons_self)

theorem crossed_seven : (system cfg).run start (crossed.take 7) =
    state (busy 2) (charged ++ [working 2 1 20, credit 1 21] ++ [available 1 0 30])
      [timer 2 1] := by
  have hops : crossed.take 7 = crossed.take 4 ++ [.deliver (working 1 0 10) (answer 0),
    .deliver (working 2 1 20) (answer 0), .fire (timer 1 0) (some (stamp 30))] := rfl
  rw [hops, run_append, crossed_four, run_cons, next_of_step (step_working ?_), run_cons,
    next_of_step (step_working ?_), run_cons, next_of_step (step_fire List.mem_cons_self), run_nil,
    List.erase_cons_head]
  · exact List.mem_append_right _ List.mem_cons_self
  · exact List.mem_append_left _ working_mem

/-- The session of the first request is over before the second request is delivered. -/
def paced : List Op :=
  [.publish (request 1 0), .publish (request 2 1), .deliver (request 1 0) (answer 10),
    .deliver (working 1 0 10) (answer 0), .fire (timer 1 0) (some (stamp 20)),
    .deliver (available 1 0 20) (answer 0), .deliver (request 2 1) (answer 30)]

theorem paced_five : (system cfg).run start (paced.take 5) =
    state (busy 1) (charged ++ [available 1 0 20]) [] := by
  have hops : paced.take 5 = crossed.take 3 ++ [.deliver (working 1 0 10) (answer 0),
    .fire (timer 1 0) (some (stamp 20))] := rfl
  rw [hops, run_append, crossed_three, run_cons, next_of_step (step_working ?_), run_cons,
    next_of_step (step_fire List.mem_cons_self), run_nil, List.erase_cons_head]
  exact working_mem

theorem paced_six : (system cfg).run start (paced.take 6) =
    state (finished 1) (charged ++ [available 1 0 20]) [] := by
  have hops : paced.take 6 = paced.take 5 ++ [.deliver (available 1 0 20) (answer 0)] := rfl
  rw [hops, run_concat, paced_five, next_of_step (step_available ?_)]
  exact List.mem_append_right _ List.mem_cons_self

end Sample

variable {cfg : Config} {s₀ s s' : State} {op : Op} {key : PublicKey} {ops : List Op}

/-! ### Reports -/

theorem reports_eq_some {machine : Machine} (h : op.reports cfg key = some machine) :
    ∃ event answer status reason request payload, op = .deliver event answer ∧
      cfg.codec.decodeMessage event.content = some (.status status reason request payload) ∧
      machine = ⟨status, some request⟩ ∧ mentioned cfg event = some key := by
  cases op with
  | publish event => cases h
  | fire timer stamp => cases h
  | deliver event answer =>
      simp only [Op.reports, reported] at h
      split at h
      · rename_i status reason request payload hmessage
        split_ifs at h with hmention
        cases h
        exact ⟨event, answer, status, reason, request, payload, rfl, hmessage, rfl, hmention⟩
      · cases h

theorem controlled_of_run (cfg : Config) (s : State) (key : PublicKey) (ops : List Op) :
    (((system cfg).run s ops).machines key).isSome = (s.machines key).isSome :=
  run_rel (M := system cfg) (R := fun s s' => (s'.machines key).isSome = (s.machines key).isSome)
    (fun _ => rfl) (fun hst htu => htu.trans hst)
    (fun hstep => by rw [machine_of_step hstep key, Option.isSome_map]) s ops

/-- A controlled machine is as the last delivered report left it. -/
theorem machine_eq_iff (h₀ : (s₀.machines key).isSome = true) {n : ℕ} {machine : Machine} :
    ((system cfg).run s₀ (ops.take n)).machines key = some machine ↔
      LastWrite (system cfg) (fun s => s.machines key) (Op.reports cfg key) s₀ ops n machine := by
  have hlast {machine : Machine}
      (h : ((system cfg).run s₀ (ops.take n)).machines key = some machine) :
      LastWrite (system cfg) (fun s => s.machines key) (Op.reports cfg key) s₀ ops n machine := by
    refine last_write (fun s : State => s.machines key) (Op.reports cfg key)
      (fun {i a s s'} hat => ?_) h
    have hcontrolled := (controlled_of_run cfg s₀ key (ops.take i)).trans h₀
    rw [← hat.before] at hcontrolled
    obtain ⟨before, hbefore⟩ := Option.isSome_iff_exists.mp hcontrolled
    rw [machine_of_step hat.step key, hbefore]
    cases a.reports cfg key <;> rfl
  refine ⟨hlast, fun h => ?_⟩
  have hcontrolled := (controlled_of_run cfg s₀ key (ops.take n)).trans h₀
  obtain ⟨now, hnow⟩ := Option.isSome_iff_exists.mp hcontrolled
  rw [hnow, (hlast hnow).unique h]

/-! ### Session identity -/

/-- A delivered Available takes no machine out of a session of another request. -/
def SessionsKept (cfg : Config) (s₀ : State) (ops : List Op) : Prop :=
  ∀ {i : ℕ} {event : Event} {answer : ∀ c, Call.Answer c} {s s' : State} {reason : StatusReason}
    {r r' : EventId} {payload : String} {key : PublicKey},
    StepAt (system cfg) s₀ ops i (.deliver event answer) s s' →
    cfg.codec.decodeMessage event.content = some (.status .available reason r payload) →
    s.machines key = some ⟨.working, some r'⟩ → r ≠ r' →
    ∃ machine, s'.machines key = some machine ∧ machine.status = .working

/-- Whenever an Available is delivered for a machine and the latest status before it was a Working
(or start-up left the machine working), both name the same request. -/
def InOrder (cfg : Config) (s₀ : State) (ops : List Op) : Prop :=
  ∀ {i : ℕ} {op : Op} {s s' : State} {key : PublicKey} {r r' : EventId},
    StepAt (system cfg) s₀ ops i op s s' → (s₀.machines key).isSome = true →
    op.reports cfg key = some ⟨.available, some r⟩ →
    LastWrite (system cfg) (fun s => s.machines key) (Op.reports cfg key) s₀ ops i
      ⟨.working, some r'⟩ → r = r'

/-- Sessions keep their identity exactly in the runs that deliver statuses in session order. -/
theorem sessionsKept_iff_inOrder (cfg : Config) (s₀ : State) (ops : List Op) :
    SessionsKept cfg s₀ ops ↔ InOrder cfg s₀ ops := by
  constructor
  · intro hkept i op s s' key r r' hat h₀ hreports hlast
    by_contra hne
    have hworking := hat.before ▸ (machine_eq_iff h₀).mpr hlast
    obtain ⟨event, answer, status, reason, request, payload, rfl, hmessage, heq, -⟩ :=
      reports_eq_some hreports
    cases heq
    obtain ⟨machine, hmachine, hstatus⟩ := hkept hat hmessage hworking hne
    rw [machine_of_step hat.step key, hworking, hreports] at hmachine
    cases hmachine
    cases hstatus
  · intro horder i event answer s s' reason r r' payload key hat hmessage hworking hne
    rw [machine_of_step hat.step key, hworking]
    cases hreports : (Op.deliver event answer).reports cfg key with
    | none => exact ⟨_, rfl, rfl⟩
    | some machine =>
        obtain ⟨_, _, _, _, request, _, hop, hmessage', rfl, -⟩ := reports_eq_some hreports
        cases hop
        cases hmessage.symm.trans hmessage'
        have hworking := hat.before ▸ hworking
        have h₀ : (s₀.machines key).isSome = true := by
          rw [← controlled_of_run cfg s₀ key (ops.take i), hworking, Option.isSome_some]
        have hlast := (machine_eq_iff h₀).mp hworking
        exact absurd (horder hat h₀ hreports hlast) hne

/-- The timer of the first request ends the session of the second. -/
theorem stale_available_stops : ¬ SessionsKept Sample.cfg Sample.start Sample.crossed := by
  intro hkept
  have hat : StepAt (system Sample.cfg) Sample.start Sample.crossed 7
      (.deliver (Sample.available 1 0 30) (Sample.answer 0)) _ _ :=
    ⟨rfl, Sample.crossed_seven.symm,
      Sample.step_available (List.mem_append_right _ List.mem_cons_self)⟩
  have hne : (Bytes.toLE 32 1 : EventId) ≠ Bytes.toLE 32 2 := by decide
  obtain ⟨machine, hmachine, hstatus⟩ := hkept hat (Sample.decodeMessage_encodeMessage _)
    (Sample.machines_state _ _ _) hne
  rw [Sample.machines_state] at hmachine
  cases hmachine
  cases hstatus

/-! ### One charge per working period -/

/-- The operation delivers a request for the machine that is admitted and whose payment succeeds. -/
def Chargeable (cfg : Config) (s : State) (key : PublicKey) (id : EventId) (toStatus : Status) :
    Op → Prop
  | .deliver event answer =>
    event.id = id ∧ ∃ reason initialRequest payload mention parsed,
      cfg.codec.decodeMessage event.content =
        some (.request toStatus reason initialRequest payload) ∧
      admission cfg s.machines event toStatus reason initialRequest payload =
        some (mention, key, parsed) ∧ paid answer parsed = true
  | _ => False

/-- `handle_message` successfully charges for this request on this machine. -/
def Charges (cfg : Config) (s : State) (key : PublicKey) (id : EventId) (toStatus : Status) :
    Op → Prop
  | .deliver event answer =>
    event.id = id ∧ mentioned cfg event = some key ∧
      (∃ reason initialRequest payload, cfg.codec.decodeMessage event.content =
        some (.request toStatus reason initialRequest payload)) ∧
      Charged answer ((handleEvent cfg s.machines event).calls answer)
  | _ => False

theorem charges_iff_chargeable {id : EventId} {toStatus : Status} :
    Charges cfg s key id toStatus op ↔ Chargeable cfg s key id toStatus op := by
  cases op with
  | publish event => exact Iff.rfl
  | fire timer stamp => exact Iff.rfl
  | deliver event answer =>
      constructor
      · rintro ⟨hid, hmention, ⟨reason, request, payload, hmessage⟩, hcharged⟩
        rw [handleEvent, hmessage] at hcharged
        obtain ⟨mention, key', parsed, hadmit, hpaid⟩ := (charged_request answer).mp hcharged
        obtain rfl : key' = key :=
      Option.some.inj ((admission_eq_some hadmit).1.symm.trans hmention)
        exact ⟨hid, reason, request, payload, mention, parsed, hmessage, hadmit, hpaid⟩
      · rintro ⟨hid, reason, request, payload, mention, parsed, hmessage, hadmit, hpaid⟩
        refine ⟨hid, (admission_eq_some hadmit).1, ⟨reason, request, payload, hmessage⟩, ?_⟩
        rw [handleEvent, hmessage]
        exact (charged_request answer).mpr ⟨mention, key, parsed, hadmit, hpaid⟩

/-- Between two charges on a machine an Available of the first is delivered, and both requests are
requests to Working. -/
def OneChargePerPeriod (cfg : Config) (s₀ : State) (ops : List Op) : Prop :=
  ∀ {i j : ℕ} {a b : Op} {s s' t t' : State} {key : PublicKey} {first second : EventId}
    {toFirst toSecond : Status},
    StepAt (system cfg) s₀ ops i a s s' → StepAt (system cfg) s₀ ops j b t t' → i < j →
    Charges cfg s key first toFirst a → Charges cfg t key second toSecond b →
    toFirst = .working ∧ toSecond = .working ∧
      ∃ k c u u', i < k ∧ k < j ∧ StepAt (system cfg) s₀ ops k c u u' ∧
        c.reports cfg key = some ⟨.available, some first⟩

/-- What the relay must see to for the charge guard to work. -/
structure Paced (cfg : Config) (s₀ : State) (ops : List Op) : Prop where
  /-- No request to stop a machine would be charged. -/
  noStops : ∀ {i : ℕ} {op : Op} {s s' : State} {key : PublicKey} {id : EventId},
    StepAt (system cfg) s₀ ops i op s s' → ¬ Chargeable cfg s key id .available op
  /-- A chargeable request is delivered only after some status of the one charged before it. -/
  echoed : ∀ {i j : ℕ} {a b : Op} {s s' t t' : State} {key : PublicKey} {first second : EventId},
    StepAt (system cfg) s₀ ops i a s s' → StepAt (system cfg) s₀ ops j b t t' → i < j →
    Chargeable cfg s key first .working a → Chargeable cfg t key second .working b →
    ∃ k c u u' status, i < k ∧ k < j ∧ StepAt (system cfg) s₀ ops k c u u' ∧
      c.reports cfg key = some ⟨status, some first⟩
  /-- While a charged session is not over, no Available of another request reaches the machine. -/
  undisturbed : ∀ {i k : ℕ} {a c : Op} {s s' u u' : State} {key : PublicKey} {id r : EventId},
    StepAt (system cfg) s₀ ops i a s s' → StepAt (system cfg) s₀ ops k c u u' → i < k →
    Chargeable cfg s key id .working a → c.reports cfg key = some ⟨.available, some r⟩ →
    (∃ request, u.machines key = some ⟨.working, request⟩) →
    r = id ∨ ∃ l d v v', i < l ∧ l < k ∧ StepAt (system cfg) s₀ ops l d v v' ∧
      d.reports cfg key = some ⟨.available, some id⟩

theorem Chargeable.machine {id : EventId} {toStatus : Status}
    (h : Chargeable cfg s key id toStatus op) :
    ∃ machine, s.machines key = some machine ∧ machine.status ≠ toStatus := by
  cases op with
  | publish event => exact h.elim
  | fire timer stamp => exact h.elim
  | deliver event answer =>
      obtain ⟨-, reason, request, payload, mention, parsed, -, hadmit, -⟩ := h
      exact (admission_eq_some hadmit).2

theorem reports_of_stop {request : Option EventId} (hstep : (system cfg).step s op = some s')
    (hbefore : s.machines key = some ⟨.working, request⟩) {machine : Machine}
    (hafter : s'.machines key = some machine) (hstatus : machine.status = .available) :
    ∃ r, op.reports cfg key = some ⟨.available, some r⟩ := by
  rw [machine_of_step hstep key, hbefore] at hafter
  cases hreports : op.reports cfg key with
  | none =>
      rw [hreports] at hafter
      cases hafter
      cases hstatus
  | some report =>
      obtain ⟨_, _, status, _, r, _, _, _, rfl, -⟩ := reports_eq_some hreports
      rw [hreports] at hafter
      cases hafter
      cases hstatus
      exact ⟨r, rfl⟩

theorem status_cases (machine : Machine) :
    machine.status = .available ∨ machine = ⟨.working, machine.initialRequest⟩ := by
  obtain ⟨_ | _, request⟩ := machine
  · exact Or.inl rfl
  · exact Or.inr rfl

/-- A machine that was working at one position and is not at a later one was stopped between. -/
theorem exists_stop {k j : ℕ} (hkj : k ≤ j) {machine machine' : Machine}
    (hk : ((system cfg).run s₀ (ops.take k)).machines key = some machine)
    (hworking : machine.status = .working)
    (hj : ((system cfg).run s₀ (ops.take j)).machines key = some machine')
    (hstopped : machine'.status = .available) :
    ∃ l d v v' r, k ≤ l ∧ l < j ∧ StepAt (system cfg) s₀ ops l d v v' ∧
      (∃ request, v.machines key = some ⟨.working, request⟩) ∧
      d.reports cfg key = some ⟨.available, some r⟩ := by
  obtain ⟨l, d, v, v', hkl, hlj, hl, hbefore, machine'', hafter, hstatus⟩ := exists_step_between
    (P := fun s : State => ∃ machine, s.machines key = some machine ∧ machine.status = .available)
    hkj (by
      rintro ⟨other, hother, hstatus⟩
      cases hk.symm.trans hother
      cases hworking.symm.trans hstatus) ⟨machine', hj, hstopped⟩
  have hsome : (v.machines key).isSome = true := by
    rw [← controlled_of_run cfg v key [d], run_cons, run_nil, next_of_step hl.step, hafter]
    rfl
  obtain ⟨now, hnow⟩ := Option.isSome_iff_exists.mp hsome
  rcases status_cases now with havailable | heq
  · exact absurd ⟨now, hnow, havailable⟩ hbefore
  · rw [heq] at hnow
    obtain ⟨r, hr⟩ := reports_of_stop hl.step hnow hafter hstatus
    exact ⟨l, d, v, v', r, hkl, hlj, hl, ⟨_, hnow⟩, hr⟩

/-- In a run whose deliveries are paced, each charge has its own working period. -/
theorem one_charge_per_period_of_paced (hpaced : Paced cfg s₀ ops) :
    OneChargePerPeriod cfg s₀ ops := by
  intro i j a b s s' t t' key first second toFirst toSecond hi hj hij hfirst hsecond
  rw [charges_iff_chargeable] at hfirst hsecond
  have hworking : ∀ {status}, status ≠ Status.available → status = .working := by
    rintro (_ | _) h
    · exact absurd rfl h
    · rfl
  obtain rfl : toFirst = .working := hworking fun h => hpaced.noStops hi (h ▸ hfirst)
  obtain rfl : toSecond = .working := hworking fun h => hpaced.noStops hj (h ▸ hsecond)
  refine ⟨rfl, rfl, ?_⟩
  obtain ⟨k, c, u, u', status, hik, hkj, hk, hreport⟩ := hpaced.echoed hi hj hij hfirst hsecond
  cases status with
  | available => exact ⟨k, c, u, u', hik, hkj, hk, hreport⟩
  | working =>
      -- the echo set the machine working; the second charge found it available
      obtain ⟨machine, hmachine, hstatus⟩ := hsecond.machine
      have havailable : machine.status = .available :=
        (status_cases machine).resolve_right fun h => hstatus (by rw [h])
      rw [hj.before] at hmachine
      have hechoed : ((system cfg).run s₀ (ops.take (k + 1))).machines key =
          some ⟨.working, some first⟩ := by
        have hsome := controlled_of_run cfg s₀ key (ops.take k)
        rw [← controlled_of_run cfg s₀ key (ops.take j), hmachine, ← hk.before] at hsome
        obtain ⟨before, hbefore⟩ := Option.isSome_iff_exists.mp hsome
        rw [← hk.after, machine_of_step hk.step key, hbefore, hreport]
        rfl
      obtain ⟨l, d, v, v', r, hkl, hlj, hl, hwas, hstop⟩ :=
        exists_stop (Nat.succ_le_of_lt hkj) hechoed rfl hmachine havailable
      rcases hpaced.undisturbed hi hl (by omega) hfirst hstop hwas with rfl | hearlier
      · exact ⟨l, d, v, v', by omega, hlj, hl, hstop⟩
      · obtain ⟨m, e, w, w', him, hml, hm, hreport⟩ := hearlier
        exact ⟨m, e, w, w', him, Nat.lt_trans hml hlj, hm, hreport⟩

namespace Sample

variable {n id : ℕ} {nonce : UInt64} {toStatus : Status} {request' : EventId}
  {answer' : ∀ c, Call.Answer c}

theorem mentioned_request : mentioned Sample.cfg (request n nonce) = some machine := parse_machine

theorem mentioned_stored (message : Message) :
    mentioned Sample.cfg (storedEvent Sample.cfg machine.toHex message (stamp id)) = some machine :=
  parse_machine

theorem chargeable_request (m : Machine) (relay : List Event) (timers : List Timer) (n id : ℕ)
    (nonce : UInt64) (hm : m.status = .available) :
    Chargeable Sample.cfg (state m relay timers) machine (Bytes.toLE 32 n) .working
      (.deliver (request n nonce) (answer id)) :=
  ⟨rfl, _, _, _, _, _, decode_request, admission_request hm, rfl⟩

theorem of_chargeable_request (h : Chargeable Sample.cfg s key request' toStatus
    (.deliver (request n nonce) answer')) :
    toStatus = .working ∧ request' = Bytes.toLE 32 n ∧ key = machine := by
  obtain ⟨hid, reason, initialRequest, payload, mention, parsed, hmessage, hadmit, -⟩ := h
  rw [decode_request] at hmessage
  cases hmessage
  have hmention := (admission_eq_some hadmit).1
  rw [mentioned_request] at hmention
  exact ⟨rfl, hid.symm, (Option.some.inj hmention).symm⟩

theorem not_chargeable_status {status : Status} {reason : StatusReason} {r : EventId}
    {text : String} : ¬ Chargeable Sample.cfg s key request' toStatus
      (.deliver (storedEvent Sample.cfg machine.toHex (.status status reason r text) (stamp id))
        answer') := by
  rintro ⟨-, _, _, _, _, _, hmessage, -⟩
  have hdecode : Sample.cfg.codec.decodeMessage (storedEvent Sample.cfg machine.toHex
      (.status status reason r text) (stamp id)).content = some (.status status reason r text) :=
    decodeMessage_encodeMessage _
  rw [hdecode] at hmessage
  cases hmessage

theorem reports_request :
    (Op.deliver (request n nonce) answer').reports Sample.cfg key = none := by
  simp only [Op.reports, reported, decode_request]

theorem reports_status {status : Status} {reason : StatusReason} {r : EventId} {text : String} :
    (Op.deliver (storedEvent Sample.cfg machine.toHex (.status status reason r text) (stamp id))
      answer').reports Sample.cfg key = if machine = key then some ⟨status, some r⟩ else none := by
  have hdecode : Sample.cfg.codec.decodeMessage (storedEvent Sample.cfg machine.toHex
      (.status status reason r text) (stamp id)).content = some (.status status reason r text) :=
    decodeMessage_encodeMessage _
  simp only [Op.reports, reported, hdecode, mentioned_stored, Option.some.injEq]

theorem charged_in_paced {i : ℕ} {s' : State} (h : StepAt (system Sample.cfg) start paced i op s s')
    (hcharge : Chargeable Sample.cfg s key request' toStatus op) :
    (i = 2 ∧ request' = Bytes.toLE 32 1 ∨ i = 6 ∧ request' = Bytes.toLE 32 2) ∧
      toStatus = .working ∧ key = machine := by
  rcases i with _ | _ | _ | _ | _ | _ | _ | i <;> cases h.op
  · exact hcharge.elim
  · exact hcharge.elim
  · obtain ⟨hstatus, hid, hkey⟩ := of_chargeable_request hcharge
    exact ⟨Or.inl ⟨rfl, hid⟩, hstatus, hkey⟩
  · exact absurd hcharge not_chargeable_status
  · exact hcharge.elim
  · exact absurd hcharge not_chargeable_status
  · obtain ⟨hstatus, hid, hkey⟩ := of_chargeable_request hcharge
    exact ⟨Or.inr ⟨rfl, hid⟩, hstatus, hkey⟩

theorem stopped_in_paced {i : ℕ} {s' : State} {r : EventId}
    (h : StepAt (system Sample.cfg) start paced i op s s')
    (hreports : op.reports Sample.cfg key = some ⟨.available, some r⟩) :
    i = 5 ∧ r = Bytes.toLE 32 1 := by
  rcases i with _ | _ | _ | _ | _ | _ | _ | i <;> cases h.op
  · cases hreports
  · cases hreports
  · cases reports_request.symm.trans hreports
  · have hworking := reports_status.symm.trans hreports
    split_ifs at hworking
    cases hworking
  · cases hreports
  · have havailable := reports_status.symm.trans hreports
    split_ifs at havailable
    cases havailable
    exact ⟨rfl, rfl⟩
  · cases reports_request.symm.trans hreports

theorem available_at_five : ∃ s', StepAt (system Sample.cfg) start paced 5
    (.deliver (available 1 0 20) (answer 0)) (state (busy 1) (charged ++ [available 1 0 20]) [])
    s' :=
  ⟨_, rfl, paced_five.symm, step_available (List.mem_append_right _ List.mem_cons_self)⟩

theorem paced_paced : Paced Sample.cfg start paced where
  noStops h hcharge := by cases (charged_in_paced h hcharge).2.1
  echoed {i j a b s s' t t' key first second} hi hj hij hfirst hsecond := by
    obtain ⟨hposition, -, rfl⟩ := charged_in_paced hi hfirst
    obtain ⟨hlater, -, -⟩ := charged_in_paced hj hsecond
    obtain ⟨s', hstep⟩ := available_at_five
    obtain ⟨rfl, rfl⟩ := hposition.resolve_right fun h => by omega
    refine ⟨5, _, _, s', .available, by omega, by omega, hstep, ?_⟩
    exact reports_status.trans (if_pos rfl)
  undisturbed {i k a c s s' u u' key id r} hi hk hik hcharge hreports _ := by
    obtain ⟨hcharge, -⟩ := charged_in_paced hi hcharge
    obtain ⟨rfl, rfl⟩ := stopped_in_paced hk hreports
    left
    rcases hcharge with ⟨-, rfl⟩ | ⟨rfl, -⟩
    · rfl
    · omega

end Sample

/-- Both requests are charged although no status of the first has been delivered. -/
theorem charged_twice_before_echo :
    ¬ OneChargePerPeriod Sample.cfg Sample.start Sample.crossed := by
  intro hone
  have hi : StepAt (system Sample.cfg) Sample.start Sample.crossed 2
      (.deliver (Sample.request 1 0) (Sample.answer 10)) (Sample.state Sample.idle Sample.posted [])
      _ := ⟨rfl, Sample.crossed_two.symm, Sample.step_request List.mem_cons_self rfl⟩
  have hj : StepAt (system Sample.cfg) Sample.start Sample.crossed 3
      (.deliver (Sample.request 2 1) (Sample.answer 20))
      (Sample.state Sample.idle Sample.charged [Sample.timer 1 0]) _ :=
    ⟨rfl, Sample.crossed_three.symm,
      Sample.step_request (List.mem_cons_of_mem _ List.mem_cons_self) rfl⟩
  have hfirst := charges_iff_chargeable.mpr
    (Sample.chargeable_request Sample.idle Sample.posted [] 1 10 0 rfl)
  have hsecond := charges_iff_chargeable.mpr
    (Sample.chargeable_request Sample.idle Sample.charged [Sample.timer 1 0] 2 20 1 rfl)
  obtain ⟨-, -, k, -, -, -, h2, h3, -⟩ := hone hi hj (by omega) hfirst hsecond
  omega

/-- Two charges, and the end of the first session between them. -/
theorem one_charge_per_period_sample :
    OneChargePerPeriod Sample.cfg Sample.start Sample.paced ∧
      (∃ s s', StepAt (system Sample.cfg) Sample.start Sample.paced 2
          (.deliver (Sample.request 1 0) (Sample.answer 10)) s s' ∧
        Charges Sample.cfg s Sample.machine (Bytes.toLE 32 1) .working
          (.deliver (Sample.request 1 0) (Sample.answer 10))) ∧
      ∃ s s', StepAt (system Sample.cfg) Sample.start Sample.paced 6
          (.deliver (Sample.request 2 1) (Sample.answer 30)) s s' ∧
        Charges Sample.cfg s Sample.machine (Bytes.toLE 32 2) .working
          (.deliver (Sample.request 2 1) (Sample.answer 30)) := by
  refine ⟨one_charge_per_period_of_paced Sample.paced_paced, ?_, ?_⟩
  · refine ⟨_, _, ⟨rfl, Sample.crossed_two.symm, Sample.step_request List.mem_cons_self rfl⟩, ?_⟩
    exact charges_iff_chargeable.mpr (Sample.chargeable_request _ _ _ 1 10 0 rfl)
  · refine ⟨_, _, ⟨rfl, Sample.paced_six.symm, Sample.step_request ?_ rfl⟩, ?_⟩
    · exact List.mem_cons_of_mem _ List.mem_cons_self
    · exact charges_iff_chargeable.mpr (Sample.chargeable_request _ _ _ 2 30 1 rfl)

end DsProxy.Controller
