import DsProxy.Controller.Handler
import DsProxy.Lib.Run

/-!
# Runs of the controller

The main loop against a relay that stores events and delivers any stored event that the subscription
accepts, in any order and any number of times. Other parties publish what they like under their own
keys; timers fire whenever they do.
-/

namespace DsProxy.Controller

open Relay Runs

structure State where
  machines : Machines
  relay : List Event
  timers : List Timer
  stopped : Bool

/-- `MessageHandler::new`: every machine starts available. -/
def initialMachines (cfg : Config) : Machines := fun key =>
  if cfg.machinePubkeys.contains key = true then some ⟨.available, none⟩ else none

/-- The filter of `subscribe_last_event`, for the controller's own events. -/
def lastEvent (cfg : Config) (mention : PublicKey) : Filter where
  kind := eventKind
  authors := some [cfg.controllerPubkey]
  since := none
  until_ := some cfg.startedAt
  session := cfg.session
  mentions := [mention.toHex]

/-- `run` up to its main loop: the machines' last events set their statuses, an error panics. -/
def startUp (cfg : Config) (lastEvents : List Event) : Except Error Machines :=
  lastEvents.foldlM (updateMachine cfg) (initialMachines cfg)

/-- The filter of the main loop. -/
def subscription (cfg : Config) : Filter where
  kind := eventKind
  authors := none
  since := some cfg.startedAt
  until_ := none
  session := cfg.session
  mentions := cfg.machinePubkeys.map PublicKey.toHex

/-- What the relay stores for an accepted `send_event`. -/
def storedEvent (cfg : Config) (dest : String) (message : Message) (stamp : Stamp) : Event :=
  .posted cfg.controllerPubkey cfg.session dest (cfg.codec.encodeMessage message) stamp

/-- The event a call left on the relay. -/
def published (cfg : Config) (answer : ∀ c, Call.Answer c) : Call → Option Event
  | .sendEvent dest message =>
    let sent : Sent := answer (.sendEvent dest message)
    sent.stamp.map (storedEvent cfg dest message)
  | _ => none

theorem published_sendEvent (cfg : Config) (answer : ∀ c, Call.Answer c) (dest : String)
    (message : Message) : published cfg answer (.sendEvent dest message) = none ∨
      ∃ stamp, published cfg answer (.sendEvent dest message) =
        some (storedEvent cfg dest message stamp) := by
  have hsent (sent : Sent) : sent.stamp.map (storedEvent cfg dest message) = none ∨
      ∃ stamp, sent.stamp.map (storedEvent cfg dest message) =
        some (storedEvent cfg dest message stamp) := by
    cases sent.stamp with
    | none => exact Or.inl rfl
    | some stamp => exact Or.inr ⟨stamp, rfl⟩
  exact hsent (answer (.sendEvent dest message))

def spawned : Call → Option Timer
  | .spawn timer => some timer
  | _ => none

/-- One event in the main loop; an error stops the controller. -/
def onEvent (cfg : Config) (s : State) (event : Event) (answer : ∀ c, Call.Answer c) : State where
  machines := resulting s.machines ((handleEvent cfg s.machines event).eval answer)
  relay := s.relay ++
    ((handleEvent cfg s.machines event).calls answer).filterMap (published cfg answer)
  timers := s.timers ++ ((handleEvent cfg s.machines event).calls answer).filterMap spawned
  stopped := !((handleEvent cfg s.machines event).eval answer).isOk

inductive Op
  | publish (event : Event)
  | deliver (event : Event) (answer : ∀ c, Call.Answer c)
  | fire (timer : Timer) (stamp : Option Stamp)

def system (cfg : Config) : System State Op where
  step s op :=
    match op with
    | .publish event =>
      if event.pubkey = cfg.controllerPubkey then none
      else some { s with relay := s.relay ++ [event] }
    | .deliver event answer =>
      if s.stopped = false ∧ event ∈ s.relay ∧ (subscription cfg).accepts event = true then
        some (onEvent cfg s event answer)
      else none
    | .fire timer stamp =>
      if s.stopped = false ∧ timer ∈ s.timers then
        some { s with
          relay := s.relay ++
            (stamp.map (storedEvent cfg timer.mention (timer.message cfg))).toList
          timers := s.timers.erase timer }
      else none

/-! ### What a step does to the machines -/

variable {cfg : Config} {s s' : State} {op : Op} {key : PublicKey}

theorem deliver_done {event : Event} {answer : ∀ c, Call.Answer c}
    (h : (system cfg).step s (.deliver event answer) = some s') :
    s.stopped = false ∧ event ∈ s.relay ∧ (subscription cfg).accepts event = true ∧
      s' = onEvent cfg s event answer := by
  simp only [system] at h
  split at h
  · rename_i hguard
    exact ⟨hguard.1, hguard.2.1, hguard.2.2, (Option.some.inj h).symm⟩
  · cases h

/-- The machine state an operation reports for a machine. -/
def Op.reports (cfg : Config) (key : PublicKey) : Op → Option Machine
  | .deliver event _ => reported cfg key event
  | _ => none

theorem machine_of_step (hstep : (system cfg).step s op = some s') (key : PublicKey) :
    s'.machines key = (s.machines key).map fun machine => (op.reports cfg key).getD machine := by
  cases op with
  | publish event =>
      simp only [system] at hstep
      split at hstep
      · cases hstep
      · cases hstep
        simp [Op.reports]
  | fire timer stamp =>
      simp only [system] at hstep
      split at hstep
      · cases hstep
        simp [Op.reports]
      · cases hstep
  | deliver event answer =>
      obtain ⟨-, -, -, rfl⟩ := deliver_done hstep
      exact resulting_handleEvent answer key

end DsProxy.Controller
