import DsProxy.Backend.Run
import DsProxy.BalancePayment.Sdk
import DsProxy.Controller.Run

/-!
# Runs of the deployment

The program on chain, the controller and the backend around one relay. A payment of the controller
runs on the accounts as they are then; everything else about a step is a step of one of the three.
Anyone may use the chain, and publish under a key that is neither service's.
-/

namespace DsProxy.Deployment

open Relay Runs

structure Config where
  runtime : BalancePayment.Runtime
  sdk : BalancePayment.Sdk
  controller : Controller.Config
  backend : Backend.Config

/-- The controller's state holds the relay of both services. -/
structure State where
  accounts : BalancePayment.Accounts
  controller : Controller.State
  db : Backend.Db
  threads : List (Backend.Async Unit)
  delivered : List ℕ

def State.backend (s : State) : Backend.State :=
  ⟨⟨s.db, s.controller.relay⟩, s.threads, s.delivered⟩

def State.setBackend (s : State) (b : Backend.State) : State where
  accounts := s.accounts
  controller := { s.controller with relay := b.relay }
  db := b.db
  threads := b.threads
  delivered := b.delivered

inductive Op
  | chain (op : BalancePayment.Op)
  | publish (event : Event)
  | deliver (event : Event) (submission : BalancePayment.Submission)
      (answer : ∀ c, Controller.Call.Answer c)
  | fire (timer : Controller.Timer) (stamp : Option Stamp)
  | backend (op : Backend.Op)

/-- The environment's answers, with the chain's own to a payment. -/
def answers (d : Config) (submission : BalancePayment.Submission)
    (accounts : BalancePayment.Accounts) (answer : ∀ c, Controller.Call.Answer c) :
    ∀ c, Controller.Call.Answer c
  | .pay user amount recoverInfo =>
    (d.sdk.pay d.runtime submission user amount recoverInfo accounts).1
  | .sendEvent dest message => answer (.sendEvent dest message)
  | .spawn timer => answer (.spawn timer)

/-- The operation on chain that a call of the controller asks for. -/
def submitted (d : Config) (submission : BalancePayment.Submission) :
    Controller.Call → Option BalancePayment.Op
  | .pay user amount recoverInfo => d.sdk.payOp submission user amount recoverInfo
  | _ => none

/-- The operations on chain of a step. -/
def chainOps (d : Config) (s : State) : Op → List BalancePayment.Op
  | .chain op => [op]
  | .deliver event submission answer =>
    ((Controller.handleEvent d.controller s.controller.machines event).calls
      (answers d submission s.accounts answer)).filterMap (submitted d submission)
  | _ => []

def system (d : Config) : System State Op where
  step s op :=
    match op with
    | .chain op => do
      let accounts ← (BalancePayment.system d.runtime).step s.accounts op
      return { s with accounts := accounts }
    | .publish event =>
      if event.pubkey = d.backend.pubkey then none
      else do
        let controller ← (Controller.system d.controller).step s.controller (.publish event)
        return { s with controller := controller }
    | .deliver event submission answer => do
      let controller ← (Controller.system d.controller).step s.controller
        (.deliver event (answers d submission s.accounts answer))
      let accounts := (BalancePayment.system d.runtime).run s.accounts
        (chainOps d s (.deliver event submission answer))
      return { s with accounts := accounts, controller := controller }
    | .fire timer stamp => do
      let controller ← (Controller.system d.controller).step s.controller (.fire timer stamp)
      return { s with controller := controller }
    | .backend op =>
      -- what others publish is an operation of its own, above
      if op.isPublish = true then none
      else do
        let b ← (Backend.system d.backend).step s.backend op
        return s.setBackend b

/-! ### Starting the controller again -/

/-- The deployment with a controller that was last started at some time. -/
structure Lives where
  startedAt : UInt64
  state : State

inductive Lives.Op
  | run (op : Deployment.Op)
  | restart (startedAt : UInt64) (lastEvents : List Event)

/-- The deployment whose controller was started at that time. -/
def Config.startedAt (d : Config) (time : UInt64) : Config :=
  { d with controller := { d.controller with startedAt := time } }

/-- The controller may stop at any time, by an error or without; a new one knows what the relay
stores, and nothing of the timers and the requests of the old one. -/
def lives (d : Config) : System Lives Lives.Op where
  step s op :=
    match op with
    | .run op => do
      let state ← (system (d.startedAt s.startedAt)).step s.state op
      return ⟨s.startedAt, state⟩
    | .restart startedAt lastEvents => do
      let cfg := (d.startedAt startedAt).controller
      let relay := s.state.controller.relay
      if ∀ event ∈ lastEvents, event ∈ relay ∧ ∃ key ∈ cfg.machinePubkeys,
          (Controller.lastEvent cfg key).accepts event = true then
        let machines ← (Controller.startUp cfg lastEvents).toOption
        return ⟨startedAt, { s.state with controller := ⟨machines, relay, [], false⟩ }⟩
      else none

/-! ### What a step does -/

variable {d : Config} {s s' : State}

theorem chain_done {op : BalancePayment.Op} (h : (system d).step s (.chain op) = some s') :
    ∃ accounts, (BalancePayment.system d.runtime).step s.accounts op = some accounts ∧
      s' = { s with accounts := accounts } := by
  obtain ⟨accounts, hstep, h⟩ := Option.bind_eq_some_iff.mp h
  exact ⟨accounts, hstep, (Option.some.inj h).symm⟩

theorem publish_done {event : Event} (h : (system d).step s (.publish event) = some s') :
    event.pubkey ≠ d.controller.controllerPubkey ∧
      s' = { s with
        controller := { s.controller with relay := s.controller.relay ++ [event] } } := by
  simp only [system] at h
  split_ifs at h
  obtain ⟨controller, hstep, h⟩ := Option.bind_eq_some_iff.mp h
  simp only [Controller.system] at hstep
  split_ifs at hstep with hauthor
  cases hstep
  exact ⟨hauthor, (Option.some.inj h).symm⟩

theorem deliver_done {event : Event} {submission : BalancePayment.Submission}
    {answer : ∀ c, Controller.Call.Answer c}
    (h : (system d).step s (.deliver event submission answer) = some s') :
    s' = { s with
      accounts := (BalancePayment.system d.runtime).run s.accounts
        (chainOps d s (.deliver event submission answer))
      controller := Controller.onEvent d.controller s.controller event
        (answers d submission s.accounts answer) } := by
  obtain ⟨controller, hstep, h⟩ := Option.bind_eq_some_iff.mp h
  obtain ⟨-, -, -, rfl⟩ := Controller.deliver_done hstep
  exact (Option.some.inj h).symm

theorem deliver_accepted {event : Event} {submission : BalancePayment.Submission}
    {answer : ∀ c, Controller.Call.Answer c} (hrunning : s.controller.stopped = false)
    (hstored : event ∈ s.controller.relay)
    (haccepts : (Controller.subscription d.controller).accepts event = true) :
    (system d).step s (.deliver event submission answer) = some { s with
      accounts := (BalancePayment.system d.runtime).run s.accounts
        (chainOps d s (.deliver event submission answer))
      controller := Controller.onEvent d.controller s.controller event
        (answers d submission s.accounts answer) } := by
  have hstep : (Controller.system d.controller).step s.controller
      (.deliver event (answers d submission s.accounts answer)) =
        some (Controller.onEvent d.controller s.controller event
          (answers d submission s.accounts answer)) := if_pos ⟨hrunning, hstored, haccepts⟩
  simp only [system, hstep]
  rfl

theorem fire_done {timer : Controller.Timer} {stamp : Option Stamp}
    (h : (system d).step s (.fire timer stamp) = some s') :
    ∃ timers, s' = { s with controller := { s.controller with
      relay := s.controller.relay ++ (stamp.map (Controller.storedEvent d.controller timer.mention
        (timer.message d.controller))).toList
      timers := timers } } := by
  obtain ⟨controller, hstep, h⟩ := Option.bind_eq_some_iff.mp h
  simp only [Controller.system] at hstep
  split_ifs at hstep
  cases hstep
  exact ⟨_, (Option.some.inj h).symm⟩

theorem backend_done {op : Backend.Op} (h : (system d).step s (.backend op) = some s') :
    op.isPublish = false ∧ ∃ b, (Backend.system d.backend).step s.backend op = some b ∧
      s' = s.setBackend b := by
  simp only [system] at h
  split_ifs at h with hpublish
  obtain ⟨b, hstep, h⟩ := Option.bind_eq_some_iff.mp h
  exact ⟨Bool.eq_false_of_not_eq_true hpublish, b, hstep, (Option.some.inj h).symm⟩

/-- What a step does on chain is a run of the program. -/
theorem accounts_of_step {op : Op} (h : (system d).step s op = some s') :
    s'.accounts = (BalancePayment.system d.runtime).run s.accounts (chainOps d s op) := by
  cases op with
  | chain op =>
      obtain ⟨accounts, hstep, rfl⟩ := chain_done h
      exact (System.next_of_step hstep).symm
  | publish event =>
      obtain ⟨-, rfl⟩ := publish_done h
      rfl
  | deliver event submission answer =>
      obtain rfl := deliver_done h
      rfl
  | fire timer stamp =>
      obtain ⟨timers, rfl⟩ := fire_done h
      rfl
  | backend op =>
      obtain ⟨-, b, -, rfl⟩ := backend_done h
      rfl

theorem Lives.run_done {l l' : Lives} {op : Deployment.Op}
    (h : (lives d).step l (.run op) = some l') :
    (system (d.startedAt l.startedAt)).step l.state op = some l'.state := by
  obtain ⟨state, hstep, h⟩ := Option.bind_eq_some_iff.mp h
  rw [hstep, ← Option.some.inj h]

theorem Lives.step_run (d : Config) (time : UInt64) (s : State) (op : Deployment.Op) :
    (lives d).step ⟨time, s⟩ (.run op) =
      ((system (d.startedAt time)).step s op).map (Lives.mk time) := by
  simp only [lives]
  cases (system (d.startedAt time)).step s op <;> rfl

theorem Lives.restart_done {l l' : Lives} {startedAt : UInt64} {lastEvents : List Event}
    (h : (lives d).step l (.restart startedAt lastEvents) = some l') :
    ∃ machines, l' = ⟨startedAt, { l.state with
      controller := ⟨machines, l.state.controller.relay, [], false⟩ }⟩ := by
  simp only [lives] at h
  split_ifs at h
  obtain ⟨machines, -, h⟩ := Option.bind_eq_some_iff.mp h
  exact ⟨machines, (Option.some.inj h).symm⟩

end DsProxy.Deployment
