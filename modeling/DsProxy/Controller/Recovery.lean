import DsProxy.Controller.Guards

/-!
# Starting the controller again

A new controller asks the relay for the last event the old one published about each machine, and
takes the machine's state from it. The controller publishes the credit of a request after its status
and under the same tags, so what comes back need not be a status.
-/

namespace DsProxy.Controller

open Relay Runs System

/-! ### The start-up phase -/

/-- What the relay returns for a filter with limit 1: no accepted event is newer. -/
def IsLast (relay : List Event) (filter : Filter) : Option Event → Prop
  | none => ∀ event ∈ relay, filter.accepts event = false
  | some last => last ∈ relay ∧ filter.accepts last = true ∧
    ∀ event ∈ relay, filter.accepts event = true → event.createdAt ≤ last.createdAt

instance (relay : List Event) (filter : Filter) (last : Option Event) :
    Decidable (IsLast relay filter last) :=
  match last with
  | none => inferInstanceAs (Decidable (∀ event ∈ relay, filter.accepts event = false))
  | some last => inferInstanceAs (Decidable (last ∈ relay ∧ filter.accepts last = true ∧
      ∀ event ∈ relay, filter.accepts event = true → event.createdAt ≤ last.createdAt))

/-- The last events of all machines, arriving in some order. -/
structure Fetched (cfg : Config) (relay : List Event) (last : PublicKey → Option Event)
    (lastEvents : List Event) : Prop where
  isLast : ∀ key ∈ cfg.machinePubkeys, IsLast relay (lastEvent cfg key) (last key)
  arrived : lastEvents.Perm (cfg.machinePubkeys.filterMap last)

instance (cfg : Config) (relay : List Event) (last : PublicKey → Option Event)
    (lastEvents : List Event) : Decidable (Fetched cfg relay last lastEvents) :=
  decidable_of_iff (_ ∧ _) ⟨fun h => ⟨h.1, h.2⟩, fun h => ⟨h.isLast, h.arrived⟩⟩

/-- A controller that was last started at some time. -/
structure Lives where
  startedAt : UInt64
  state : State

inductive Lives.Op
  | run (op : Controller.Op)
  | restart (startedAt : UInt64) (last : PublicKey → Option Event) (lastEvents : List Event)

def Config.startedFrom (cfg : Config) (time : UInt64) : Config := { cfg with startedAt := time }

theorem mentioned_startedFrom (cfg : Config) (time : UInt64) :
    mentioned (cfg.startedFrom time) = mentioned cfg := rfl

theorem reported_startedFrom (cfg : Config) (time : UInt64) :
    reported (cfg.startedFrom time) = reported cfg := rfl

/-- The controller with any number of restarts; an error while it starts is a panic. -/
def lives (cfg : Config) : System Lives Lives.Op where
  step l op :=
    match op with
    | .run op => do
      let state ← (system (cfg.startedFrom l.startedAt)).step l.state op
      return ⟨l.startedAt, state⟩
    | .restart startedAt last lastEvents =>
      if Fetched (cfg.startedFrom startedAt) l.state.relay last lastEvents then
        match startUp (cfg.startedFrom startedAt) lastEvents with
        | .ok machines => some ⟨startedAt, ⟨machines, l.state.relay, [], false⟩⟩
        | .error _ => some ⟨startedAt, ⟨initialMachines cfg, l.state.relay, [], true⟩⟩
      else none

theorem lives_run (cfg : Config) (time : UInt64) (s : State) (op : Op) :
    (lives cfg).step ⟨time, s⟩ (.run op) =
      ((system (cfg.startedFrom time)).step s op).map (Lives.mk time) := by
  simp only [lives]
  cases (system (cfg.startedFrom time)).step s op <;> rfl

/-! ### What should be recovered -/

/-- What the controller itself published about a machine until it was started. -/
def history (cfg : Config) (relay : List Event) (key : PublicKey) : List Event :=
  relay.filter fun event => event.pubkey = cfg.controllerPubkey ∧
    event.createdAt ≤ cfg.startedAt ∧ mentioned cfg event = some key

/-- What the last Status event of the history says. -/
def lastStatus (cfg : Config) (relay : List Event) (key : PublicKey) : Option Machine :=
  ((history cfg relay key).filterMap (reported cfg key)).getLast?

/-- Every restart of the run finds each machine as the last Status event left it. -/
def Recovers (cfg : Config) (l₀ : Lives) (ops : List Lives.Op) : Prop :=
  ∀ i startedAt last lastEvents l l',
    StepAt (lives cfg) l₀ ops i (.restart startedAt last lastEvents) l l' →
    l'.state.stopped = false ∧ ∀ key ∈ cfg.machinePubkeys, l'.state.machines key =
      some ((lastStatus (cfg.startedFrom startedAt) l.state.relay key).getD ⟨.available, none⟩)

/-- Of each machine with a Status event in its history, the relay returns a Status event, and one
that says the same as the last. -/
def ReturnsStatus (cfg : Config) (l : Lives) : Lives.Op → Prop
  | .restart startedAt last _ => ∀ key ∈ cfg.machinePubkeys, ∀ status,
    lastStatus (cfg.startedFrom startedAt) l.state.relay key = some status →
    ∃ event, last key = some event ∧ reported cfg key event = some status
  | .run _ => True

/-- What the controller relies on: a key is read back from its hexadecimal text, and a message from
its JSON. -/
structure Config.Lawful (cfg : Config) : Prop where
  parse : ∀ key : PublicKey, cfg.parsePublicKey key.toHex = some key
  decode : ∀ message, cfg.codec.decodeMessage (cfg.codec.encodeMessage message) = some message

theorem Config.Lawful.startedFrom {cfg : Config} (h : cfg.Lawful) (time : UInt64) :
    (cfg.startedFrom time).Lawful :=
  ⟨h.parse, h.decode⟩

/-- The relay holds nothing under the controller's key that the controller did not publish. -/
def Published (cfg : Config) (relay : List Event) : Prop :=
  ∀ event ∈ relay, event.pubkey = cfg.controllerPubkey →
    ∃ dest message stamp, event = storedEvent cfg dest message stamp

section Published

variable {cfg : Config} {s s' : State} {op : Op} {relay : List Event}

theorem Published.append {more : List Event} (h : Published cfg relay)
    (hmore : ∀ event ∈ more, event.pubkey ≠ cfg.controllerPubkey ∨
      ∃ dest message stamp, event = storedEvent cfg dest message stamp) :
    Published cfg (relay ++ more) := by
  intro event hmem hauthor
  rcases List.mem_append.mp hmem with hmem | hmem
  · exact h event hmem hauthor
  · exact (hmore event hmem).resolve_left fun hne => hne hauthor

theorem published_step (h : Published cfg s.relay) (hstep : (system cfg).step s op = some s') :
    Published cfg s'.relay := by
  cases op with
  | publish event =>
      simp only [system] at hstep
      split_ifs at hstep with hauthor
      cases hstep
      apply h.append
      intro other hmem
      rw [List.mem_singleton.mp hmem]
      exact Or.inl hauthor
  | fire timer stamp =>
      simp only [system] at hstep
      split_ifs at hstep
      cases hstep
      apply h.append
      intro other hmem
      obtain ⟨stamp', -, rfl⟩ := Option.map_eq_some_iff.mp (Option.mem_toList.mp hmem)
      exact Or.inr ⟨_, _, _, rfl⟩
  | deliver event answer =>
      obtain ⟨-, -, -, rfl⟩ := deliver_done hstep
      apply h.append
      intro other hmem
      obtain ⟨c, -, hpublished⟩ := List.mem_filterMap.mp hmem
      cases c with
      | pay user amount recoverInfo => cases hpublished
      | spawn timer => cases hpublished
      | sendEvent dest message =>
          rcases published_sendEvent cfg answer dest message with hnone | ⟨stamp, hsome⟩
          · cases hnone.symm.trans hpublished
          · cases hsome.symm.trans hpublished
            exact Or.inr ⟨dest, message, stamp, rfl⟩

theorem published_lives {l l' : Lives} {op : Lives.Op} (h : Published cfg l.state.relay)
    (hstep : (lives cfg).step l op = some l') : Published cfg l'.state.relay := by
  cases op with
  | run op =>
      obtain ⟨state, hstate, hl⟩ := Option.bind_eq_some_iff.mp hstep
      rw [← Option.some.inj hl]
      have hown : Published (cfg.startedFrom l.startedAt) l.state.relay := h
      have hnext : Published (cfg.startedFrom l.startedAt) state.relay :=
        published_step hown hstate
      exact hnext
  | restart startedAt last lastEvents =>
      simp only [lives] at hstep
      split_ifs at hstep
      split at hstep <;> cases hstep <;> exact h

end Published

/-! ### What start-up makes of the last events -/

section StartUp

variable {cfg : Config} {machines : Machines} {event : Event} {relay : List Event}

theorem updateMachine_ok {key : PublicKey} (hmention : mentioned cfg event = some key)
    (hcontrolled : (machines key).isSome = true)
    (hreadable : (cfg.codec.decodeMessage event.content).isSome = true) :
    ∃ updated, updateMachine cfg machines event = .ok updated ∧ ∀ other, updated other =
      (machines other).map fun machine => (reported cfg other event).getD machine := by
  obtain ⟨text, htext, hkey⟩ := Option.bind_eq_some_iff.mp hmention
  obtain ⟨machine, hmachine⟩ := Option.isSome_iff_exists.mp hcontrolled
  obtain ⟨message, hmessage⟩ := Option.isSome_iff_exists.mp hreadable
  cases message with
  | status status reason initialRequest payload =>
      refine ⟨Function.update machines key (some ⟨status, some initialRequest⟩), ?_,
        fun other => ?_⟩
      · simp only [updateMachine, htext, hkey, hmachine, hmessage]
      · by_cases hother : other = key
        · subst hother
          simp [reported, hmessage, hmention, hmachine]
        · simp [reported, hmessage, hmention, hother, Ne.symm hother]
  | request toStatus reason initialRequest payload =>
      refine ⟨machines, ?_, fun other => ?_⟩
      · simp only [updateMachine, htext, hkey, hmachine, hmessage]
      · simp [reported, hmessage]
  | transaction user tokens =>
      refine ⟨machines, ?_, fun other => ?_⟩
      · simp only [updateMachine, htext, hkey, hmachine, hmessage]
      · simp [reported, hmessage]

/-- Each machine ends up as the last report among the events says. -/
theorem foldlM_updateMachine {events : List Event}
    (h : ∀ event ∈ events, (∃ key, mentioned cfg event = some key ∧ (machines key).isSome = true) ∧
      (cfg.codec.decodeMessage event.content).isSome = true) :
    ∃ updated, events.foldlM (updateMachine cfg) machines = .ok updated ∧ ∀ key, updated key =
      (machines key).map fun machine =>
        ((events.filterMap (reported cfg key)).getLast?).getD machine := by
  induction events generalizing machines with
  | nil => exact ⟨machines, rfl, fun key => by simp⟩
  | cons event events ih =>
      obtain ⟨⟨key, hmention, hcontrolled⟩, hreadable⟩ := h event List.mem_cons_self
      obtain ⟨updated, hupdate, hmachines⟩ := updateMachine_ok hmention hcontrolled hreadable
      have hrest : ∀ other ∈ events, (∃ key, mentioned cfg other = some key ∧
          (updated key).isSome = true) ∧ (cfg.codec.decodeMessage other.content).isSome = true := by
        intro other hother
        obtain ⟨⟨key', hmention', hcontrolled'⟩, hreadable'⟩ :=
          h other (List.mem_cons_of_mem event hother)
        exact ⟨⟨key', hmention', by rwa [hmachines, Option.isSome_map]⟩, hreadable'⟩
      obtain ⟨final, hfinal, hall⟩ := ih hrest
      refine ⟨final, ?_, fun other => ?_⟩
      · rw [List.foldlM_cons, hupdate]
        exact hfinal
      · rw [hall, hmachines, Option.map_map, List.filterMap_cons]
        congr 1
        funext machine
        cases hreport : reported cfg other event with
        | none => rfl
        | some report =>
            simp only [Function.comp_apply, Option.getD_some, List.getLast?_cons]

theorem own_of_accepted (h : cfg.Lawful) (hown : Published cfg relay) {key : PublicKey}
    (hmem : event ∈ relay) (haccepts : (lastEvent cfg key).accepts event = true) :
    event ∈ history cfg relay key ∧ (cfg.codec.decodeMessage event.content).isSome = true := by
  have hauthor : event.pubkey = cfg.controllerPubkey := by
    simp only [Filter.accepts, lastEvent, Bool.and_eq_true] at haccepts
    simpa using haccepts.1.1.1.1.2
  have htime : event.createdAt ≤ cfg.startedAt := by
    simp only [Filter.accepts, lastEvent, Bool.and_eq_true] at haccepts
    simpa using haccepts.1.1.2
  have htag : event.hasTag "p" [key.toHex] = true := by
    simp only [Filter.accepts, lastEvent, Bool.and_eq_true] at haccepts
    exact haccepts.2
  obtain ⟨dest, message, stamp, rfl⟩ := hown event hmem hauthor
  have hdest : dest = key.toHex := by
    simpa [storedEvent, Event.posted, Event.hasTag] using htag
  have hmention : mentioned cfg (storedEvent cfg dest message stamp) = some key := by
    simpa [mentioned, extractMention, storedEvent, Event.posted, hdest] using h.parse key
  refine ⟨List.mem_filter.mpr ⟨hmem, decide_eq_true ⟨hauthor, htime, hmention⟩⟩, ?_⟩
  exact Option.isSome_iff_exists.mpr ⟨message, h.decode message⟩

theorem mentioned_of_history {key : PublicKey} (h : event ∈ history cfg relay key) :
    mentioned cfg event = some key :=
  (of_decide_eq_true (List.mem_filter.mp h).2).2.2

theorem getLast?_eq_of_forall {β : Type} {list : List β} {value : Option β}
    (hall : ∀ b ∈ list, value = some b) (hmem : ∀ b, value = some b → b ∈ list) :
    list.getLast? = value := by
  cases hlast : list.getLast? with
  | none =>
      cases value with
      | none => rfl
      | some b =>
          rw [List.getLast?_eq_none_iff] at hlast
          have hb := hmem b rfl
          rw [hlast] at hb
          cases hb
  | some b => exact (hall b (List.mem_of_getLast? hlast)).symm

section Fetched

variable {last : PublicKey → Option Event} {lastEvents : List Event}

theorem own_of_last (h : cfg.Lawful) (hown : Published cfg relay)
    (hfetched : Fetched cfg relay last lastEvents) {key : PublicKey}
    (hkey : key ∈ cfg.machinePubkeys) (hevent : last key = some event) :
    event ∈ history cfg relay key ∧ (cfg.codec.decodeMessage event.content).isSome = true := by
  have hisLast := hfetched.isLast key hkey
  rw [hevent] at hisLast
  exact own_of_accepted h hown hisLast.1 hisLast.2.1

theorem Fetched.mem_iff (hfetched : Fetched cfg relay last lastEvents) :
    event ∈ lastEvents ↔ ∃ key ∈ cfg.machinePubkeys, last key = some event := by
  rw [hfetched.arrived.mem_iff, List.mem_filterMap]

theorem initialMachines_controlled {key : PublicKey} (hkey : key ∈ cfg.machinePubkeys) :
    initialMachines cfg key = some ⟨.available, none⟩ := by
  simp [initialMachines, hkey]

/-- Start-up succeeds, and each machine is as the last report among the events says. -/
theorem startUp_reports (h : cfg.Lawful) (hown : Published cfg relay)
    (hfetched : Fetched cfg relay last lastEvents) :
    ∃ machines, startUp cfg lastEvents = .ok machines ∧ ∀ key, machines key =
      (initialMachines cfg key).map fun machine =>
        ((lastEvents.filterMap (reported cfg key)).getLast?).getD machine := by
  apply foldlM_updateMachine
  intro event hevent
  obtain ⟨key, hkey, hevent⟩ := hfetched.mem_iff.mp hevent
  obtain ⟨hhistory, hreadable⟩ := own_of_last h hown hfetched hkey hevent
  refine ⟨⟨key, mentioned_of_history hhistory, ?_⟩, hreadable⟩
  rw [initialMachines_controlled hkey, Option.isSome_some]

theorem startUp_ok (h : cfg.Lawful) (hown : Published cfg relay)
    (hfetched : Fetched cfg relay last lastEvents) :
    ∃ machines, startUp cfg lastEvents = .ok machines ∧ ∀ key ∈ cfg.machinePubkeys,
      machines key = some (((last key).bind (reported cfg key)).getD ⟨.available, none⟩) := by
  obtain ⟨machines, hstart, hmachines⟩ := startUp_reports h hown hfetched
  refine ⟨machines, hstart, fun key hkey => ?_⟩
  rw [hmachines, initialMachines_controlled hkey, Option.map_some]
  congr 2
  apply getLast?_eq_of_forall
  · intro report hreport
    obtain ⟨event, hevent, hreported⟩ := List.mem_filterMap.mp hreport
    obtain ⟨key', hkey', hevent⟩ := hfetched.mem_iff.mp hevent
    have hmention := mentioned_of_history (own_of_last h hown hfetched hkey' hevent).1
    obtain rfl : key' = key := by
      unfold reported at hreported
      split at hreported
      · split_ifs at hreported with hkey
        exact Option.some.inj (hmention.symm.trans hkey)
      · cases hreported
    rw [hevent, Option.bind_some, hreported]
  · intro report hreport
    obtain ⟨event, hevent, hreported⟩ := Option.bind_eq_some_iff.mp hreport
    exact List.mem_filterMap.mpr ⟨event, hfetched.mem_iff.mpr ⟨key, hkey, hevent⟩, hreported⟩

end Fetched

/-- The status that was read is the last one exactly when it says the same, if there is a last. -/
theorem recovered_iff {key : PublicKey} {last : Option Event}
    (hlast : ∀ event, last = some event → event ∈ history cfg relay key) :
    (last.bind (reported cfg key)).getD ⟨.available, none⟩ =
        (lastStatus cfg relay key).getD ⟨.available, none⟩ ↔
      ∀ status, lastStatus cfg relay key = some status →
        ∃ event, last = some event ∧ reported cfg key event = some status := by
  cases hstatus : lastStatus cfg relay key with
  | none =>
      refine iff_of_true ?_ fun status h => by cases h
      have hnone : last.bind (reported cfg key) = none := by
        by_contra hne
        obtain ⟨report, hreport⟩ := Option.ne_none_iff_exists'.mp hne
        obtain ⟨event, hevent, hreported⟩ := Option.bind_eq_some_iff.mp hreport
        have hmem := List.mem_filterMap.mpr ⟨event, hlast event hevent, hreported⟩
        rw [List.getLast?_eq_none_iff.mp hstatus] at hmem
        cases hmem
      rw [hnone]
  | some status =>
      obtain ⟨event, -, hreported⟩ := List.mem_filterMap.mp (List.mem_of_getLast? hstatus)
      have hrequest : status.initialRequest ≠ none := by
        unfold reported at hreported
        split at hreported
        · split_ifs at hreported
          rw [← Option.some.inj hreported]
          exact Option.some_ne_none _
        · cases hreported
      have hbind : (∃ event, last = some event ∧ reported cfg key event = some status) ↔
          last.bind (reported cfg key) = some status := Option.bind_eq_some_iff.symm
      simp only [Option.some.injEq, forall_eq', hbind, Option.getD_some]
      cases last.bind (reported cfg key) with
      | none =>
          refine iff_of_false (fun hidle => ?_) (by simp)
          rw [← hidle] at hrequest
          exact hrequest rfl
      | some report => simp

end StartUp

section Restart

variable {cfg : Config} {l l' : Lives} {startedAt : UInt64} {last : PublicKey → Option Event}
  {lastEvents : List Event}

theorem fetched_of_restart
    (hstep : (lives cfg).step l (.restart startedAt last lastEvents) = some l') :
    Fetched (cfg.startedFrom startedAt) l.state.relay last lastEvents := by
  simp only [lives] at hstep
  split_ifs at hstep with hfetched
  exact hfetched

theorem restart_of_fetched
    (hfetched : Fetched (cfg.startedFrom startedAt) l.state.relay last lastEvents) :
    ∃ l', (lives cfg).step l (.restart startedAt last lastEvents) = some l' := by
  simp only [lives, if_pos hfetched]
  cases startUp (cfg.startedFrom startedAt) lastEvents with
  | ok machines => exact ⟨_, rfl⟩
  | error error => exact ⟨_, rfl⟩

/-- A restart finds every machine as its last Status event left it, exactly when the relay returns
such an event. -/
theorem restart_iff (h : cfg.Lawful) (hown : Published cfg l.state.relay)
    (hstep : (lives cfg).step l (.restart startedAt last lastEvents) = some l') :
    (l'.state.stopped = false ∧ ∀ key ∈ cfg.machinePubkeys, l'.state.machines key =
      some ((lastStatus (cfg.startedFrom startedAt) l.state.relay key).getD ⟨.available, none⟩)) ↔
      ReturnsStatus cfg l (.restart startedAt last lastEvents) := by
  have hlawful := h.startedFrom startedAt
  have hpublished : Published (cfg.startedFrom startedAt) l.state.relay := hown
  have hfetched := fetched_of_restart hstep
  obtain ⟨machines, hstart, hmachines⟩ := startUp_ok hlawful hpublished hfetched
  simp only [lives, if_pos hfetched, hstart, Option.some.injEq] at hstep
  subst hstep
  simp only [true_and, ReturnsStatus]
  refine forall₂_congr fun key hkey => ?_
  rw [hmachines key hkey, Option.some.injEq, recovered_iff]
  · rfl
  · intro event hevent
    exact (own_of_last hlawful hpublished hfetched hkey hevent).1

/-- The machines' states survive every restart of a run exactly when, each time, the newest event
about each machine is its last Status event or says the same. -/
theorem recovers_iff (h : cfg.Lawful) {l₀ : Lives} (hown : Published cfg l₀.state.relay)
    (ops : List Lives.Op) :
    Recovers cfg l₀ ops ↔ (lives cfg).Throughout (ReturnsStatus cfg) l₀ ops := by
  have hrelay (i : ℕ) : Published cfg ((lives cfg).run l₀ (ops.take i)).state.relay :=
    run_invariant (fun hs hstep => published_lives hs hstep) hown (ops.take i)
  rw [throughout_iff_stepAt]
  constructor
  · intro hrecovers i op l l' hat
    cases op with
    | run op => trivial
    | restart startedAt last lastEvents =>
        have hpublished := hrelay i
        rw [← hat.before] at hpublished
        exact (restart_iff h hpublished hat.step).mp
          (hrecovers i startedAt last lastEvents l l' hat)
  · intro hreturns i startedAt last lastEvents l l' hat
    have hpublished := hrelay i
    rw [← hat.before] at hpublished
    exact (restart_iff h hpublished hat.step).mpr (hreturns i _ l l' hat)

end Restart

/-! ### A restart during a session -/

namespace Sample

def lateStamp : Stamp := ⟨Bytes.toLE 32 11, 1735000003⟩

/-- Everything is accepted, and the credit is stored a second after the status. -/
def lateAnswer : ∀ c, Call.Answer c
  | .pay _ _ _ => true
  | .sendEvent _ (.status ..) => ⟨true, some (stamp 10)⟩
  | .sendEvent _ _ => ⟨true, some lateStamp⟩
  | .spawn _ => ()

def lateCredit : Event :=
  storedEvent cfg machine.toHex (.transaction (payload 0).user
    (payAmount.toInt64 * tokensLamportsRatio)) lateStamp

def inSession : List Event := [request 1 0, working 1 0 10, lateCredit]

/-- The controller charges a request and is then started again. -/
def interrupted : List Lives.Op :=
  [.run (.publish (request 1 0)), .run (.deliver (request 1 0) lateAnswer),
    .restart 1735000010 (fun _ => some lateCredit) [lateCredit]]

theorem lawful : cfg.Lawful := ⟨fun key => Hex.toVector_ofVector key, decodeMessage_encodeMessage⟩

theorem published_start : Published cfg start.relay := fun _ hmem => by cases hmem

theorem step_late_request :
    (system cfg).step (state idle [request 1 0] []) (.deliver (request 1 0) lateAnswer) =
      some (state idle inSession [timer 1 0]) := by
  have hguard : (state idle [request 1 0] []).stopped = false ∧
      request 1 0 ∈ (state idle [request 1 0] []).relay ∧
      (subscription cfg).accepts (request 1 0) = true :=
    ⟨rfl, List.mem_singleton_self _, accepts_request⟩
  have hhandled : handleEvent cfg (state idle [request 1 0] []).machines (request 1 0) = _ :=
    handleEvent_request rfl
  simp only [system]
  rw [if_pos hguard]
  simp only [onEvent, hhandled, charge]
  rfl

theorem run_interrupted : (lives cfg).run ⟨cfg.startedAt, start⟩ (interrupted.take 2) =
    ⟨cfg.startedAt, state idle inSession [timer 1 0]⟩ := by
  have hrun : (system cfg).run start [.publish (request 1 0), .deliver (request 1 0) lateAnswer] =
      state idle inSession [timer 1 0] := by
    rw [start_eq, run_cons_of_step step_publish, List.nil_append,
      run_cons_of_step step_late_request, run_nil]
  rw [← hrun]
  exact run_map (lives_run cfg cfg.startedAt) start
    [.publish (request 1 0), .deliver (request 1 0) lateAnswer]

theorem mentioned_controller (message : Message) (s : Stamp) :
    mentioned cfg (storedEvent cfg machine.toHex message s) = some machine := parse_machine

theorem decode_controller (message : Message) (s : Stamp) :
    cfg.codec.decodeMessage (storedEvent cfg machine.toHex message s).content = some message :=
  decodeMessage_encodeMessage message

theorem reported_working : reported cfg machine (working 1 0 10) = some (busy 1) := by
  have hmessage := decode_controller (.status .working .userRequest (Bytes.toLE 32 1)
    (cfg.codec.encodeStatusPayload (payload 0))) (stamp 10)
  rw [reported, working, hmessage]
  exact if_pos (mentioned_controller _ _)

theorem reported_lateCredit : reported cfg machine lateCredit = none := by
  rw [reported, lateCredit, decode_controller]

theorem history_inSession :
    history (cfg.startedFrom 1735000010) inSession machine = [working 1 0 10, lateCredit] := by
  have hforeign : (request 1 0).pubkey ≠ cfg.controllerPubkey := by
    change Vector.replicate 32 9 ≠ Vector.replicate 32 1
    decide
  have hstatus : mentioned cfg (working 1 0 10) = some machine := mentioned_controller _ _
  have hcredit : mentioned cfg lateCredit = some machine := mentioned_controller _ _
  have hstatusTime : (working 1 0 10).createdAt ≤ 1735000010 := by
    change (1735000002 : UInt64) ≤ 1735000010
    decide
  have hcreditTime : lateCredit.createdAt ≤ 1735000010 := by
    change (1735000003 : UInt64) ≤ 1735000010
    decide
  have hstatusAuthor : (working 1 0 10).pubkey = cfg.controllerPubkey := rfl
  have hcreditAuthor : lateCredit.pubkey = cfg.controllerPubkey := rfl
  have hauthor : (cfg.startedFrom 1735000010).controllerPubkey = cfg.controllerPubkey := rfl
  have htime : (cfg.startedFrom 1735000010).startedAt = 1735000010 := rfl
  rw [history, hauthor, htime, mentioned_startedFrom]
  simp [inSession, hforeign, hstatus, hcredit, hstatusTime, hcreditTime,
    hstatusAuthor, hcreditAuthor]

theorem lastStatus_inSession :
    lastStatus (cfg.startedFrom 1735000010) inSession machine = some (busy 1) := by
  rw [lastStatus, history_inSession, reported_startedFrom, List.filterMap_cons, reported_working,
    List.filterMap_cons, reported_lateCredit, List.filterMap_nil, List.getLast?_singleton]

theorem fetched_credit : Fetched (cfg.startedFrom 1735000010) inSession
    (fun _ => some lateCredit) [lateCredit] := by
  constructor
  · intro key hkey
    obtain rfl : key = machine := List.mem_singleton.mp hkey
    refine ⟨by simp [inSession], ?_, ?_⟩
    · simp [lastEvent, Filter.accepts, Event.hasTag, lateCredit, storedEvent, Event.posted,
        lateStamp, Config.startedFrom, cfg]
    · intro event hmem _
      simp only [inSession, List.mem_cons, List.not_mem_nil, or_false] at hmem
      rcases hmem with rfl | rfl | rfl <;> decide
  · exact List.Perm.refl _

theorem restarts : ∃ l', StepAt (lives cfg) ⟨cfg.startedAt, start⟩ interrupted 2
    (.restart 1735000010 (fun _ => some lateCredit) [lateCredit])
    ⟨cfg.startedAt, state idle inSession [timer 1 0]⟩ l' := by
  obtain ⟨l', hl'⟩ := restart_of_fetched
    (l := ⟨cfg.startedAt, state idle inSession [timer 1 0]⟩) fetched_credit
  exact ⟨l', rfl, run_interrupted.symm, hl'⟩

theorem published_inSession : Published cfg (state idle inSession [timer 1 0]).relay := by
  have hstart : Published cfg (Lives.mk cfg.startedAt start).state.relay := published_start
  have hrun : Published cfg
      ((lives cfg).run ⟨cfg.startedAt, start⟩ (interrupted.take 2)).state.relay :=
    run_invariant (fun hs hstep => published_lives hs hstep) hstart _
  rwa [run_interrupted] at hrun

end Sample

/-- A controller that restarts after it has charged a request takes the machine for available. -/
theorem session_forgotten :
    ¬ Recovers Sample.cfg ⟨Sample.cfg.startedAt, Sample.start⟩ Sample.interrupted := by
  intro hrecovers
  obtain ⟨l', hat⟩ := Sample.restarts
  have hreturns := (restart_iff Sample.lawful Sample.published_inSession hat.step).mp
    (hrecovers _ _ _ _ _ _ hat)
  obtain ⟨event, hevent, hreported⟩ := hreturns Sample.machine (List.mem_singleton_self _) _
    Sample.lastStatus_inSession
  cases hevent
  cases Sample.reported_lateCredit.symm.trans hreported

namespace Sample

/-- The timer of the session fires before the controller is started again. -/
def ended : List Lives.Op :=
  (paced.take 5).map .run ++ [.restart 1735000010 (fun _ => some (available 1 0 20))
    [available 1 0 20]]

theorem reported_available : reported cfg machine (available 1 0 20) = some (finished 1) := by
  have hmessage := decode_controller ((timer 1 0).message cfg) (stamp 20)
  rw [reported, available, hmessage]
  exact if_pos (mentioned_controller _ _)

theorem lastStatus_ended : lastStatus (cfg.startedFrom 1735000010)
    (charged ++ [available 1 0 20]) machine = some (finished 1) := by
  have hmention : mentioned cfg (available 1 0 20) = some machine := mentioned_controller _ _
  have hown : ((available 1 0 20).pubkey = (cfg.startedFrom 1735000010).controllerPubkey ∧
      (available 1 0 20).createdAt ≤ (cfg.startedFrom 1735000010).startedAt ∧
      mentioned (cfg.startedFrom 1735000010) (available 1 0 20) = some machine) :=
    ⟨rfl, by change (1735000002 : UInt64) ≤ 1735000010; decide, hmention⟩
  rw [lastStatus, history, List.filter_append, List.filter_singleton, decide_eq_true hown,
    cond_true, List.filterMap_append, reported_startedFrom, List.filterMap_cons,
    reported_available, List.filterMap_nil, List.getLast?_concat]

theorem run_ended : (lives cfg).run ⟨cfg.startedAt, start⟩ ((paced.take 5).map .run) =
    ⟨cfg.startedAt, state (busy 1) (charged ++ [available 1 0 20]) []⟩ := by
  rw [← paced_five]
  exact run_map (lives_run cfg cfg.startedAt) start (paced.take 5)

theorem returns_ended :
    (lives cfg).Throughout (ReturnsStatus cfg) ⟨cfg.startedAt, start⟩ ended := by
  rw [throughout_iff_stepAt, ended]
  intro i op l l' hat
  rcases stepAt_concat.mp hat with hat | ⟨-, rfl, rfl, -⟩
  · obtain ⟨op', -, rfl⟩ := List.mem_map.mp (List.mem_of_getElem? hat.op)
    trivial
  · intro key hkey status hstatus
    obtain rfl : key = machine := List.mem_singleton.mp hkey
    rw [run_ended] at hstatus
    cases lastStatus_ended.symm.trans hstatus
    exact ⟨_, rfl, reported_available⟩

theorem fetched_available : Fetched (cfg.startedFrom 1735000010)
    (charged ++ [available 1 0 20]) (fun _ => some (available 1 0 20)) [available 1 0 20] := by
  constructor
  · intro key hkey
    obtain rfl : key = machine := List.mem_singleton.mp hkey
    refine ⟨List.mem_append_right _ List.mem_cons_self, ?_, ?_⟩
    · simp [lastEvent, Filter.accepts, Event.hasTag, available, storedEvent, Event.posted, stamp,
        timer, Config.startedFrom, cfg]
    · intro event hmem _
      simp only [charged, List.cons_append, List.nil_append, List.mem_cons, List.not_mem_nil,
        or_false] at hmem
      rcases hmem with rfl | rfl | rfl | rfl | rfl <;> decide
  · exact List.Perm.refl _

theorem restarts_ended : ∃ l', StepAt (lives cfg) ⟨cfg.startedAt, start⟩ ended 5
    (.restart 1735000010 (fun _ => some (available 1 0 20)) [available 1 0 20])
    ⟨cfg.startedAt, state (busy 1) (charged ++ [available 1 0 20]) []⟩ l' := by
  obtain ⟨l', hl'⟩ := restart_of_fetched
    (l := ⟨cfg.startedAt, state (busy 1) (charged ++ [available 1 0 20]) []⟩) fetched_available
  exact ⟨l', rfl, run_ended.symm, hl'⟩

end Sample

/-- The last event about the machine is its Available, which the restart reads back. -/
theorem recovers_iff_sample : ∃ l', StepAt (lives Sample.cfg)
    ⟨Sample.cfg.startedAt, Sample.start⟩ Sample.ended 5
    (.restart 1735000010 (fun _ => some (Sample.available 1 0 20)) [Sample.available 1 0 20])
    ⟨Sample.cfg.startedAt, Sample.state (Sample.busy 1)
      (Sample.charged ++ [Sample.available 1 0 20]) []⟩ l' ∧
    l'.state.machines Sample.machine = some (Sample.finished 1) := by
  obtain ⟨l', hat⟩ := Sample.restarts_ended
  have hrecovers := (recovers_iff Sample.lawful Sample.published_start Sample.ended).mpr
    Sample.returns_ended
  have hmachine := (hrecovers _ _ _ _ _ _ hat).2 Sample.machine (List.mem_singleton_self _)
  refine ⟨l', hat, hmachine.trans (congrArg some ?_)⟩
  exact congrArg (fun status => status.getD ⟨.available, none⟩) Sample.lastStatus_ended

end DsProxy.Controller
