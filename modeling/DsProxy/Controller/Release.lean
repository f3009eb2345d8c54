import DsProxy.Controller.Recovery

/-!
# Every session can end

A charged request leaves its Working status on the relay first and a timer last. While the
controller is running, every Working status it has published since it was started is therefore
matched by a timer that is still to fire or by an Available on the relay, so a machine that is
working can be made available again, whatever else has been delivered and in whatever order. A
restart loses the timers: of a session announced before it, only the Working may be left.
-/

namespace DsProxy.Controller

open Relay Runs System

/-- Statuses come from the controller's own key, and the relay stores what a timer sends. -/
def Op.Regular (cfg : Config) : Op → Prop
  | .publish _ => True
  | .deliver event _ => IsStatus cfg event → event.pubkey = cfg.controllerPubkey
  | .fire _ stamp => ∃ stored, stamp = some stored ∧ cfg.startedAt ≤ stored.createdAt

def Lives.Op.Regular (cfg : Config) (l : Lives) : Lives.Op → Prop
  | .run op => op.Regular (cfg.startedFrom l.startedAt)
  | .restart .. => True

/-- Delivering the event makes the machine available again. -/
def Ends (cfg : Config) (s : State) (key : PublicKey) (r : EventId) (event : Event) : Prop :=
  event.pubkey = cfg.controllerPubkey ∧ ∀ answer, ∃ s',
    (system cfg).step s (.deliver event answer) = some s' ∧ s'.stopped = false ∧
      s'.machines key = some ⟨.available, some r⟩

/-- Such an event is on the relay, or will be when a pending timer fires. -/
def Releasable (cfg : Config) (s : State) (key : PublicKey) (r : EventId) : Prop :=
  (∃ event, Ends cfg s key r event) ∨
    ∃ timer ∈ s.timers, timer.eventId = r ∧ ∀ stamp, cfg.startedAt ≤ stamp.createdAt →
      ∃ s' event, (system cfg).step s (.fire timer (some stamp)) = some s' ∧ Ends cfg s' key r event

/-- A Working status for the request is on the relay. -/
def Announced (cfg : Config) (relay : List Event) (r : EventId) : Prop :=
  ∃ dest reason payload stamp,
    storedEvent cfg dest (.status .working reason r payload) stamp ∈ relay

/-- The session was announced before a start of the controller. -/
def Outlived (cfg : Config) (l₀ : Lives) (ops : List Lives.Op) (r : EventId) : Prop :=
  ∃ i startedAt last lastEvents l l',
    StepAt (lives cfg) l₀ ops i (.restart startedAt last lastEvents) l l' ∧
      Announced cfg l.state.relay r

section Sessions

variable {cfg : Config} {s s' : State} {op : Op} {key : PublicKey} {r : EventId} {dest : String}
  {stamp : Stamp} {message : Message} {Old : EventId → Prop}

/-! ### What the controller publishes -/

/-- The text of a stored event determines the message and where it was sent. -/
theorem storedEvent_inj (h : cfg.Lawful) {dest' : String} {message' : Message} {stamp' : Stamp}
    (heq : storedEvent cfg dest message stamp = storedEvent cfg dest' message' stamp') :
    dest = dest' ∧ message = message' := by
  have hdest : dest = dest' := by
    have htags := congrArg Event.tags heq
    simpa [storedEvent, Event.posted] using htags
  have hcontent : cfg.codec.encodeMessage message = cfg.codec.encodeMessage message' :=
    congrArg Event.content heq
  have hdecode := congrArg cfg.codec.decodeMessage hcontent
  rw [h.decode, h.decode] at hdecode
  exact ⟨hdest, Option.some.inj hdecode⟩

/-- An event whose treatment leaves the controller running starts the timer of every Working status
it publishes. -/
theorem spawned_of_published (h : cfg.Lawful) {event : Event} {answer : ∀ c, Call.Answer c}
    (hrunning : ((handleEvent cfg s.machines event).eval answer).isOk = true)
    {reason : StatusReason} {payload : String}
    (hmem : storedEvent cfg dest (.status .working reason r payload) stamp ∈
      ((handleEvent cfg s.machines event).calls answer).filterMap (published cfg answer)) :
    ∃ parsed, (⟨dest, r, parsed⟩ : Timer) ∈
      ((handleEvent cfg s.machines event).calls answer).filterMap spawned := by
  rcases handleEvent_cases cfg s.machines event with
    ⟨toStatus, reason', mention, parsed, hcharge⟩ | hnone
  · rw [hcharge, eval_charge] at hrunning
    rw [hcharge, calls_charge] at hmem ⊢
    by_cases hpaid : paid answer parsed = true
    · -- the payment went through, so both events were sent
      have hsent : sent answer mention (chargedStatus cfg event toStatus reason' parsed) = true ∧
          sent answer mention (chargedCredit parsed) = true := by
        by_contra hnot
        rw [if_pos ⟨hpaid, hnot⟩] at hrunning
        cases hrunning
      rw [if_pos hpaid, if_pos hsent.1] at hmem ⊢
      obtain ⟨c, hc, hpublished⟩ := List.mem_filterMap.mp hmem
      have hworking : c = .sendEvent mention (chargedStatus cfg event toStatus reason' parsed) ∧
          toStatus = .working ∧ event.id = r ∧ mention = dest := by
        have hstored {m : Message} (hsend : c = .sendEvent mention m) :
            mention = dest ∧ m = .status .working reason r payload := by
          rw [hsend] at hpublished
          rcases published_sendEvent cfg answer mention m with hnone | ⟨stamp', hsome⟩
          · cases hnone.symm.trans hpublished
          · exact storedEvent_inj h (Option.some.inj (hsome.symm.trans hpublished))
        rcases List.mem_cons.mp hc with rfl | hc
        · cases hpublished
        rcases List.mem_cons.mp hc with rfl | hc
        · obtain ⟨hdest, hmessage⟩ := hstored rfl
          cases hmessage
          exact ⟨rfl, rfl, rfl, hdest⟩
        rcases List.mem_cons.mp hc with rfl | hc
        · cases (hstored rfl).2
        · split_ifs at hc
          · rw [List.mem_singleton.mp hc] at hpublished
            cases hpublished
          · cases hc
      obtain ⟨-, rfl, rfl, rfl⟩ := hworking
      rw [if_pos ⟨hsent.2, rfl⟩]
      exact ⟨parsed, by simp [spawned]⟩
    · rw [if_neg hpaid] at hmem
      obtain ⟨c, hc, hpublished⟩ := List.mem_filterMap.mp hmem
      rw [List.mem_singleton.mp hc] at hpublished
      cases hpublished
  · rw [hnone] at hmem
    cases hmem

/-! ### The invariant -/

/-- A timer of the request is pending, or its Available is stored where it can be delivered. -/
def Ending (cfg : Config) (s : State) (dest : String) (r : EventId) : Prop :=
  (∃ payload, (⟨dest, r, payload⟩ : Timer) ∈ s.timers) ∨
    ∃ reason payload stamp, cfg.startedAt ≤ stamp.createdAt ∧
      storedEvent cfg dest (.status .available reason r payload) stamp ∈ s.relay

theorem Ending.mono (h : Ending cfg s dest r) (htimers : ∀ timer ∈ s.timers, timer ∈ s'.timers)
    (hrelay : ∀ event ∈ s.relay, event ∈ s'.relay) : Ending cfg s' dest r := by
  rcases h with ⟨payload, htimer⟩ | ⟨reason, payload, stamp, htime, hstored⟩
  · exact Or.inl ⟨payload, htimers _ htimer⟩
  · exact Or.inr ⟨reason, payload, stamp, htime, hrelay _ hstored⟩

/-- The machine was heard to be working on the request. -/
def Heard (cfg : Config) (s : State) (key : PublicKey) (r : EventId) : Prop :=
  ∃ dest reason payload stamp, cfg.parsePublicKey dest = some key ∧
    (subscription cfg).accepts
      (storedEvent cfg dest (.status .working reason r payload) stamp) = true ∧
    storedEvent cfg dest (.status .working reason r payload) stamp ∈ s.relay

theorem Heard.mono (h : Heard cfg s key r) (hrelay : ∀ event ∈ s.relay, event ∈ s'.relay) :
    Heard cfg s' key r := by
  obtain ⟨dest, reason, payload, stamp, hparse, haccepts, hmem⟩ := h
  exact ⟨dest, reason, payload, stamp, hparse, haccepts, hrelay _ hmem⟩

/-- Every session that is not an old one is being ended, and every machine that is working is in an
old session or in one that is being ended. -/
structure Releasing (cfg : Config) (Old : EventId → Prop) (s : State) : Prop where
  published : Published cfg s.relay
  ended : s.stopped = false → ∀ {dest reason r payload stamp},
    storedEvent cfg dest (.status .working reason r payload) stamp ∈ s.relay →
    Old r ∨ Ending cfg s dest r
  announced : s.stopped = false → ∀ {key request}, s.machines key = some ⟨.working, request⟩ →
    ∃ r, request = some r ∧ (Old r ∨ Heard cfg s key r)

theorem ended_step (h : cfg.Lawful) (hop : op.Regular cfg) (hs : Releasing cfg Old s)
    (hstep : (system cfg).step s op = some s') (hrunning : s'.stopped = false)
    {reason : StatusReason} {payload : String}
    (hmem : storedEvent cfg dest (.status .working reason r payload) stamp ∈ s'.relay) :
    Old r ∨ Ending cfg s' dest r := by
  cases op with
  | publish event =>
      simp only [system] at hstep
      split_ifs at hstep with hauthor
      cases hstep
      rcases List.mem_append.mp hmem with hmem | hmem
      · apply (hs.ended hrunning hmem).imp_right
        intro hending
        exact hending.mono (fun _ htimer => htimer) fun _ hevent => List.mem_append_left _ hevent
      · rw [← List.mem_singleton.mp hmem] at hauthor
        exact absurd rfl hauthor
  | fire timer stamp' =>
      simp only [system] at hstep
      split_ifs at hstep with hguard
      cases hstep
      obtain ⟨stored, rfl, htime⟩ := hop
      rcases List.mem_append.mp hmem with hmem | hmem
      · apply (hs.ended hguard.1 hmem).imp_right
        rintro (⟨payload', htimer⟩ | ⟨reason', payload', stamp', hlater⟩)
        · -- the timer that fired, or another one
          by_cases hsame : (⟨dest, r, payload'⟩ : Timer) = timer
          · subst hsame
            exact Or.inr ⟨_, _, stored, htime, List.mem_append_right _ List.mem_cons_self⟩
          · exact Or.inl ⟨payload', (List.mem_erase_of_ne hsame).mpr htimer⟩
        · exact Or.inr ⟨reason', payload', stamp', hlater.1, List.mem_append_left _ hlater.2⟩
      · cases (storedEvent_inj h (List.mem_singleton.mp hmem)).2
  | deliver event answer =>
      obtain ⟨hbefore, -, -, rfl⟩ := deliver_done hstep
      rcases List.mem_append.mp hmem with hmem | hmem
      · apply (hs.ended hbefore hmem).imp_right
        intro hending
        exact hending.mono (fun _ htimer => List.mem_append_left _ htimer)
          fun _ hevent => List.mem_append_left _ hevent
      · have hok : ((handleEvent cfg s.machines event).eval answer).isOk = true := by
          simpa [onEvent] using hrunning
        obtain ⟨parsed, htimer⟩ := spawned_of_published h hok hmem
        exact Or.inr (Or.inl ⟨parsed, List.mem_append_right _ htimer⟩)

theorem running_before (hstep : (system cfg).step s op = some s') (hrunning : s'.stopped = false) :
    s.stopped = false := by
  cases op with
  | publish event =>
      simp only [system] at hstep
      split_ifs at hstep
      cases hstep
      exact hrunning
  | fire timer stamp =>
      simp only [system] at hstep
      split_ifs at hstep with hguard
      exact hguard.1
  | deliver event answer => exact (deliver_done hstep).1

theorem relay_subset_step (hstep : (system cfg).step s op = some s') :
    ∀ event ∈ s.relay, event ∈ s'.relay := by
  intro event hevent
  cases op with
  | publish other =>
      simp only [system] at hstep
      split_ifs at hstep
      cases hstep
      exact List.mem_append_left _ hevent
  | fire timer stamp =>
      simp only [system] at hstep
      split_ifs at hstep
      cases hstep
      exact List.mem_append_left _ hevent
  | deliver other answer =>
      obtain ⟨-, -, -, rfl⟩ := deliver_done hstep
      exact List.mem_append_left _ hevent

theorem Releasing.step (h : cfg.Lawful) (hop : op.Regular cfg) (hs : Releasing cfg Old s)
    (hstep : (system cfg).step s op = some s') : Releasing cfg Old s' where
  published := published_step hs.published hstep
  ended hrunning _ _ _ _ _ hmem := ended_step h hop hs hstep hrunning hmem
  announced hrunning {key request} hworking := by
    rw [machine_of_step hstep key] at hworking
    obtain ⟨machine, hmachine, hnow⟩ := Option.map_eq_some_iff.mp hworking
    cases hreports : op.reports cfg key with
    | none =>
        -- nothing was said about the machine, so it was working before
        rw [hreports, Option.getD_none] at hnow
        obtain ⟨r, hrequest, hheard⟩ :=
          hs.announced (running_before hstep hrunning) (hnow ▸ hmachine)
        exact ⟨r, hrequest, hheard.imp_right fun hheard => hheard.mono (relay_subset_step hstep)⟩
    | some report =>
        obtain ⟨event, answer, status, reason, r, payload, rfl, hmessage, rfl, hmention⟩ :=
          reports_eq_some hreports
        rw [hreports, Option.getD_some] at hnow
        cases hnow
        have hauthor := hop ⟨_, _, _, _, hmessage⟩
        obtain ⟨-, hmem, haccepts, -⟩ := deliver_done hstep
        obtain ⟨dest, message, stamp, rfl⟩ := hs.published event hmem hauthor
        cases (h.decode message).symm.trans hmessage
        exact ⟨r, rfl, Or.inr ⟨dest, reason, payload, stamp, hmention, haccepts,
          relay_subset_step hstep _ hmem⟩⟩

/-- What start-up takes from the relay was announced before. -/
theorem announced_of_startUp (h : cfg.Lawful) {relay lastEvents : List Event}
    (hown : Published cfg relay) {last : PublicKey → Option Event}
    (hfetched : Fetched cfg relay last lastEvents) {machines : Machines}
    (hstart : startUp cfg lastEvents = .ok machines) {request : Option EventId}
    (hworking : machines key = some ⟨.working, request⟩) :
    ∃ r, request = some r ∧ Announced cfg relay r := by
  obtain ⟨machines', hstart', hmachines⟩ := startUp_reports h hown hfetched
  cases hstart.symm.trans hstart'
  rw [hmachines] at hworking
  obtain ⟨machine, hinitial, hnow⟩ := Option.map_eq_some_iff.mp hworking
  have hidle : machine = ⟨.available, none⟩ := by
    unfold initialMachines at hinitial
    split_ifs at hinitial
    exact (Option.some.inj hinitial).symm
  cases hlast : (lastEvents.filterMap (reported cfg key)).getLast? with
  | none =>
      rw [hlast, hidle, Option.getD_none] at hnow
      cases hnow
  | some report =>
      rw [hlast, Option.getD_some] at hnow
      subst hnow
      obtain ⟨event, hevent, hreported⟩ :=
        List.mem_filterMap.mp (List.mem_of_getLast? hlast)
      obtain ⟨key', hkey', hevent⟩ := hfetched.mem_iff.mp hevent
      have hhistory := List.mem_filter.mp (own_of_last h hown hfetched hkey' hevent).1
      obtain ⟨dest, message, stamp, rfl⟩ :=
        hown event hhistory.1 (of_decide_eq_true hhistory.2).1
      rw [reported, show cfg.codec.decodeMessage (storedEvent cfg dest message stamp).content =
        some message from h.decode message] at hreported
      cases message with
      | request toStatus reason initialRequest payload => cases hreported
      | transaction user tokens => cases hreported
      | status status reason initialRequest payload =>
          dsimp only at hreported
          split_ifs at hreported
          cases hreported
          exact ⟨initialRequest, rfl, dest, reason, payload, stamp, hhistory.1⟩

theorem Releasing.restart (h : cfg.Lawful) {l l' : Lives} {startedAt : UInt64}
    {last : PublicKey → Option Event} {lastEvents : List Event}
    (hown : Published cfg l.state.relay)
    (hstep : (lives cfg).step l (.restart startedAt last lastEvents) = some l')
    (hold : ∀ r, Announced cfg l.state.relay r → Old r) :
    Releasing (cfg.startedFrom l'.startedAt) Old l'.state := by
  have hfetched := fetched_of_restart hstep
  have hlawful := h.startedFrom startedAt
  have hpublished : Published (cfg.startedFrom startedAt) l.state.relay := hown
  have hended {dest : String} {reason : StatusReason} {r : EventId} {payload : String}
      {stamp : Stamp}
      (hmem : storedEvent cfg dest (.status .working reason r payload) stamp ∈ l.state.relay) :
      Old r := hold r ⟨dest, reason, payload, stamp, hmem⟩
  simp only [lives, if_pos hfetched] at hstep
  cases hstart : startUp (cfg.startedFrom startedAt) lastEvents with
  | error error =>
      rw [hstart] at hstep
      cases hstep
      refine ⟨hown, fun hrunning => ?_, fun hrunning => ?_⟩ <;> cases hrunning
  | ok machines =>
      rw [hstart] at hstep
      cases hstep
      refine ⟨hown, fun _ _ _ _ _ _ hmem => Or.inl (hended hmem), fun _ key request hworking => ?_⟩
      obtain ⟨r, hrequest, hannounced⟩ :=
        announced_of_startUp hlawful hpublished hfetched hstart hworking
      exact ⟨r, hrequest, Or.inl (hold r hannounced)⟩

/-! ### From any reachable state -/

/-- Where a Working of the controller was accepted, its Available is, too. -/
theorem accepts_available {message' : Message} {stamp' : Stamp}
    (haccepts : (subscription cfg).accepts (storedEvent cfg dest message stamp) = true)
    (htime : cfg.startedAt ≤ stamp'.createdAt) :
    (subscription cfg).accepts (storedEvent cfg dest message' stamp') = true := by
  simp only [Filter.accepts, subscription, storedEvent, Event.posted, Bool.and_eq_true]
    at haccepts ⊢
  obtain ⟨⟨⟨⟨⟨hkind, hauthors⟩, -⟩, huntil⟩, hsession⟩, hmention⟩ := haccepts
  exact ⟨⟨⟨⟨⟨hkind, hauthors⟩, decide_eq_true htime⟩, huntil⟩, hsession⟩, hmention⟩

theorem ends_of_stored (h : cfg.Lawful) (hrunning : s.stopped = false) {machine : Machine}
    (hmachine : s.machines key = some machine) (hparse : cfg.parsePublicKey dest = some key)
    {reason : StatusReason} {payload : String}
    (haccepts : (subscription cfg).accepts
      (storedEvent cfg dest (.status .available reason r payload) stamp) = true)
    (hmem : storedEvent cfg dest (.status .available reason r payload) stamp ∈ s.relay) :
    Ends cfg s key r (storedEvent cfg dest (.status .available reason r payload) stamp) := by
  refine ⟨rfl, fun answer => ⟨_, if_pos ⟨hrunning, hmem, haccepts⟩, ?_, ?_⟩⟩
  · have hevent : (handleEvent cfg s.machines
        (storedEvent cfg dest (.status .available reason r payload) stamp)).eval answer =
        updateMachine cfg s.machines
          (storedEvent cfg dest (.status .available reason r payload) stamp) := by
      rw [handleEvent, show cfg.codec.decodeMessage (storedEvent cfg dest
        (.status .available reason r payload) stamp).content = _ from h.decode _]
      rfl
    have hreadable : (cfg.codec.decodeMessage (storedEvent cfg dest
        (.status .available reason r payload) stamp).content).isSome = true :=
      Option.isSome_iff_exists.mpr ⟨_, h.decode _⟩
    have hmention : mentioned cfg (storedEvent cfg dest
        (.status .available reason r payload) stamp) = some key := hparse
    obtain ⟨updated, hupdate, -⟩ := updateMachine_ok hmention
      (by rw [hmachine, Option.isSome_some] : (s.machines key).isSome = true) hreadable
    show (!((handleEvent cfg s.machines _).eval answer).isOk) = false
    rw [hevent, hupdate]
    rfl
  · show resulting s.machines ((handleEvent cfg s.machines _).eval answer) key = _
    have hreported : reported cfg key
        (storedEvent cfg dest (.status .available reason r payload) stamp) =
        some ⟨.available, some r⟩ := by
      rw [reported, show cfg.codec.decodeMessage (storedEvent cfg dest
        (.status .available reason r payload) stamp).content = _ from h.decode _]
      exact if_pos hparse
    rw [resulting_handleEvent, hreported, hmachine]
    rfl

theorem Releasing.releasable (h : cfg.Lawful) (hs : Releasing cfg Old s)
    (hrunning : s.stopped = false) {request : Option EventId}
    (hworking : s.machines key = some ⟨.working, request⟩) :
    ∃ r, request = some r ∧ (Old r ∨ Releasable cfg s key r) := by
  obtain ⟨r, rfl, hold | ⟨dest, reason, payload, stamp, hparse, haccepts, hmem⟩⟩ :=
    hs.announced hrunning hworking
  · exact ⟨r, rfl, Or.inl hold⟩
  refine ⟨r, rfl, (hs.ended hrunning hmem).imp_right ?_⟩
  rintro (⟨payload', htimer⟩ | ⟨reason', payload', stamp', htime, hmem'⟩)
  · refine Or.inr ⟨_, htimer, rfl, fun stamp' htime => ?_⟩
    have hfired := ends_of_stored (s := { s with
        relay := s.relay ++ [storedEvent cfg dest (.status .available .userBehaviour r
          (cfg.codec.encodeStatusPayload payload')) stamp']
        timers := s.timers.erase ⟨dest, r, payload'⟩ }) h hrunning hworking hparse
      (accepts_available haccepts htime) (List.mem_append_right _ List.mem_cons_self)
    exact ⟨_, _, if_pos ⟨hrunning, htimer⟩, hfired⟩
  · exact Or.inl ⟨_, ends_of_stored h hrunning hworking hparse (accepts_available haccepts htime)
      hmem'⟩

theorem releasing_run (h : cfg.Lawful) {l₀ : Lives} (hoff : l₀.state.stopped = true)
    (hown : Published cfg l₀.state.relay) {ops : List Lives.Op}
    (hops : (lives cfg).Throughout (Lives.Op.Regular cfg) l₀ ops) :
    Releasing (cfg.startedFrom ((lives cfg).run l₀ ops).startedAt) (Outlived cfg l₀ ops)
      ((lives cfg).run l₀ ops).state := by
  have hstart : Releasing (cfg.startedFrom l₀.startedAt) (Outlived cfg l₀ ops) l₀.state := by
    refine ⟨hown, fun hrunning => ?_, fun hrunning => ?_⟩
    · cases hoff.symm.trans hrunning
    · cases hoff.symm.trans hrunning
  refine run_of_stepAt (P := fun l : Lives => Releasing (cfg.startedFrom l.startedAt)
    (Outlived cfg l₀ ops) l.state) (fun {i op l l'} hat hl => ?_) hstart
  cases op with
  | run op =>
      obtain ⟨state, hstate, hl'⟩ := Option.bind_eq_some_iff.mp hat.step
      cases hl'
      exact hl.step (h.startedFrom _) (throughout_iff_stepAt.mp hops i _ _ _ hat) hstate
  | restart startedAt last lastEvents =>
      exact Releasing.restart h hl.published hat.step fun r hannounced =>
        ⟨i, startedAt, last, lastEvents, l, l', hat, hannounced⟩

/-- No machine is stuck in a session announced since the controller was last started: while it is
running, a working machine can be made available by an Available of the controller's own that is on
the relay or that a pending timer is going to send. -/
theorem never_stuck (h : cfg.Lawful) {l₀ : Lives} (hoff : l₀.state.stopped = true)
    (hown : Published cfg l₀.state.relay) {ops : List Lives.Op}
    (hops : (lives cfg).Throughout (Lives.Op.Regular cfg) l₀ ops)
    (hrunning : ((lives cfg).run l₀ ops).state.stopped = false) {request : Option EventId}
    (hworking : ((lives cfg).run l₀ ops).state.machines key = some ⟨.working, request⟩) :
    ∃ r, request = some r ∧ (Outlived cfg l₀ ops r ∨
      Releasable (cfg.startedFrom ((lives cfg).run l₀ ops).startedAt)
        ((lives cfg).run l₀ ops).state key r) :=
  (releasing_run h hoff hown hops).releasable (h.startedFrom _) hrunning hworking

end Sessions

namespace Sample

theorem paced_four : (system cfg).run start (paced.take 4) =
    state (busy 1) charged [timer 1 0] := by
  have hops : paced.take 4 = crossed.take 3 ++ [.deliver (working 1 0 10) (answer 0)] := rfl
  rw [hops, run_concat, crossed_three, next_of_step (step_working working_mem)]

theorem regular_paced :
    (system cfg).Throughout (fun _ op => op.Regular cfg) start (paced.take 4) := by
  refine ⟨fun _ => trivial, fun _ => trivial, fun _ => ?_, fun _ _ => rfl, trivial⟩
  rintro ⟨status, reason, initialRequest, payload, hstatus⟩
  cases decode_request.symm.trans hstatus

/-- The controller before its first start. -/
def notStarted : Lives := ⟨cfg.startedAt, initialMachines cfg, [], [], true⟩

def firstSession : List Lives.Op :=
  .restart cfg.startedAt (fun _ => none) [] :: (paced.take 4).map .run

theorem step_firstStart : (lives cfg).step notStarted (.restart cfg.startedAt (fun _ => none) []) =
    some ⟨cfg.startedAt, start⟩ := by
  have hfetched : Fetched (cfg.startedFrom cfg.startedAt) notStarted.state.relay
      (fun _ => none) [] := ⟨fun _ _ _ hmem => (List.not_mem_nil hmem).elim, by simp⟩
  simp only [lives, if_pos hfetched]
  rfl

theorem run_firstSession : (lives cfg).run notStarted firstSession =
    ⟨cfg.startedAt, state (busy 1) charged [timer 1 0]⟩ := by
  rw [firstSession, run_cons_of_step step_firstStart, ← paced_four]
  exact run_map (lives_run cfg cfg.startedAt) start (paced.take 4)

theorem regular_firstSession :
    (lives cfg).Throughout (Lives.Op.Regular cfg) notStarted firstSession := by
  rw [firstSession, throughout_cons_of_step step_firstStart]
  exact ⟨trivial, (throughout_map (lives_run cfg cfg.startedAt) start _).mpr regular_paced⟩

theorem not_outlived (r : EventId) : ¬ Outlived cfg notStarted firstSession r := by
  rintro ⟨i, startedAt, last, lastEvents, l, l', hat, dest, reason, payload, stamp, hmem⟩
  cases i with
  | zero =>
      rw [hat.before] at hmem
      cases hmem
  | succ i =>
      obtain ⟨op, -, hop⟩ := List.mem_map.mp (List.mem_of_getElem? hat.op)
      cases hop

end Sample

/-- The machine works on the first request, whose timer has not fired yet. -/
theorem never_stuck_sample : ∃ r, some (Bytes.toLE 32 1 : EventId) = some r ∧
    Releasable Sample.cfg (Sample.state (Sample.busy 1) Sample.charged [Sample.timer 1 0])
      Sample.machine r := by
  have hrun := Sample.run_firstSession
  obtain ⟨r, hr, houtlived | hreleasable⟩ :=
    never_stuck Sample.lawful rfl Sample.published_start Sample.regular_firstSession
      (by rw [hrun]; rfl) (by rw [hrun]; exact Sample.machines_state _ _ _)
  · exact absurd houtlived (Sample.not_outlived r)
  · rw [hrun] at hreleasable
    exact ⟨r, hr, hreleasable⟩

end DsProxy.Controller
