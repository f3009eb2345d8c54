import DsProxy.Backend.Listener

/-!
# Where the listener resumes

A start subscribes from the second after the newest stored event. Whatever lies at or before that
second and is not done by then is never delivered again, so the starts alone decide what is lost.
-/

namespace DsProxy.Backend

open Relay Runs System

variable {cfg : Config} {l l' : Listener} {op : Listener.Op} {outcome : Outcome} {event : Event}
  {transaction : Transaction} {id : EventId}

/-! ### No event lost -/

/-- The writes of the listener succeed. -/
def Succeeds (cfg : Config) (l : Listener) : Listener.Op → Prop
  | .call outcome => ∀ event c next, l.handling = some (event, .call c next) →
    written c (respond cfg outcome c l.toWorld).1 = true
  | _ => True

theorem succeeds_of_saving (h : l.handling = some (event, saving event transaction))
    (hwritten : written _ (respond cfg outcome (save event transaction) l.toWorld).1 = true) :
    Succeeds cfg l (.call outcome) := by
  intro event' c next hhandling
  cases h.symm.trans hhandling
  exact hwritten

theorem succeeds_of_updating (h : l.handling = some (event, updating transaction))
    (hwritten : written _ (respond cfg outcome (update transaction) l.toWorld).1 = true) :
    Succeeds cfg l (.call outcome) := by
  intro event' c next hhandling
  cases h.symm.trans hhandling
  exact hwritten

/-- A subscription is running, has delivered all it hears, and nothing is under way. -/
structure Drained (cfg : Config) (l : Listener) : Prop where
  idle : l.handling = none
  delivered : ∃ n, l.since = some n ∧
    ∀ {event}, event ∈ l.relay → hears cfg n event = true → event ∈ l.delivered

/-- The event has been saved and applied. -/
def Done (l : Listener) (id : EventId) : Prop := Stored l.db id ∧ id ∈ l.applied

/-- A transaction that the listener subscribes to. -/
def Awaited (cfg : Config) (event : Event) : Prop :=
  listened cfg event = true ∧ ∃ transaction, IsTransaction cfg event transaction

/-- A start leaves nothing behind: what is as old as the newest stored event is done. -/
def LeavesNothing (cfg : Config) (l : Listener) : Listener.Op → Prop
  | .start _ => ∀ {event}, event ∈ l.relay → Awaited cfg event →
    event.createdAt.toNat ≤ l.db.getLatestCreatedAt → Done l event.id
  | _ => True

/-- A listener that has never run. -/
structure Listener.Fresh (l : Listener) : Prop where
  stopped : l.since = none
  idle : l.handling = none
  table : l.db.transactionEvents = []
  ids : ∀ {event event'}, event ∈ l.relay → event' ∈ l.relay → event.id = event'.id →
    event = event'

theorem Listener.Fresh.known (h : l.Fresh) : Known cfg l where
  work := h.idle ▸ .idle
  handled hhandling := nomatch h.idle.symm.trans hhandling
  events := h.ids
  rows hrow := absurd (h.table ▸ hrow) List.not_mem_nil

/-- How far the listener has come in its present subscription. -/
structure Progress (cfg : Config) (l : Listener) : Prop where
  known : Known cfg l
  /-- What lies before the subscription is done. -/
  behind : ∀ {n event}, l.since = some n → event ∈ l.relay → Awaited cfg event →
    event.createdAt.toNat < n → Done l event.id
  /-- What it has delivered is done or under way. -/
  delivered : ∀ {n event}, l.since = some n → event ∈ l.delivered → Awaited cfg event →
    Done l event.id ∨ ∃ work, l.handling = some (event, work)
  /-- The first write comes before the second. -/
  stored : ∀ {event transaction}, l.handling = some (event, updating transaction) →
    Stored l.db event.id

theorem Listener.Fresh.progress (h : l.Fresh) : Progress cfg l where
  known := h.known
  behind hsince := nomatch h.stopped.symm.trans hsince
  delivered hsince := nomatch h.stopped.symm.trans hsince
  stored hhandling := nomatch h.idle.symm.trans hhandling

theorem relay_step (known : Known cfg l) (h : (listener cfg).step l op = some l') :
    l'.relay = l.relay := by
  cases op with
  | start outcome =>
      obtain ⟨-, rfl⟩ := start_done h
      rfl
  | deliver event =>
      obtain ⟨-, -, -, rfl⟩ := listener_deliver_done h
      rfl
  | call outcome =>
      cases called known.work h with
      | saved htransaction pending done table => rw [done]
      | updated htransaction pending done effect => rw [done]
  | stop | others users =>
      cases h
      rfl

theorem run_relay {l₀ : Listener} (h₀ : Known cfg l₀) (ops : List Listener.Op) :
    ((listener cfg).run l₀ ops).relay = l₀.relay :=
  (run_invariant (M := listener cfg) (P := fun l => Known cfg l ∧ l.relay = l₀.relay)
    (fun hl h => ⟨known_step hl.1 h, (relay_step hl.1 h).trans hl.2⟩) ⟨h₀, rfl⟩ ops).2

theorem done_step (known : Known cfg l) (hdone : Done l id)
    (h : (listener cfg).step l op = some l') : Done l' id := by
  obtain ⟨⟨row, hrow, hid⟩, happlied⟩ := hdone
  cases op with
  | start outcome =>
      obtain ⟨-, rfl⟩ := start_done h
      exact ⟨⟨row, hrow, hid⟩, happlied⟩
  | deliver event =>
      obtain ⟨-, -, -, rfl⟩ := listener_deliver_done h
      exact ⟨⟨row, hrow, hid⟩, happlied⟩
  | call outcome =>
      cases called known.work h with
      | saved htransaction pending done table =>
          subst done
          refine ⟨⟨row, ?_, hid⟩, happlied⟩
          rcases table with ⟨-, -, rfl⟩ | ⟨-, rfl⟩
          · exact List.mem_append_left _ hrow
          · exact hrow
      | updated htransaction pending done effect =>
          subst done
          exact ⟨⟨row, hrow, hid⟩, List.mem_append_right _ happlied⟩
  | stop | others users =>
      cases h
      exact ⟨⟨row, hrow, hid⟩, happlied⟩

theorem progress_step (hp : Progress cfg l) (hwrites : Succeeds cfg l op)
    (hleaves : LeavesNothing cfg l op) (h : (listener cfg).step l op = some l') :
    Progress cfg l' := by
  have hknown := known_step hp.known h
  have hmono {id : EventId} (hdone : Done l id) : Done l' id := done_step hp.known hdone h
  cases op with
  | start outcome =>
      obtain ⟨-, rfl⟩ := start_done h
      refine ⟨hknown, fun {n event} hsince hmem hawaited hlt => ?_,
        (fun _ hmem => nomatch hmem), (fun hhandling => nomatch hhandling)⟩
      rw [← Option.some.inj hsince] at hlt
      exact hleaves hmem hawaited (Nat.le_of_lt_succ hlt)
  | stop =>
      cases h
      exact ⟨hknown, (fun hsince => nomatch hsince), (fun hsince => nomatch hsince),
        (fun hhandling => nomatch hhandling)⟩
  | deliver event =>
      obtain ⟨hidle, -, -, rfl⟩ := listener_deliver_done h
      refine ⟨hknown, hp.behind, fun {n event'} hsince hmem hawaited => ?_,
        fun {event' transaction} hhandling => ?_⟩
      · rcases List.mem_cons.mp hmem with rfl | hmem
        · rcases remaining_onEvent cfg event' with ⟨transaction, -, hrest⟩ | ⟨hnone, -⟩
          · exact Or.inr ⟨_, hrest⟩
          · exact absurd hawaited.2.choose_spec (hnone _)
        · rcases hp.delivered hsince hmem hawaited with hdone | ⟨work, hhandling⟩
          · exact Or.inl hdone
          · cases hidle.symm.trans hhandling
      · rcases remaining_onEvent cfg event with ⟨transaction', -, hrest⟩ | ⟨-, hrest⟩
        · have hsame := (Prod.mk.inj (Option.some.inj (hrest.symm.trans hhandling))).2
          exact absurd hsame saving_ne_updating
        · cases hrest.symm.trans hhandling
  | call outcome =>
      cases called hp.known.work h with
      | @saved event transaction events htransaction pending done table =>
          have hsaved := hwrites _ _ _ pending
          have hstored : Stored l'.db event.id := by
            rcases table with ⟨-, -, hevents⟩ | ⟨hfailed, -⟩
            · rw [done]
              exact ⟨row event transaction, hevents ▸ List.mem_concat_self, rfl⟩
            · cases hsaved.symm.trans hfailed
          subst done
          refine ⟨hknown,
            fun hsince hmem hawaited hlt => hmono (hp.behind hsince hmem hawaited hlt),
            fun {n event'} hsince hmem hawaited => ?_, fun {event' transaction'} hhandling => ?_⟩
          · rcases hp.delivered hsince hmem hawaited with hdone | ⟨work, hhandling⟩
            · exact Or.inl (hmono hdone)
            · obtain ⟨rfl, -⟩ := Prod.mk.inj (Option.some.inj (pending.symm.trans hhandling))
              exact Or.inr ⟨_, rfl⟩
          · obtain ⟨rfl, -⟩ := Prod.mk.inj (Option.some.inj hhandling)
            exact hstored
      | @updated event transaction users htransaction pending done effect =>
          have hupdated := hwrites _ _ _ pending
          have hdone : Done l' event.id := by
            rw [done]
            refine ⟨hp.stored pending, List.mem_append_left _ ?_⟩
            show event.id ∈ if written (update transaction) _ = true then [event.id] else []
            rw [if_pos hupdated]
            exact List.mem_singleton_self _
          subst done
          refine ⟨hknown,
            fun hsince hmem hawaited hlt => hmono (hp.behind hsince hmem hawaited hlt),
            fun {n event'} hsince hmem hawaited => ?_, fun hhandling => nomatch hhandling⟩
          rcases hp.delivered hsince hmem hawaited with hdone' | ⟨work, hhandling⟩
          · exact Or.inl (hmono hdone')
          · obtain ⟨rfl, -⟩ := Prod.mk.inj (Option.some.inj (pending.symm.trans hhandling))
            exact Or.inl hdone
  | others users =>
      cases h
      exact ⟨hknown, hp.behind, hp.delivered, hp.stored⟩

/-- An event that a start has left behind. -/
structure Overtaken (event : Event) (l : Listener) : Prop where
  stored : event ∈ l.relay
  old : event.createdAt.toNat ≤ l.db.getLatestCreatedAt
  behind : ∀ {n}, l.since = some n → event.createdAt.toNat < n
  other : ∀ {handled work}, l.handling = some (handled, work) → handled.id ≠ event.id
  undone : ¬ Done l event.id

theorem overtaken_step (known : Known cfg l) (hover : Overtaken event l)
    (h : (listener cfg).step l op = some l') : Overtaken event l' := by
  cases op with
  | start outcome =>
      obtain ⟨-, rfl⟩ := start_done h
      refine ⟨hover.stored, hover.old, fun {n} hsince => ?_,
        (fun hhandling => by cases hhandling), hover.undone⟩
      rw [← Option.some.inj hsince]
      exact Nat.lt_succ_of_le hover.old
  | stop =>
      cases h
      exact ⟨hover.stored, hover.old, (fun hsince => by cases hsince),
        (fun hhandling => by cases hhandling), hover.undone⟩
  | deliver event' =>
      obtain ⟨-, hmem, ⟨n, hsince, hhears⟩, rfl⟩ := listener_deliver_done h
      refine ⟨hover.stored, hover.old, hover.behind, fun {handled work} hhandling hid => ?_,
        hover.undone⟩
      have hevent : handled = event' := by
        rcases remaining_onEvent cfg event' with ⟨transaction, -, hrest⟩ | ⟨-, hrest⟩
        · exact (Prod.mk.inj (Option.some.inj (hhandling.symm.trans hrest))).1
        · cases hrest.symm.trans hhandling
      have hsame : event' = event := known.events hmem hover.stored (hevent ▸ hid)
      have hold := hover.behind hsince
      simp only [hears, Bool.and_eq_true, decide_eq_true_eq] at hhears
      rw [hsame] at hhears
      omega
  | call outcome =>
      cases called known.work h with
      | @saved event' transaction events htransaction pending done table =>
          have hother := hover.other pending
          subst done
          refine ⟨hover.stored, ?_, hover.behind, fun {handled work} hhandling => ?_, ?_⟩
          · rcases table with ⟨-, -, rfl⟩ | ⟨-, rfl⟩
            · exact hover.old.trans (latest_append_le _ _)
            · exact hover.old
          · cases hhandling
            exact hother
          · rintro ⟨⟨stored, hstored, hid⟩, happlied⟩
            refine hover.undone ⟨⟨stored, ?_, hid⟩, happlied⟩
            rcases table with ⟨-, -, rfl⟩ | ⟨-, rfl⟩
            · rcases List.mem_append.mp hstored with hstored | hstored
              · exact hstored
              · rw [List.mem_singleton.mp hstored] at hid
                exact absurd hid hother
            · exact hstored
      | @updated event' transaction users htransaction pending done effect =>
          have hother := hover.other pending
          subst done
          refine ⟨hover.stored, hover.old, hover.behind,
            (fun hhandling => by cases hhandling), ?_⟩
          rintro ⟨hstored, happlied⟩
          refine hover.undone ⟨hstored, ?_⟩
          rcases List.mem_append.mp happlied with happlied | happlied
          · have hid : event.id ∈
                if written (update transaction) _ = true then [event'.id] else [] := happlied
            split_ifs at hid
            · exact absurd (List.mem_singleton.mp hid).symm hother
            · cases hid
          · exact happlied
  | others users =>
      cases h
      exact ⟨hover.stored, hover.old, hover.behind, hover.other, hover.undone⟩

theorem start_overtaken (h : (listener cfg).step l (.start outcome) = some l')
    (hmem : event ∈ l.relay) (hold : event.createdAt.toNat ≤ l.db.getLatestCreatedAt)
    (hundone : ¬ Done l event.id) : Overtaken event l' := by
  obtain ⟨-, rfl⟩ := start_done h
  refine ⟨hmem, hold, fun {n} hsince => ?_, (fun hhandling => nomatch hhandling), hundone⟩
  rw [← Option.some.inj hsince]
  exact Nat.lt_succ_of_le hold

theorem leavesNothing_of_done {ops : List Listener.Op} (known : Known cfg l)
    (hdone : ∀ {event}, event ∈ l.relay → Awaited cfg event →
      Done ((listener cfg).run l ops) event.id) :
    (listener cfg).Throughout (LeavesNothing cfg) l ops := by
  induction ops generalizing l with
  | nil => trivial
  | cons op ops ih =>
      cases hstep : (listener cfg).step l op with
      | none =>
          rw [run_cons_of_refused hstep] at hdone
          exact (throughout_cons_of_refused hstep).mpr (ih known hdone)
      | some l' =>
          rw [run_cons_of_step hstep] at hdone
          have known' := known_step known hstep
          refine (throughout_cons_of_step hstep).mpr ⟨?_, ih known' fun {event} hmem hawaited =>
            hdone (relay_step known hstep ▸ hmem) hawaited⟩
          cases op with
          | start outcome =>
              intro event hmem hawaited hold
              by_contra hundone
              have hover := run_invariant (M := listener cfg)
                (P := fun l => Known cfg l ∧ Overtaken event l)
                (fun hl h => ⟨known_step hl.1 h, overtaken_step hl.1 hl.2 h⟩)
                ⟨known', start_overtaken hstep hmem hold hundone⟩ ops
              exact hover.2.undone (hdone hmem hawaited)
          | _ => trivial

/-- When all writes succeed and the last subscription is drained, every event has been saved and
applied exactly when no start has left one behind. -/
theorem nothing_lost_iff {l₀ : Listener} (h₀ : l₀.Fresh) {ops : List Listener.Op}
    (hwrites : (listener cfg).Throughout (Succeeds cfg) l₀ ops)
    (hdrained : Drained cfg ((listener cfg).run l₀ ops)) :
    (∀ {event}, event ∈ l₀.relay → Awaited cfg event →
      Done ((listener cfg).run l₀ ops) event.id) ↔
    (listener cfg).Throughout (LeavesNothing cfg) l₀ ops := by
  refine ⟨leavesNothing_of_done h₀.known, fun hleaves {event} hmem hawaited => ?_⟩
  have hprogress : Progress cfg ((listener cfg).run l₀ ops) :=
    (hwrites.and hleaves).invariant (fun hop hp h => progress_step hp hop.1 hop.2 h) h₀.progress
  obtain ⟨n, hsince, hdelivered⟩ := hdrained.delivered
  have hrelay : event ∈ ((listener cfg).run l₀ ops).relay := by
    rw [run_relay h₀.known]
    exact hmem
  by_cases hnew : n ≤ event.createdAt.toNat
  · have hhears : hears cfg n event = true := by
      rw [hears, hawaited.1, decide_eq_true hnew]
      rfl
    rcases hprogress.delivered hsince (hdelivered hrelay hhears) hawaited with hdone | ⟨work, hwork⟩
    · exact hdone
    · cases hdrained.idle.symm.trans hwork
  · exact hprogress.behind hsince hrelay hawaited (Nat.lt_of_not_le hnew)

/-! ### Two credits of one second -/

namespace Listener.Sample

/-- The listener is stopped after the first credit, and started again. -/
def stopped : List Op :=
  [.start available, .deliver (credit 1), .call available, .call available, .stop,
    .start available]

/-- Both credits are delivered in one subscription. -/
def both : List Op :=
  [.start available, .deliver (credit 1), .call available, .call available, .deliver (credit 2),
    .call available, .call available]

theorem fresh_start : start.Fresh := ⟨rfl, rfl, rfl, known_start.events⟩

section Writes

variable {since n : ℕ} {tokens : ℤ} {events : List TransactionEvent} {delivered : List Event}
  {applied : List EventId}

theorem step_stop : (listener Sample.cfg).step (state (some since) none tokens events delivered
    applied) .stop = some (state none none tokens events delivered applied) := rfl

theorem succeeds_saving (hfresh : events.any (·.id = (credit n).id) = false) :
    Succeeds Sample.cfg (state (some since) (some (credit n, saving (credit n) thousand)) tokens
      events delivered applied) (.call available) := by
  have hsave : (db tokens events).saveTransactionEvent (row (credit n) thousand) =
      .ok (db tokens (events ++ [row (credit n) thousand])) :=
    if_neg (Bool.eq_false_iff.mp hfresh)
  apply succeeds_of_saving rfl
  simp only [save, respond, state, hsave]
  rfl

theorem succeeds_updating (hrange : InBigint (tokens + 1000)) :
    Succeeds Sample.cfg (state (some since) (some (credit n, updating thousand)) tokens events
      delivered applied) (.call available) := by
  apply succeeds_of_updating rfl
  simp only [update, respond, state, update_db hrange]
  rfl

end Writes

theorem writes_four {rest : List Op} : (listener Sample.cfg).Throughout (Succeeds Sample.cfg) start
    ([.start available, .deliver (credit 1), .call available, .call available] ++ rest) ↔
      (listener Sample.cfg).Throughout (Succeeds Sample.cfg)
        (state (some 1) none 1000 [first] [credit 1] [(credit 1).id]) rest := by
  have hrange : InBigint (0 + 1000) := by decide
  rw [start, List.cons_append, List.cons_append, List.cons_append, List.cons_append,
    throughout_cons_of_step step_start,
    throughout_cons_of_step (step_deliver (Or.inl rfl) (by decide)),
    throughout_cons_of_step (step_save rfl), throughout_cons_of_step (step_update hrange)]
  exact ⟨fun h => h.2.2.2.2,
    fun h => ⟨trivial, trivial, succeeds_saving rfl, succeeds_updating hrange, h⟩⟩

theorem run_stopped : (listener Sample.cfg).run start stopped =
    state (some 1735000001) none 1000 [first] [] [(credit 1).id] := by
  apply (run_four [.stop, .start available]).trans
  rw [run_cons_of_step step_stop, run_cons_of_step step_start]
  rfl

theorem writes_stopped :
    (listener Sample.cfg).Throughout (Succeeds Sample.cfg) start stopped := by
  apply writes_four.mpr
  rw [throughout_cons_of_step step_stop, throughout_cons_of_step step_start]
  exact ⟨trivial, trivial, trivial⟩

theorem drained_stopped : Drained Sample.cfg ((listener Sample.cfg).run start stopped) := by
  rw [run_stopped]
  refine ⟨rfl, 1735000001, rfl, fun {event} hmem hhears => ?_⟩
  rw [hears, Bool.and_eq_true, decide_eq_true_eq] at hhears
  rcases mem_relay hmem with rfl | rfl <;> exact absurd hhears.2 (by decide)

theorem run_both : (listener Sample.cfg).run start both =
    state (some 1) none 2000 [first, row (credit 2) thousand] [credit 2, credit 1]
      [(credit 2).id, (credit 1).id] := by
  apply (run_four [.deliver (credit 2), .call available, .call available]).trans
  rw [run_cons_of_step (step_deliver (Or.inr rfl) (by decide)), run_cons_of_step (step_save rfl),
    run_cons_of_step (step_update (by decide))]
  rfl

theorem writes_both : (listener Sample.cfg).Throughout (Succeeds Sample.cfg) start both := by
  apply writes_four.mpr
  have hrange : InBigint (1000 + 1000) := by decide
  rw [throughout_cons_of_step (step_deliver (Or.inr rfl) (by decide)),
    throughout_cons_of_step (step_save rfl), throughout_cons_of_step (step_update hrange)]
  exact ⟨trivial, succeeds_saving rfl, succeeds_updating hrange, trivial⟩

theorem drained_both : Drained Sample.cfg ((listener Sample.cfg).run start both) := by
  rw [run_both]
  refine ⟨rfl, 1, rfl, fun {event} hmem _ => ?_⟩
  rcases mem_relay hmem with rfl | rfl
  · exact List.mem_cons_of_mem _ (List.mem_singleton_self _)
  · exact List.mem_cons_self

theorem leavesNothing_both :
    (listener Sample.cfg).Throughout (LeavesNothing Sample.cfg) start both := by
  have hfirst : LeavesNothing Sample.cfg start (.start available) := by
    intro event hmem _ hold
    rcases mem_relay hmem with rfl | rfl <;> exact absurd hold (by decide)
  rw [start] at hfirst
  rw [both, start, throughout_cons_of_step step_start,
    throughout_cons_of_step (step_deliver (Or.inl rfl) (by decide)),
    throughout_cons_of_step (step_save rfl), throughout_cons_of_step (step_update (by decide)),
    throughout_cons_of_step (step_deliver (Or.inr rfl) (by decide)),
    throughout_cons_of_step (step_save rfl), throughout_cons_of_step (step_update (by decide))]
  exact ⟨hfirst, trivial, trivial, trivial, trivial, trivial, trivial, trivial⟩

end Listener.Sample

/-- Of two events in one second, the one that is not delivered before a stop is lost. -/
theorem lost_between_starts : Listener.Sample.start.Fresh ∧
    (listener Sample.cfg).Throughout (Succeeds Sample.cfg) Listener.Sample.start
      Listener.Sample.stopped ∧
    Drained Sample.cfg
      ((listener Sample.cfg).run Listener.Sample.start Listener.Sample.stopped) ∧
    ¬ ∀ {event}, event ∈ Listener.Sample.start.relay → Awaited Sample.cfg event →
      Done ((listener Sample.cfg).run Listener.Sample.start Listener.Sample.stopped) event.id := by
  refine ⟨Listener.Sample.fresh_start, Listener.Sample.writes_stopped,
    Listener.Sample.drained_stopped, fun hdone => ?_⟩
  have hsecond := @hdone (Listener.Sample.credit 2)
    (List.mem_cons_of_mem _ (List.mem_singleton_self _))
    ⟨Listener.Sample.listened_credit 2, _, Listener.Sample.isTransaction_credit 2⟩
  rw [Listener.Sample.run_stopped] at hsecond
  exact Listener.Sample.id_ne (List.mem_singleton.mp hsecond.2).symm

theorem nothing_lost_iff_sample :
    (listener Sample.cfg).Throughout (LeavesNothing Sample.cfg) Listener.Sample.start
      Listener.Sample.both ∧
    ∀ {event}, event ∈ Listener.Sample.start.relay → Awaited Sample.cfg event →
      Done ((listener Sample.cfg).run Listener.Sample.start Listener.Sample.both) event.id :=
  ⟨Listener.Sample.leavesNothing_both,
    (nothing_lost_iff Listener.Sample.fresh_start Listener.Sample.writes_both
      Listener.Sample.drained_both).mpr Listener.Sample.leavesNothing_both⟩

end DsProxy.Backend
