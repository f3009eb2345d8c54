import DsProxy.Backend.Run

/-!
# The listener, stopped and started

`StartNostrListener` deals with the events of one subscription one after the other and makes two
writes for each, and a stop may fall between any two of its steps. A new start subscribes from the
second after the newest event in the table. The relay's history is all there from the beginning:
what is published later is delivered later.
-/

namespace DsProxy.Backend

open Relay Runs System

/-- An event of the kind and with the tags the listener subscribes to. -/
def listened (cfg : Config) (event : Event) : Bool :=
  ({ subscription cfg with since := none } : Filter).accepts event

/-- The filter of a subscription since some second. -/
def hears (cfg : Config) (since : ℕ) (event : Event) : Bool :=
  listened cfg event && decide (since ≤ event.createdAt.toNat)

/-- What was delivered since the start and which updates were made are records nothing reads. -/
structure Listener extends World where
  /-- Of the running subscription. -/
  since : Option ℕ
  /-- The event that is dealt with, and what is left to do. -/
  handling : Option (Event × Async Unit)
  delivered : List Event
  applied : List EventId

inductive Listener.Op
  | start (outcome : Outcome)
  | stop
  | deliver (event : Event)
  | call (outcome : Outcome)
  /-- What the rest of the backend does to the users. -/
  | others (users : String → Option UserRow)

def remaining (event : Event) : Async Unit → Option (Event × Async Unit)
  | .ret _ => none
  | work => some (event, work)

/-- Whether a write of the listener succeeded. -/
def written : (c : Call) → Call.Answer c → Bool
  | .saveTransactionEvent _, answer => Except.isOk (answer : Except DbError Unit)
  | .updateUserTokens _ _ _, answer => Except.isOk (answer : Except DbError Unit)
  | _, _ => true

/-- The event whose update a call made. -/
def appliedBy (event : Event) : (c : Call) → Call.Answer c → List EventId
  | .updateUserTokens publicKey tokensDelta consumedDelta, answer =>
    if written (.updateUserTokens publicKey tokensDelta consumedDelta) answer = true then [event.id]
    else []
  | _, _ => []

def listener (cfg : Config) : System Listener Listener.Op where
  step l op :=
    match op with
    | .start outcome =>
      if l.since = none ∧ outcome.unavailable = false then
        some { l with
          since := some (l.db.getLatestCreatedAt + 1), handling := none, delivered := [] }
      else none
    | .stop => some { l with since := none, handling := none }
    | .deliver event =>
      if l.handling.isNone = true ∧ event ∈ l.relay ∧ l.since.any (hears cfg · event) = true then
        some { l with
          handling := remaining event (onEvent cfg event), delivered := event :: l.delivered }
      else none
    | .call outcome =>
      match l.handling with
      | some (event, .call c next) =>
        let (answer, w) := respond cfg outcome c l.toWorld
        some ⟨w, l.since, remaining event (next answer), l.delivered,
          appliedBy event c answer ++ l.applied⟩
      | _ => none
    | .others users => some { l with db := { l.db with users := users } }

/-! ### The two writes -/

variable {cfg : Config} {l l' : Listener} {op : Listener.Op} {outcome : Outcome} {event : Event}
  {transaction : Transaction} {w : World} {id : EventId}

def row (event : Event) (transaction : Transaction) : TransactionEvent :=
  ⟨event.id, transaction.user, transaction.tokens, event.createdAt⟩

def consumed (transaction : Transaction) : Int64 :=
  if 0 ≤ transaction.tokens then 0 else -transaction.tokens

def save (event : Event) (transaction : Transaction) : Call :=
  .saveTransactionEvent (row event transaction)

def update (transaction : Transaction) : Call :=
  .updateUserTokens transaction.user transaction.tokens (consumed transaction)

/-- The second write, and both. -/
def updating (transaction : Transaction) : Async Unit :=
  .call (update transaction) fun _ => .ret ()

def saving (event : Event) (transaction : Transaction) : Async Unit :=
  .call (save event transaction) fun _ => updating transaction

def IsTransaction (cfg : Config) (event : Event) (transaction : Transaction) : Prop :=
  cfg.unmarshal event.content = some ⟨some transaction⟩

theorem onEvent_transaction (h : IsTransaction cfg event transaction) :
    onEvent cfg event = saving event transaction := by
  rw [onEvent, h]
  rfl

theorem onEvent_other (h : ∀ transaction, ¬ IsTransaction cfg event transaction) :
    onEvent cfg event = .ret () := by
  unfold onEvent
  split
  · rename_i transaction hmessage
    exact absurd hmessage (h transaction)
  · rfl

/-- An event is in the table. -/
def Stored (db : Db) (id : EventId) : Prop := ∃ row ∈ db.transactionEvents, row.id = id

variable (cfg outcome event transaction w) in
theorem respond_save : ∃ events,
    (respond cfg outcome (save event transaction) w).2 =
      { w with db := { w.db with transactionEvents := events } } ∧
    (written _ (respond cfg outcome (save event transaction) w).1 = true ∧
        ¬ Stored w.db event.id ∧ events = w.db.transactionEvents ++ [row event transaction] ∨
      written _ (respond cfg outcome (save event transaction) w).1 = false ∧
        events = w.db.transactionEvents) := by
  have hstored : (w.db.transactionEvents.any (·.id = (row event transaction).id)) = true ↔
      Stored w.db event.id := by
    rw [List.any_eq_true]
    simp only [decide_eq_true_eq]
    rfl
  simp only [save, respond, Outcome.write, Db.saveTransactionEvent, written]
  cases hup : outcome.unavailable with
  | true => exact ⟨_, rfl, Or.inr ⟨rfl, rfl⟩⟩
  | false =>
      simp only [Bool.false_eq_true, if_false]
      by_cases hany : (w.db.transactionEvents.any (·.id = (row event transaction).id)) = true
      · rw [if_pos hany]
        exact ⟨_, rfl, Or.inr ⟨rfl, rfl⟩⟩
      · rw [if_neg hany]
        exact ⟨_, rfl, Or.inl ⟨rfl, fun h => hany (hstored.mpr h), rfl⟩⟩

/-- An update that can take effect: the database answers, the user has a row, the tokens are not
zero and both sums stay in range. -/
def TakesEffect (outcome : Outcome) (transaction : Transaction) (db : Db) : Prop :=
  outcome.unavailable = false ∧ transaction.tokens ≠ 0 ∧
    ∃ row, db.users transaction.user = some row ∧
      InBigint (row.tokens + transaction.tokens.toInt) ∧
      InBigint (row.tokensConsumed + (consumed transaction).toInt)

/-- Adding a transaction's tokens to a row changes it, unless they are zero. -/
theorem update_ne_iff {users : String → Option UserRow} {user : String} {row : UserRow}
    (hrow : users user = some row) : Function.update users user
      (some ⟨row.tokens + transaction.tokens.toInt,
        row.tokensConsumed + (consumed transaction).toInt⟩) ≠ users ↔ transaction.tokens ≠ 0 := by
  rw [ne_eq, ne_eq, not_iff_not, Function.update_eq_self_iff, hrow, Option.some.injEq]
  constructor
  · intro h
    have htokens : row.tokens + transaction.tokens.toInt = row.tokens := congrArg UserRow.tokens h
    exact Int64.toInt_inj.mp (by simpa using htokens)
  · intro h
    have hconsumed : consumed transaction = 0 := by
      rw [consumed, h]
      rfl
    rw [hconsumed, h]
    simp

variable (cfg outcome transaction w) in
theorem respond_update : ∃ users,
    (respond cfg outcome (update transaction) w).2 = { w with db := { w.db with users := users } } ∧
      (users ≠ w.db.users ↔ TakesEffect outcome transaction w.db) := by
  simp only [update, respond, Outcome.write, TakesEffect]
  cases hup : outcome.unavailable with
  | true => exact ⟨_, rfl, by simp⟩
  | false =>
      simp only [Bool.false_eq_true, if_false, true_and, Db.updateUserTokens]
      cases hrow : w.db.users transaction.user with
      | none => exact ⟨_, rfl, by simp⟩
      | some row =>
          by_cases hrange : InBigint (row.tokens + transaction.tokens.toInt) ∧
              InBigint (row.tokensConsumed + (consumed transaction).toInt)
          · simp only [if_pos hrange]
            refine ⟨_, rfl, (update_ne_iff hrow).trans ?_⟩
            simp [hrange]
          · simp only [if_neg hrange]
            refine ⟨_, rfl, iff_of_false (fun h => h rfl) ?_⟩
            rintro ⟨-, row', hrow', hrange'⟩
            cases hrow'
            exact hrange hrange'

/-! ### What a step does -/

/-- Where the listener may be with an event: nowhere, before the first write or the second. -/
inductive AtWork (cfg : Config) : Option (Event × Async Unit) → Prop
  | idle : AtWork cfg none
  | saving {event : Event} {transaction : Transaction}
      (h : IsTransaction cfg event transaction) :
      AtWork cfg (some (event, saving event transaction))
  | updating {event : Event} {transaction : Transaction}
      (h : IsTransaction cfg event transaction) :
      AtWork cfg (some (event, updating transaction))

theorem remaining_onEvent (cfg : Config) (event : Event) :
    (∃ transaction, IsTransaction cfg event transaction ∧
      remaining event (onEvent cfg event) = some (event, saving event transaction)) ∨
    (∀ transaction, ¬ IsTransaction cfg event transaction) ∧
      remaining event (onEvent cfg event) = none := by
  by_cases h : ∃ transaction, IsTransaction cfg event transaction
  · obtain ⟨transaction, h⟩ := h
    exact Or.inl ⟨transaction, h, congrArg (remaining event) (onEvent_transaction h)⟩
  · have hnone : ∀ transaction, ¬ IsTransaction cfg event transaction := fun t ht => h ⟨t, ht⟩
    exact Or.inr ⟨hnone, congrArg (remaining event) (onEvent_other hnone)⟩

theorem start_done (h : (listener cfg).step l (.start outcome) = some l') :
    l.since = none ∧ l' = { l with
      since := some (l.db.getLatestCreatedAt + 1), handling := none, delivered := [] } := by
  simp only [listener] at h
  split_ifs at h with hguard
  exact ⟨hguard.1, (Option.some.inj h).symm⟩

theorem listener_deliver_done (h : (listener cfg).step l (.deliver event) = some l') :
    l.handling = none ∧ event ∈ l.relay ∧ (∃ n, l.since = some n ∧ hears cfg n event = true) ∧
      l' = { l with
        handling := remaining event (onEvent cfg event), delivered := event :: l.delivered } := by
  simp only [listener] at h
  split_ifs at h with hguard
  exact ⟨Option.isNone_iff_eq_none.mp hguard.1, hguard.2.1,
    (Option.any_eq_true _ _).mp hguard.2.2, (Option.some.inj h).symm⟩

/-- What a call of the listener was and did. -/
inductive Called (cfg : Config) (outcome : Outcome) (l l' : Listener) : Prop
  | saved {event : Event} {transaction : Transaction} {events : List TransactionEvent}
      (h : IsTransaction cfg event transaction)
      (pending : l.handling = some (event, saving event transaction))
      (done : l' = { l with
        db := { l.db with transactionEvents := events }
        handling := some (event, updating transaction) })
      (table : written _ (respond cfg outcome (save event transaction) l.toWorld).1 = true ∧
          ¬ Stored l.db event.id ∧ events = l.db.transactionEvents ++ [row event transaction] ∨
        written _ (respond cfg outcome (save event transaction) l.toWorld).1 = false ∧
          events = l.db.transactionEvents)
  | updated {event : Event} {transaction : Transaction} {users : String → Option UserRow}
      (h : IsTransaction cfg event transaction)
      (pending : l.handling = some (event, updating transaction))
      (done : l' = { l with
        db := { l.db with users := users }
        handling := none
        applied := appliedBy event (update transaction)
          (respond cfg outcome (update transaction) l.toWorld).1 ++ l.applied })
      (effect : users ≠ l.db.users ↔ TakesEffect outcome transaction l.db)

theorem called (hwork : AtWork cfg l.handling)
    (h : (listener cfg).step l (.call outcome) = some l') : Called cfg outcome l l' := by
  generalize hhandling : l.handling = handling at hwork
  simp only [listener, hhandling] at h
  cases hwork with
  | idle => cases h
  | @saving event transaction htransaction =>
      obtain ⟨events, hworld, htable⟩ := respond_save cfg outcome event transaction l.toWorld
      refine .saved htransaction hhandling ?_ htable
      rw [← Option.some.inj h]
      show Listener.mk _ _ _ _ _ = _
      rw [hworld]
      rfl
  | @updating event transaction htransaction =>
      obtain ⟨users, hworld, heffect⟩ := respond_update cfg outcome transaction l.toWorld
      refine .updated htransaction hhandling ?_ heffect
      rw [← Option.some.inj h]
      show Listener.mk _ _ _ _ _ = _
      rw [hworld]
      rfl

theorem atWork_step (hwork : AtWork cfg l.handling) (h : (listener cfg).step l op = some l') :
    AtWork cfg l'.handling := by
  cases op with
  | start outcome =>
      obtain ⟨-, rfl⟩ := start_done h
      exact .idle
  | stop =>
      cases h
      exact .idle
  | deliver event =>
      obtain ⟨-, -, -, rfl⟩ := listener_deliver_done h
      rcases remaining_onEvent cfg event with ⟨transaction, htransaction, hwork⟩ | ⟨-, hidle⟩
      · exact hwork ▸ .saving htransaction
      · exact hidle ▸ .idle
  | call outcome =>
      cases called hwork h with
      | saved htransaction pending done table =>
          rw [done]
          exact .updating htransaction
      | updated htransaction pending done effect =>
          rw [done]
          exact .idle
  | others users =>
      cases h
      exact hwork

/-! ### Each event once -/

/-- Ids name events, in the relay as well as in the table. -/
structure Known (cfg : Config) (l : Listener) : Prop where
  work : AtWork cfg l.handling
  handled : ∀ {event work}, l.handling = some (event, work) → event ∈ l.relay
  events : ∀ {event event'}, event ∈ l.relay → event' ∈ l.relay → event.id = event'.id →
    event = event'
  rows : ∀ {row event}, row ∈ l.db.transactionEvents → event ∈ l.relay → event.id = row.id →
    event.createdAt = row.createdAt

theorem known_step (known : Known cfg l) (h : (listener cfg).step l op = some l') :
    Known cfg l' := by
  have hwork := atWork_step known.work h
  cases op with
  | start outcome =>
      obtain ⟨-, rfl⟩ := start_done h
      exact ⟨hwork, (fun hhandling => nomatch hhandling), known.events, known.rows⟩
  | stop =>
      cases h
      exact ⟨hwork, (fun hhandling => nomatch hhandling), known.events, known.rows⟩
  | deliver event =>
      obtain ⟨-, hmem, -, rfl⟩ := listener_deliver_done h
      refine ⟨hwork, fun {event' work} hhandling => ?_, known.events, known.rows⟩
      rcases remaining_onEvent cfg event with ⟨transaction, -, hrest⟩ | ⟨-, hrest⟩
      · cases hrest.symm.trans hhandling
        exact hmem
      · cases hrest.symm.trans hhandling
  | call outcome =>
      cases called known.work h with
      | @saved event transaction events htransaction pending done table =>
          have hmem := known.handled pending
          subst done
          refine ⟨hwork, fun {event' work} hhandling => ?_, known.events, ?_⟩
          · cases hhandling
            exact hmem
          · intro row event' hrow hmem' hid
            rcases table with ⟨-, -, rfl⟩ | ⟨-, rfl⟩
            · rcases List.mem_append.mp hrow with hrow | hrow
              · exact known.rows hrow hmem' hid
              · rw [List.mem_singleton.mp hrow] at hid ⊢
                exact congrArg Event.createdAt (known.events hmem' hmem hid)
            · exact known.rows hrow hmem' hid
      | updated htransaction pending done effect =>
          subst done
          exact ⟨hwork, (fun hhandling => nomatch hhandling), known.events, known.rows⟩
  | others users =>
      cases h
      exact ⟨hwork, known.handled, known.events, known.rows⟩

/-- A call for the event changed the users. -/
def Changes (id : EventId) (l l' : Listener) : Listener.Op → Prop
  | .call _ => (∃ event work, l.handling = some (event, work) ∧ event.id = id) ∧
    l'.db.users ≠ l.db.users
  | _ => False

/-- The update of the event is next, and can take effect. -/
def Takes (cfg : Config) (id : EventId) (l : Listener) : Listener.Op → Prop
  | .call outcome => ∃ event transaction, IsTransaction cfg event transaction ∧
    l.handling = some (event, updating transaction) ∧ event.id = id ∧
    TakesEffect outcome transaction l.db
  | _ => False

theorem saving_ne_updating {event : Event} {transaction transaction' : Transaction} :
    saving event transaction ≠ updating transaction' := by
  intro h
  simp [saving, updating, save, update] at h

theorem changes_iff_takes (hwork : AtWork cfg l.handling)
    (h : (listener cfg).step l op = some l') : Changes id l l' op ↔ Takes cfg id l op := by
  cases op with
  | call outcome =>
      cases called hwork h with
      | saved htransaction pending done table =>
          refine iff_of_false (fun hchanges => hchanges.2 (by rw [done])) ?_
          rintro ⟨event', transaction', -, hhandling, -, -⟩
          rw [pending] at hhandling
          exact saving_ne_updating (Prod.mk.inj (Option.some.inj hhandling)).2
      | @updated event transaction users htransaction pending done effect =>
          constructor
          · rintro ⟨⟨_, work, hhandling, hid⟩, hne⟩
            cases pending.symm.trans hhandling
            rw [done] at hne
            exact ⟨event, transaction, htransaction, pending, hid, effect.mp hne⟩
          · rintro ⟨event', transaction', htransaction', hhandling, hid, htakes⟩
            obtain ⟨rfl, -⟩ := Prod.mk.inj (Option.some.inj (pending.symm.trans hhandling))
            cases htransaction.symm.trans htransaction'
            refine ⟨⟨event, _, pending, hid⟩, ?_⟩
            rw [done]
            exact effect.mpr htakes
  | _ => exact Iff.rfl

theorem le_latest {events : List TransactionEvent} {row : TransactionEvent} (h : row ∈ events) :
    row.createdAt.toNat ≤
      events.foldr (fun event latest => max event.createdAt.toNat latest) 0 := by
  induction events with
  | nil => cases h
  | cons first rest ih =>
      rcases List.mem_cons.mp h with rfl | h
      · exact Nat.le_max_left _ _
      · exact (ih h).trans (Nat.le_max_right _ _)

theorem latest_append_le (events more : List TransactionEvent) :
    events.foldr (fun event latest => max event.createdAt.toNat latest) 0 ≤
      (events ++ more).foldr (fun event latest => max event.createdAt.toNat latest) 0 := by
  induction events with
  | nil => exact Nat.zero_le _
  | cons first rest ih => exact max_le_max (Nat.le_refl _) ih

/-- The event is in the table, and the subscription lies behind it. -/
structure Guarded (id : EventId) (l : Listener) : Prop where
  stored : ∃ row ∈ l.db.transactionEvents, row.id = id ∧
    ∀ n, l.since = some n → row.createdAt.toNat < n
  other : ∀ {event work}, l.handling = some (event, work) → event.id ≠ id

theorem start_guarded (h : (listener cfg).step l (.start outcome) = some l')
    (hstored : Stored l.db id) : Guarded id l' := by
  obtain ⟨row, hrow, hid⟩ := hstored
  obtain ⟨-, rfl⟩ := start_done h
  refine ⟨⟨row, hrow, hid, fun n hn => ?_⟩, fun hhandling => nomatch hhandling⟩
  rw [← Option.some.inj hn]
  exact Nat.lt_succ_of_le (le_latest hrow)

theorem guarded_step (known : Known cfg l) (hguarded : Guarded id l)
    (h : (listener cfg).step l op = some l') : Guarded id l' := by
  obtain ⟨row, hrow, hid, hbehind⟩ := hguarded.stored
  cases op with
  | start outcome => exact start_guarded h ⟨row, hrow, hid⟩
  | stop =>
      cases h
      exact ⟨⟨row, hrow, hid, fun n hn => nomatch hn⟩, fun hhandling => nomatch hhandling⟩
  | deliver event =>
      obtain ⟨-, hmem, ⟨n, hsince, hhears⟩, rfl⟩ := listener_deliver_done h
      refine ⟨⟨row, hrow, hid, hbehind⟩, fun {event' work} hhandling hsame => ?_⟩
      have hevent : event' = event := by
        rcases remaining_onEvent cfg event with ⟨transaction, -, hrest⟩ | ⟨-, hrest⟩
        · cases hrest.symm.trans hhandling
          rfl
        · cases hrest.symm.trans hhandling
      rw [hevent] at hsame
      have hnew : n ≤ event.createdAt.toNat := by
        simp only [hears, Bool.and_eq_true, decide_eq_true_eq] at hhears
        exact hhears.2
      have hold := hbehind n hsince
      rw [← known.rows hrow hmem (hsame.trans hid.symm)] at hold
      omega
  | call outcome =>
      cases called known.work h with
      | saved htransaction pending done table =>
          have hother := hguarded.other pending
          subst done
          refine ⟨⟨row, ?_, hid, hbehind⟩, fun hhandling => ?_⟩
          · rcases table with ⟨-, -, rfl⟩ | ⟨-, rfl⟩
            · exact List.mem_append_left _ hrow
            · exact hrow
          · cases hhandling
            exact hother
      | updated htransaction pending done effect =>
          subst done
          exact ⟨⟨row, hrow, hid, hbehind⟩, fun hhandling => nomatch hhandling⟩
  | others users =>
      cases h
      exact ⟨⟨row, hrow, hid, hbehind⟩, hguarded.other⟩

/-- No event changes the users twice. -/
def AppliedOnce (cfg : Config) (l₀ : Listener) (ops : List Listener.Op) : Prop :=
  ∀ {id i j a b l l' t t'}, StepAt (listener cfg) l₀ ops i a l l' →
    StepAt (listener cfg) l₀ ops j b t t' → Changes id l l' a → Changes id t t' b → i = j

/-- An event's update takes effect twice, and no start in between found the event in the table. -/
structure Repeats (cfg : Config) (l₀ : Listener) (ops : List Listener.Op) (id : EventId) (i j : ℕ) :
    Prop where
  later : i < j
  first : ∃ a l l', StepAt (listener cfg) l₀ ops i a l l' ∧ Takes cfg id l a
  again : ∃ a l l', StepAt (listener cfg) l₀ ops j a l l' ∧ Takes cfg id l a
  unsaved : ∀ {k outcome l l'}, i < k → k < j →
    StepAt (listener cfg) l₀ ops k (.start outcome) l l' → ¬ Stored l.db id

theorem run_known {l₀ : Listener} (h₀ : Known cfg l₀) (ops : List Listener.Op) :
    Known cfg ((listener cfg).run l₀ ops) :=
  run_invariant (fun known h => known_step known h) h₀ ops

/-- An event that a start found in the table takes no effect after it. -/
theorem not_takes_of_stored {l₀ : Listener} {ops : List Listener.Op} (h₀ : Known cfg l₀) {j k : ℕ}
    {t t' : Listener} (hstart : StepAt (listener cfg) l₀ ops k (.start outcome) l l')
    (hstored : Stored l.db id) (hj : StepAt (listener cfg) l₀ ops j op t t') (hkj : k < j) :
    ¬ Takes cfg id t op := by
  intro htakes
  obtain ⟨mid, hmid⟩ := hstart.later hkj
  have hknown : Known cfg l' := hstart.after ▸ run_known h₀ _
  have hboth : Known cfg t ∧ Guarded id t := by
    rw [hj.before, hmid]
    exact run_invariant (P := fun l => Known cfg l ∧ Guarded id l)
      (fun hl h => ⟨known_step hl.1 h, guarded_step hl.1 hl.2 h⟩)
      ⟨hknown, start_guarded hstart.step hstored⟩ mid
  cases op with
  | call outcome =>
      obtain ⟨event, transaction, -, hhandling, hid, -⟩ := htakes
      exact hboth.2.other hhandling hid
  | _ => exact htakes

/-- Each event changes the users at most once, unless it is repeated within a subscription or after
a start that did not find it in the table. -/
theorem applied_once_iff {l₀ : Listener} (h₀ : Known cfg l₀) (ops : List Listener.Op) :
    AppliedOnce cfg l₀ ops ↔ ∀ id i j, ¬ Repeats cfg l₀ ops id i j := by
  have hchanges {i a l l' id} (hi : StepAt (listener cfg) l₀ ops i a l l') :
      Changes id l l' a ↔ Takes cfg id l a := by
    refine changes_iff_takes ?_ hi.step
    rw [hi.before]
    exact (run_known h₀ _).work
  constructor
  · rintro honce id i j ⟨hlater, ⟨a, l, l', hi, ha⟩, ⟨b, t, t', hj, hb⟩, -⟩
    have hij := honce hi hj ((hchanges hi).mpr ha) ((hchanges hj).mpr hb)
    omega
  · intro hnever id i j a b l l' t t' hi hj ha hb
    have ha := (hchanges hi).mp ha
    have hb := (hchanges hj).mp hb
    rcases Nat.lt_trichotomy i j with hij | hij | hij
    · refine absurd ⟨hij, ⟨a, l, l', hi, ha⟩, ⟨b, t, t', hj, hb⟩, ?_⟩ (hnever id i j)
      intro k outcome r r' _ hkj hstart hstored
      exact not_takes_of_stored h₀ hstart hstored hj hkj hb
    · exact hij
    · refine absurd ⟨hij, ⟨b, t, t', hj, hb⟩, ⟨a, l, l', hi, ha⟩, ?_⟩ (hnever id j i)
      intro k outcome r r' _ hki hstart hstored
      exact not_takes_of_stored h₀ hstart hstored hi hki ha

/-! ### Two credits of one second -/

namespace Listener.Sample

def available : Outcome := ⟨false, none, none, 0, 0⟩

def thousand : Transaction := ⟨Sample.userPubkey, 1000⟩

/-- A credit of a thousand tokens, under the id `n`. -/
def credit (n : ℕ) : Event :=
  transactionEvent Sample.cfg thousand ⟨Bytes.toLE 32 n, 1735000000⟩

def db (tokens : ℤ) (events : List TransactionEvent) : Db where
  users u := if u = Sample.userPubkey then some ⟨tokens, 0⟩ else none
  conversations _ := none
  messages := []
  transactionEvents := events

def state (since : Option ℕ) (handling : Option (Event × Async Unit)) (tokens : ℤ)
    (events : List TransactionEvent) (delivered : List Event) (applied : List EventId) : Listener :=
  ⟨⟨db tokens events, [credit 1, credit 2]⟩, since, handling, delivered, applied⟩

def start : Listener := state none none 0 [] [] []

theorem isTransaction_credit (n : ℕ) : IsTransaction Sample.cfg (credit n) thousand :=
  Sample.unmarshal_marshal _

theorem listened_credit (n : ℕ) : listened Sample.cfg (credit n) = true := by
  simp [listened, subscription, Filter.accepts, Event.hasTag, credit, transactionEvent,
    Event.posted, Sample.cfg]

section Steps

variable {since n : ℕ} {tokens : ℤ} {events : List TransactionEvent} {delivered : List Event}
  {applied : List EventId}

theorem step_start : (listener Sample.cfg).step (state none none tokens events delivered applied)
    (.start available) = some (state (some ((db tokens events).getLatestCreatedAt + 1)) none tokens
      events [] applied) := by
  simp only [listener]
  exact if_pos ⟨rfl, rfl⟩

theorem step_deliver (hn : n = 1 ∨ n = 2) (hsince : since ≤ 1735000000) :
    (listener Sample.cfg).step (state (some since) none tokens events delivered applied)
      (.deliver (credit n)) = some (state (some since)
        (some (credit n, saving (credit n) thousand)) tokens events (credit n :: delivered)
          applied) := by
  have hmem : credit n ∈ [credit 1, credit 2] := by
    rcases hn with rfl | rfl
    · exact List.mem_cons_self
    · exact List.mem_cons_of_mem _ (List.mem_singleton_self _)
  have hhears : hears Sample.cfg since (credit n) = true := by
    rw [hears, listened_credit]
    exact decide_eq_true hsince
  have hrest : remaining (credit n) (onEvent Sample.cfg (credit n)) =
      some (credit n, saving (credit n) thousand) := by
    rw [onEvent_transaction (isTransaction_credit n)]
    rfl
  have hguard : (state (some since) none tokens events delivered applied).handling.isNone = true ∧
      credit n ∈ (state (some since) none tokens events delivered applied).relay ∧
      (state (some since) none tokens events delivered applied).since.any
        (hears Sample.cfg · (credit n)) = true := ⟨rfl, hmem, hhears⟩
  simp only [listener]
  rw [if_pos hguard, hrest]
  rfl

theorem step_save (hfresh : events.any (·.id = (credit n).id) = false) :
    (listener Sample.cfg).step (state (some since)
        (some (credit n, saving (credit n) thousand)) tokens events delivered applied)
      (.call available) = some (state (some since) (some (credit n, updating thousand)) tokens
        (events ++ [row (credit n) thousand]) delivered applied) := by
  have hsave : (db tokens events).saveTransactionEvent (row (credit n) thousand) =
      .ok (db tokens (events ++ [row (credit n) thousand])) :=
    if_neg (Bool.eq_false_iff.mp hfresh)
  simp only [listener, state, saving, save, respond, hsave]
  rfl

theorem step_save_again (hstored : events.any (·.id = (credit n).id) = true) :
    (listener Sample.cfg).step (state (some since)
        (some (credit n, saving (credit n) thousand)) tokens events delivered applied)
      (.call available) = some (state (some since) (some (credit n, updating thousand)) tokens
        events delivered applied) := by
  have hsave : (db tokens events).saveTransactionEvent (row (credit n) thousand) =
      .error .duplicatedKey := if_pos hstored
  simp only [listener, state, saving, save, respond, hsave]
  rfl

theorem update_db (hrange : InBigint (tokens + 1000)) : (db tokens events).updateUserTokens
    thousand.user thousand.tokens (consumed thousand) = .ok (db (tokens + 1000) events) := by
  have hrow : (db tokens events).users thousand.user = some ⟨tokens, 0⟩ := by
    show (if Sample.userPubkey = Sample.userPubkey then some _ else none) = _
    rw [if_pos rfl]
  have hzero : InBigint (0 + (consumed thousand).toInt) := by decide
  have husers : Function.update (db tokens events).users thousand.user
      (some ⟨tokens + 1000, 0⟩) = (db (tokens + 1000) events).users := by
    funext u
    by_cases hu : u = Sample.userPubkey
    · simp [hu, thousand, db]
    · simp [hu, thousand, db]
  simp only [Db.updateUserTokens, hrow]
  rw [if_pos ⟨hrange, hzero⟩]
  exact congrArg (fun users => Except.ok { db tokens events with users := users }) husers

theorem step_update (hrange : InBigint (tokens + 1000)) :
    (listener Sample.cfg).step (state (some since)
        (some (credit n, updating thousand)) tokens events delivered applied)
      (.call available) = some (state (some since) none (tokens + 1000) events delivered
        ((credit n).id :: applied)) := by
  simp only [listener, state, updating, update, respond, update_db hrange]
  rfl

end Steps

def first : TransactionEvent := row (credit 1) thousand

/-- The first credit is delivered, and delivered again. -/
def twice : List Op :=
  [.start available, .deliver (credit 1), .call available, .call available, .deliver (credit 1),
    .call available, .call available]

theorem id_ne : (credit 1).id ≠ (credit 2).id := by decide

theorem mem_relay {event : Event} (h : event ∈ start.relay) : event = credit 1 ∨ event = credit 2 :=
  (List.mem_cons.mp h).imp_right List.mem_singleton.mp

theorem known_start : Known Sample.cfg start where
  work := .idle
  handled hhandling := nomatch hhandling
  events {event event'} hmem hmem' hid := by
    rcases mem_relay hmem with rfl | rfl <;> rcases mem_relay hmem' with rfl | rfl
    · rfl
    · exact absurd hid id_ne
    · exact absurd hid id_ne.symm
    · rfl
  rows hrow := nomatch hrow

theorem run_three (rest : List Op) : (listener Sample.cfg).run start
    ([.start available, .deliver (credit 1), .call available] ++ rest) =
      (listener Sample.cfg).run (state (some 1) (some (credit 1, updating thousand)) 0 [first]
        [credit 1] []) rest := by
  rw [start, List.cons_append, List.cons_append, List.cons_append, run_cons_of_step step_start,
    run_cons_of_step (step_deliver (Or.inl rfl) (by decide)), run_cons_of_step (step_save rfl)]
  rfl

theorem run_four (rest : List Op) : (listener Sample.cfg).run start
    ([.start available, .deliver (credit 1), .call available, .call available] ++ rest) =
      (listener Sample.cfg).run (state (some 1) none 1000 [first] [credit 1] [(credit 1).id])
        rest := by
  apply (run_three (.call available :: rest)).trans
  rw [run_cons_of_step (step_update (by decide))]
  rfl

theorem run_six : (listener Sample.cfg).run start (twice.take 6) =
    state (some 1) (some (credit 1, updating thousand)) 1000 [first] [credit 1, credit 1]
      [(credit 1).id] := by
  apply (run_four [.deliver (credit 1), .call available]).trans
  rw [run_cons_of_step (step_deliver (Or.inl rfl) (by decide)),
    run_cons_of_step (step_save_again rfl), run_nil]

theorem changes_update {since : ℕ} {tokens : ℤ} {events : List TransactionEvent}
    {delivered : List Event} {applied : List EventId} :
    Changes (credit 1).id
      (state (some since) (some (credit 1, updating thousand)) tokens events delivered applied)
      (state (some since) none (tokens + 1000) events delivered ((credit 1).id :: applied))
      (.call available) := by
  refine ⟨⟨_, _, rfl, rfl⟩, fun hsame => ?_⟩
  have huser : (if Sample.userPubkey = Sample.userPubkey then some ⟨tokens + 1000, 0⟩ else none) =
      if Sample.userPubkey = Sample.userPubkey then some (⟨tokens, 0⟩ : UserRow) else none :=
    congrFun hsame Sample.userPubkey
  rw [if_pos rfl, if_pos rfl] at huser
  have htokens := congrArg UserRow.tokens (Option.some.inj huser)
  simp at htokens

end Listener.Sample

/-- An event that is delivered twice is applied twice. -/
theorem applied_twice : Known Sample.cfg Listener.Sample.start ∧
    ¬ AppliedOnce Sample.cfg Listener.Sample.start Listener.Sample.twice := by
  refine ⟨Listener.Sample.known_start, fun honce => ?_⟩
  have hfirst : StepAt (listener Sample.cfg) Listener.Sample.start Listener.Sample.twice 3
      (.call Listener.Sample.available) _ _ :=
    ⟨rfl, (Listener.Sample.run_three []).symm, Listener.Sample.step_update (by decide)⟩
  have hsecond : StepAt (listener Sample.cfg) Listener.Sample.start Listener.Sample.twice 6
      (.call Listener.Sample.available) _ _ :=
    ⟨rfl, Listener.Sample.run_six.symm, Listener.Sample.step_update (by decide)⟩
  cases honce hfirst hsecond Listener.Sample.changes_update Listener.Sample.changes_update

theorem applied_once_iff_sample :
    AppliedOnce Sample.cfg Listener.Sample.start Listener.Sample.twice ↔
      ∀ id i j, ¬ Repeats Sample.cfg Listener.Sample.start Listener.Sample.twice id i j :=
  applied_once_iff Listener.Sample.known_start Listener.Sample.twice

end DsProxy.Backend
