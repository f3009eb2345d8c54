import DsProxy.Backend.Login
import DsProxy.Lib.Run

/-!
# Runs of the backend

Requests are threads that take turns call by call. The relay keeps a log of events, to which anyone
may add under a key of their own, and delivers to the listener what its subscription accepts, by
position, in any order and possibly more than once.
-/

namespace DsProxy.Backend

open Relay Runs

/-- One event in `StartNostrListener`. -/
def onEvent (cfg : Config) (event : Event) : Async Unit :=
  match cfg.unmarshal event.content with
  | some ⟨some transaction⟩ => do
    -- a failure is logged, here and below
    let _ ← saveTransactionEvent
      ⟨event.id, transaction.user, transaction.tokens, event.createdAt⟩
    let consumed := if 0 ≤ transaction.tokens then 0 else -transaction.tokens
    let _ ← updateUserTokens transaction.user transaction.tokens consumed
    return ()
  | _ => return ()

/-- The world after the listener has dealt with an event. -/
def heard (cfg : Config) (event : Event) (outcome : Call → Outcome) (w : World) : World :=
  ((onEvent cfg event).exec (fun c => respond cfg (outcome c) c) w).2

/-- The filter of `StartNostrListener`. -/
def subscription (cfg : Config) : Filter where
  kind := eventKind
  authors := none
  since := some cfg.since
  until_ := none
  session := cfg.session
  mentions := [cfg.machinePubkey]

/-- The positions of the log the relay has delivered are its own record; nothing reads them. -/
structure State extends World where
  threads : List (Async Unit)
  delivered : List ℕ

inductive Op
  | request (ctx : GinContext)
  | login (userPubkey message signature : String)
  | createConversation (ctx : GinContext) (id : UUID)
  | call (thread : ℕ) (outcome : Outcome)
  | publish (event : Event)
  | deliver (position : ℕ) (outcome : Call → Outcome)

def Op.isPublish : Op → Bool
  | .publish _ => true
  | _ => false

/-- The next call of a thread. -/
def State.next? (s : State) (thread : ℕ) : Option ((c : Call) × (Call.Answer c → Async Unit)) :=
  match s.threads[thread]? with
  | some (.call c next) => some ⟨c, next⟩
  | _ => none

def State.pending? (s : State) (thread : ℕ) : Option Call := (s.next? thread).map (·.1)

def system (cfg : Config) : System State Op where
  step s op :=
    match op with
    | .request ctx =>
      some { s with threads := s.threads ++ [do let _ ← postMessages cfg ctx] }
    | .login userPubkey message signature =>
      some { s with threads := s.threads ++ [do let _ ← login cfg userPubkey message signature] }
    | .createConversation ctx id => do
      let userPubkey ← (auth cfg ctx >>= extractUserPubkey).toOption
      let db ← (s.db.createConversation id userPubkey).toOption
      return { s with db := db }
    | .call thread outcome => do
      let ⟨c, next⟩ ← s.next? thread
      let (answer, w) := respond cfg outcome c s.toWorld
      return ⟨w, s.threads.set thread (next answer), s.delivered⟩
    | .publish event =>
      if event.pubkey = cfg.pubkey then none else some { s with relay := s.relay ++ [event] }
    | .deliver position outcome =>
      match s.relay[position]? with
      | none => none
      | some event =>
        if (subscription cfg).accepts event = true then
          some ⟨heard cfg event outcome s.toWorld, s.threads, position :: s.delivered⟩
        else none

/-! ### What a call does -/

variable {cfg : Config} {s s' : State} {outcome : Outcome} {w : World} {P : Call → Prop}

theorem write_cases {α : Type} {w' : World} {query : Except DbError (α × Db)}
    {answer : Except DbError α} (h : outcome.write query w = (answer, w')) :
    (∃ e, answer = .error e ∧ w' = w) ∨
      ∃ a db, query = .ok (a, db) ∧ answer = .ok a ∧ w' = { w with db := db } := by
  unfold Outcome.write at h
  split_ifs at h
  · obtain ⟨rfl, rfl⟩ := Prod.mk.inj h
    exact Or.inl ⟨_, rfl, rfl⟩
  · cases query with
    | error e =>
        obtain ⟨rfl, rfl⟩ := Prod.mk.inj h
        exact Or.inl ⟨e, rfl, rfl⟩
    | ok pair =>
        obtain ⟨rfl, rfl⟩ := Prod.mk.inj h
        exact Or.inr ⟨pair.1, pair.2, rfl, rfl, rfl⟩

theorem update_cases {w' : World} {query : Except DbError Db}
    {answer : Except DbError Unit} (h : outcome.write (query.map ((), ·)) w = (answer, w')) :
    (∃ e, answer = .error e ∧ w' = w) ∨
      ∃ db, query = .ok db ∧ answer = .ok () ∧ w' = { w with db := db } := by
  rcases write_cases h with herror | ⟨_, db, hquery, hanswer, hworld⟩
  · exact Or.inl herror
  · cases query with
    | error e => cases hquery
    | ok db' =>
        obtain ⟨-, rfl⟩ := Prod.mk.inj (Except.ok.inj hquery)
        exact Or.inr ⟨_, rfl, hanswer, hworld⟩

variable (outcome w) in
theorem write_world {α : Type} (result : Except DbError (α × Db)) :
    (outcome.write result w).2 = w ∨ ∃ a db, result = .ok (a, db) ∧
      (outcome.write result w).2 = { w with db := db } := by
  rcases write_cases (rfl : outcome.write result w = _) with
    ⟨e, -, h⟩ | ⟨a, db, hok, -, h⟩
  · exact Or.inl h
  · exact Or.inr ⟨a, db, hok, h⟩

variable (outcome w) in
theorem update_world (update : Except DbError Db) :
    (outcome.write (update.map ((), ·)) w).2 = w ∨ ∃ db, update = .ok db ∧
      (outcome.write (update.map ((), ·)) w).2 = { w with db := db } := by
  rcases update_cases (rfl : outcome.write (update.map ((), ·)) w = _) with
    ⟨e, -, h⟩ | ⟨db, hok, -, h⟩
  · exact Or.inl h
  · exact Or.inr ⟨db, hok, h⟩

/-- The event a call leaves on the relay. -/
def published (cfg : Config) (outcome : Outcome) : Call → Option Event
  | .publish transaction => outcome.stamp.map (transactionEvent cfg transaction)
  | _ => none

theorem relay_write {α : Type} (result : Except DbError (α × Db)) :
    (outcome.write result w).2.relay = w.relay := by
  rcases write_world outcome w result with h | ⟨a, db, -, h⟩ <;> rw [h]

variable (cfg outcome w) in
theorem relay_respond (c : Call) :
    (respond cfg outcome c w).2.relay = w.relay ++ (published cfg outcome c).toList := by
  cases c with
  | publish transaction => rfl
  | _ =>
      simp only [respond, published, Outcome.read, relay_write, Option.toList_none, List.append_nil]

theorem users_respond_within {id : UUID} {owners : String → Prop} {c : Call}
    (hc : c.Within id owners) : (respond cfg outcome c w).2.db.users = w.db.users := by
  cases c with
  | createUser publicKey => cases hc
  | saveUser user => cases hc
  | updateUserTokens publicKey delta consumed => cases hc
  | saveTransactionEvent event => cases hc
  | createMessage id role content =>
      rcases write_world outcome w
          (.ok (w.db.createMessage id role content outcome.messageID outcome.now)) with
        h | ⟨a, db, hok, h⟩
      · exact congrArg (·.db.users) h
      · cases hok
        exact congrArg (·.db.users) h
  | updateTotalTokens id total =>
      rcases update_world outcome w
        (w.db.updateTotalTokens id total) with h | ⟨db, hok, h⟩
      · exact congrArg (·.db.users) h
      · apply (congrArg (·.db.users) h).trans
        unfold Db.updateTotalTokens at hok
        split_ifs at hok
        cases hok
        rfl
  | _ => rfl

/-! ### What the listener does -/

/-- The `tokens` column of a user's row. -/
def balance (db : Db) (u : String) : Option ℤ := (db.users u).map UserRow.tokens

/-- What an event's content adds to the tokens of a user. -/
def delta (cfg : Config) (event : Event) (u : String) : ℤ :=
  match cfg.unmarshal event.content with
  | some ⟨some transaction⟩ => if u = transaction.user then transaction.tokens.toInt else 0
  | _ => 0

theorem delta_of_unmarshal {event : Event} {transaction : Transaction}
    (h : cfg.unmarshal event.content = some ⟨some transaction⟩) (u : String) :
    delta cfg event u = if u = transaction.user then transaction.tokens.toInt else 0 := by
  rw [delta, h]

theorem map_updateUserTokens {db db' : Db} {publicKey : String} {tokens consumed : Int64}
    {column : UserRow → ℤ} {added : ℤ}
    (hcolumn : ∀ row : UserRow, column ⟨row.tokens + tokens.toInt,
      row.tokensConsumed + consumed.toInt⟩ = column row + added)
    (h : db.updateUserTokens publicKey tokens consumed = .ok db') (u : String) :
    (db'.users u).map column =
      ((db.users u).map column).map (· + if u = publicKey then added else 0) := by
  rw [updateUserTokens_eq_ok h, Option.map_map, Option.map_map]
  congr 1
  funext row
  dsimp only [Function.comp_apply]
  split_ifs
  · exact hcolumn row
  · exact (Int.add_zero _).symm

theorem balance_updateUserTokens {db db' : Db} {publicKey : String} {tokens consumed : Int64}
    (h : db.updateUserTokens publicKey tokens consumed = .ok db') (u : String) :
    balance db' u = (balance db u).map (· + if u = publicKey then tokens.toInt else 0) :=
  map_updateUserTokens (fun _ => rfl) h u

theorem users_saveTransactionEvent (event : TransactionEvent) :
    (respond cfg outcome (.saveTransactionEvent event) w).2.db.users = w.db.users := by
  rcases update_world outcome w (w.db.saveTransactionEvent event) with
    h | ⟨db, hok, h⟩
  · exact congrArg (·.db.users) h
  · apply (congrArg (·.db.users) h).trans
    unfold Db.saveTransactionEvent at hok
    split_ifs at hok
    cases hok
    rfl

/-- Both failures of the listener are passed over, so an event already stored counts again. -/
theorem heard_transaction {event : Event} {transaction : Transaction} {outcomes : Call → Outcome}
    (h : cfg.unmarshal event.content = some ⟨some transaction⟩) :
    let save := Call.saveTransactionEvent
      ⟨event.id, transaction.user, transaction.tokens, event.createdAt⟩
    let update := Call.updateUserTokens transaction.user transaction.tokens
      (if 0 ≤ transaction.tokens then 0 else -transaction.tokens)
    heard cfg event outcomes w =
      (respond cfg (outcomes update) update (respond cfg (outcomes save) save w).2).2 := by
  unfold heard onEvent
  rw [h]
  rfl

section Heard

variable (cfg : Config) (event : Event) (outcomes : Call → Outcome) (w : World)

theorem heard_relay : (heard cfg event outcomes w).relay = w.relay := by
  cases h : cfg.unmarshal event.content with
  | none => simp [heard, onEvent, h, pure, Program.exec]
  | some message =>
      obtain ⟨_ | transaction⟩ := message
      · simp [heard, onEvent, h, pure, Program.exec]
      · rw [heard_transaction h, relay_respond, relay_respond]
        simp [published]

/-- A delivered event adds its delta to a row or, when the update fails, nothing. -/
theorem heard_balance (u : String) :
    balance (heard cfg event outcomes w).db u = balance w.db u ∨
      balance (heard cfg event outcomes w).db u = (balance w.db u).map (· + delta cfg event u) := by
  cases h : cfg.unmarshal event.content with
  | none => exact Or.inl (by simp [heard, onEvent, h, pure, Program.exec])
  | some message =>
      obtain ⟨_ | transaction⟩ := message
      · exact Or.inl (by simp [heard, onEvent, h, pure, Program.exec])
      · rw [heard_transaction h, delta_of_unmarshal h]
        generalize hmid : (respond cfg _ (.saveTransactionEvent _) w).2 = mid
        have husers : mid.db.users = w.db.users := hmid ▸ users_saveTransactionEvent _
        have hbalance : balance mid.db u = balance w.db u := by rw [balance, balance, husers]
        rw [← hbalance]
        rcases update_world _ mid
            (mid.db.updateUserTokens transaction.user transaction.tokens _) with
          hsame | ⟨db, hok, hdb⟩
        · exact Or.inl (congrArg (balance ·.db u) hsame)
        · right
          rw [← balance_updateUserTokens hok u]
          exact congrArg (balance ·.db u) hdb

variable {cfg event outcomes w} in
/-- An update that can be made is made, whether or not the event could be stored. -/
theorem heard_users {transaction : Transaction} {row : UserRow}
    (hread : cfg.unmarshal event.content = some ⟨some transaction⟩)
    (hup : ∀ c, (outcomes c).unavailable = false)
    (hrow : w.db.users transaction.user = some row)
    (htokens : InBigint (row.tokens + transaction.tokens.toInt))
    (hconsumed : InBigint (row.tokensConsumed +
      (if 0 ≤ transaction.tokens then 0 else -transaction.tokens).toInt)) :
    (heard cfg event outcomes w).db.users transaction.user =
      some ⟨row.tokens + transaction.tokens.toInt, row.tokensConsumed +
        (if 0 ≤ transaction.tokens then 0 else -transaction.tokens).toInt⟩ := by
  rw [heard_transaction hread]
  generalize hmid : (respond cfg _ (.saveTransactionEvent _) w).2 = mid
  have hmidrow : mid.db.users transaction.user = some row := by
    rw [← hmid, users_saveTransactionEvent, hrow]
  obtain ⟨db, hok⟩ : ∃ db, mid.db.updateUserTokens transaction.user transaction.tokens
      (if 0 ≤ transaction.tokens then 0 else -transaction.tokens) = .ok db := by
    simp only [Db.updateUserTokens, hmidrow]
    exact ⟨_, if_pos ⟨htokens, hconsumed⟩⟩
  simp only [respond, hok, Except.map, Outcome.write, hup, Bool.false_eq_true, if_false]
  rw [updateUserTokens_eq_ok hok, hmidrow, Option.map_some, if_pos rfl]

end Heard

/-! ### What a step does -/

theorem call_done {thread : ℕ} (h : (system cfg).step s (.call thread outcome) = some s') :
    ∃ c next, s.next? thread = some ⟨c, next⟩ ∧
      s' = ⟨(respond cfg outcome c s.toWorld).2,
        s.threads.set thread (next (respond cfg outcome c s.toWorld).1), s.delivered⟩ := by
  change (s.next? thread >>= fun call => _) = some s' at h
  obtain ⟨⟨c, next⟩, hnext, h⟩ := Option.bind_eq_some_iff.mp h
  exact ⟨c, next, hnext, (Option.some.inj h).symm⟩

theorem next?_forall {thread : ℕ} {c : Call} {next : Call.Answer c → Async Unit}
    (hthreads : ∀ t ∈ s.threads, t.Forall P) (h : s.next? thread = some ⟨c, next⟩) :
    P c ∧ ∀ answer, (next answer).Forall P := by
  unfold State.next? at h
  split at h
  · rename_i c' next' hthread
    cases h
    exact hthreads _ (List.mem_of_getElem? hthread)
  · cases h

theorem createConversation_done {ctx : GinContext} {id : UUID}
    (h : (system cfg).step s (.createConversation ctx id) = some s') :
    ∃ db, s' = { s with db := db } ∧ db.users = s.db.users := by
  simp only [system, Option.bind_eq_bind, Option.bind_eq_some_iff] at h
  obtain ⟨userPubkey, -, db, hdb, h⟩ := h
  refine ⟨db, (Option.some.inj h).symm, ?_⟩
  unfold Db.createConversation at hdb
  split at hdb
  · cases hdb
  · cases hdb
    rfl

theorem deliver_done {position : ℕ} {outcomes : Call → Outcome}
    (h : (system cfg).step s (.deliver position outcomes) = some s') :
    ∃ event, s.relay[position]? = some event ∧ (subscription cfg).accepts event = true ∧
      s' = ⟨heard cfg event outcomes s.toWorld, s.threads, position :: s.delivered⟩ := by
  simp only [system] at h
  split at h
  · cases h
  · rename_i event hevent
    split_ifs at h with haccepts
    exact ⟨event, hevent, haccepts, (Option.some.inj h).symm⟩

theorem deliver_accepted {position : ℕ} {event : Event} {outcomes : Call → Outcome}
    (hevent : s.relay[position]? = some event)
    (haccepts : (subscription cfg).accepts event = true) :
    (system cfg).step s (.deliver position outcomes) =
      some ⟨heard cfg event outcomes s.toWorld, s.threads, position :: s.delivered⟩ := by
  simp only [system, hevent]
  exact if_pos haccepts

theorem publish_done {event : Event} (h : (system cfg).step s (.publish event) = some s') :
    event.pubkey ≠ cfg.pubkey ∧ s' = { s with relay := s.relay ++ [event] } := by
  simp only [system] at h
  split_ifs at h with hauthor
  exact ⟨hauthor, (Option.some.inj h).symm⟩

/-- What all calls of the requests satisfy, the calls of every thread do. -/
theorem threads_step {op : Op} (hpost : ∀ ctx, (postMessages cfg ctx).Forall P)
    (hlogin : ∀ {userPubkey message signature}, op = .login userPubkey message signature →
      (login cfg userPubkey message signature).Forall P)
    (hthreads : ∀ t ∈ s.threads, t.Forall P) (h : (system cfg).step s op = some s') :
    ∀ t ∈ s'.threads, t.Forall P := by
  intro t ht
  cases op with
  | request ctx =>
      cases h
      rcases List.mem_append.mp ht with ht | ht
      · exact hthreads t ht
      · rw [List.mem_singleton.mp ht]
        exact (hpost ctx).bind fun _ => Program.forall_pure _
  | login userPubkey message signature =>
      cases h
      rcases List.mem_append.mp ht with ht | ht
      · exact hthreads t ht
      · rw [List.mem_singleton.mp ht]
        exact (hlogin rfl).bind fun _ => Program.forall_pure _
  | createConversation ctx id =>
      obtain ⟨db, rfl, -⟩ := createConversation_done h
      exact hthreads t ht
  | call thread outcome =>
      obtain ⟨c, next, hnext, rfl⟩ := call_done h
      rcases List.mem_or_eq_of_mem_set ht with ht | rfl
      · exact hthreads t ht
      · exact (next?_forall hthreads hnext).2 _
  | publish event =>
      obtain ⟨-, rfl⟩ := publish_done h
      exact hthreads t ht
  | deliver position outcomes =>
      obtain ⟨event, -, -, rfl⟩ := deliver_done h
      exact hthreads t ht

end DsProxy.Backend
