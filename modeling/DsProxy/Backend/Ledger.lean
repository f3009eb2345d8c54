import DsProxy.Backend.Listener

/-!
# The table of events and the row of a user

The listener stores every transaction, and adds it to the row of its user when there is one. The row
is made by the user's first login, with zeros, whatever is stored by then. Here logins and events
are dealt with one after the other, and no query fails.
-/

namespace DsProxy.Backend

open Relay Runs System

/-- What is dealt with from beginning to end. -/
inductive Task
  | login (userPubkey message signature : String)
  | deliver (event : Event)

def Task.program (cfg : Config) : Task → Async Unit
  | .login userPubkey message signature => do
    let _ ← Backend.login cfg userPubkey message signature
  | .deliver event => onEvent cfg event

/-- The query did what it was asked to; that there is no such user is an answer too. -/
def succeeded : (c : Call) → Call.Answer c → Bool
  | .getUserByPublicKey _, answer =>
    match (answer : Except DbError User) with
    | .ok _ => true
    | .error e => decide (e = .recordNotFound)
  | .createUser _, answer => Except.isOk (answer : Except DbError User)
  | .saveUser _, answer => Except.isOk (answer : Except DbError Unit)
  | c, answer => written c answer

/-- The answer of a database that is there, if the query succeeds. -/
def carriedOut (cfg : Config) (c : Call) (w : World) : Option (Call.Answer c × World) :=
  let result := respond cfg ⟨false, none, none, 0, 0⟩ c w
  if succeeded c result.1 = true then some result else none

def sequential (cfg : Config) : System World Task where
  step w task := ((task.program cfg).tryExec (carriedOut cfg) w).map (·.2)

/-! ### Queries that succeed -/

def UserRow.columns (row : UserRow) : ℤ × ℤ := (row.tokens, row.tokensConsumed)

def Db.setUser (db : Db) (u : String) (row : UserRow) : Db :=
  { db with users := Function.update db.users u (some row) }

def Db.store (db : Db) (event : TransactionEvent) : Db :=
  { db with transactionEvents := db.transactionEvents ++ [event] }

/-- Every row is one that the table can hold. -/
def Db.InRange (db : Db) : Prop :=
  ∀ u row, db.users u = some row → InBigint row.tokens ∧ InBigint row.tokensConsumed

/-- What `Save` writes back of a user. -/
def User.row (user : User) : UserRow := ⟨user.tokens.toNat, user.tokensConsumed.toNat⟩

section Queries

variable {cfg : Config} {w w' : World} {u v : String} {row : UserRow}

@[simp] theorem setUser_users_self (db : Db) : (db.setUser u row).users u = some row :=
  Function.update_self ..

theorem setUser_users_of_ne (db : Db) (h : v ≠ u) : (db.setUser u row).users v = db.users v :=
  Function.update_of_ne h ..

theorem setUser_of_eq {db : Db} (h : db.users u = some row) : db.setUser u row = db := by
  rw [Db.setUser, ← h, Function.update_eq_self]

theorem Db.InRange.setUser {db : Db} (h : db.InRange) (htokens : InBigint row.tokens)
    (hconsumed : InBigint row.tokensConsumed) : (db.setUser u row).InRange := by
  intro v row' hrow'
  by_cases hv : v = u
  · rw [hv, setUser_users_self] at hrow'
    rw [← Option.some.inj hrow']
    exact ⟨htokens, hconsumed⟩
  · rw [setUser_users_of_ne db hv] at hrow'
    exact h v row' hrow'

theorem Db.InRange.store {db : Db} (h : db.InRange) (event : TransactionEvent) :
    (db.store event).InRange :=
  h

theorem scanUint64_eq_ok {n : ℤ} {value : UInt64} (h : scanUint64 n = .ok value)
    (hn : InBigint n) : (value.toNat : ℤ) = n := by
  unfold scanUint64 at h
  split_ifs at h with hnonneg
  have hlt : n.toNat < 2 ^ 64 := by
    have hmax := hn.2
    omega
  rw [← Except.ok.inj h, UInt64.toNat_ofNat_of_lt' hlt, Int.toNat_of_nonneg hnonneg]

theorem row_of_getUserByPublicKey {db : Db} {user : User} (hrange : db.InRange)
    (h : db.getUserByPublicKey u = .ok user) : db.users u = some user.row := by
  unfold Db.getUserByPublicKey at h
  split at h
  · cases h
  · rename_i row hrow
    obtain ⟨htokens, hconsumed⟩ := hrange u row hrow
    cases hreadTokens : scanUint64 row.tokens with
    | error e =>
        rw [hreadTokens] at h
        cases h
    | ok tokens =>
        cases hreadConsumed : scanUint64 row.tokensConsumed with
        | error e =>
            rw [hreadTokens, hreadConsumed] at h
            cases h
        | ok consumed =>
            rw [hreadTokens, hreadConsumed] at h
            cases h
            rw [hrow, User.row, scanUint64_eq_ok hreadTokens htokens,
              scanUint64_eq_ok hreadConsumed hconsumed]

theorem getUserByPublicKey_eq_notFound {db : Db}
    (h : db.getUserByPublicKey u = .error .recordNotFound) : db.users u = none := by
  unfold Db.getUserByPublicKey at h
  split at h
  · assumption
  · unfold scanUint64 at h
    split_ifs at h <;> cases h

theorem saveUser_eq_ok {db db' : Db} {user : User} (h : db.saveUser user = .ok db') :
    db' = db.setUser user.publicKey user.row ∧ InBigint user.row.tokens ∧
      InBigint user.row.tokensConsumed := by
  unfold Db.saveUser at h
  split_ifs at h with hrange
  exact ⟨(Except.ok.inj h).symm, hrange⟩

theorem createUser_eq_ok {db db' : Db} {user : User} (h : db.createUser u = .ok (user, db')) :
    user = ⟨u, 0, 0⟩ ∧ db.users u = none ∧ db' = db.setUser u ⟨0, 0⟩ := by
  unfold Db.createUser at h
  split at h
  · cases h
  · rename_i hnone
    cases h
    exact ⟨rfl, hnone, rfl⟩

/-! What a query leaves behind, by its answer. -/

variable {outcome : Outcome}

theorem respond_getUserByPublicKey {answer : Except DbError User} (hrange : w.db.InRange)
    (h : respond cfg outcome (.getUserByPublicKey u) w = (answer, w')) : w' = w ∧
      (∀ user, answer = .ok user → user.publicKey = u ∧ w.db.users u = some user.row) ∧
      (answer = .error .recordNotFound → w.db.users u = none) := by
  change outcome.read (w.db.getUserByPublicKey u) w = (answer, w') at h
  obtain ⟨hanswer, rfl⟩ := Prod.mk.inj h
  refine ⟨rfl, ?_, ?_⟩
  · rintro user rfl
    split_ifs at hanswer
    exact ⟨(getUserByPublicKey_eq_ok hanswer).1, row_of_getUserByPublicKey hrange hanswer⟩
  · rintro rfl
    split_ifs at hanswer
    · cases hanswer
    · exact getUserByPublicKey_eq_notFound hanswer

theorem respond_createUser {answer : Except DbError User}
    (h : respond cfg outcome (.createUser u) w = (answer, w')) :
    (∃ e, answer = .error e ∧ w' = w) ∨ answer = .ok ⟨u, 0, 0⟩ ∧ w.db.users u = none ∧
      w' = { w with db := w.db.setUser u ⟨0, 0⟩ } := by
  change outcome.write (w.db.createUser u) w = (answer, w') at h
  rcases write_cases h with herror | ⟨user, db, hquery, hanswer, rfl⟩
  · exact Or.inl herror
  · obtain ⟨rfl, hnone, rfl⟩ := createUser_eq_ok hquery
    exact Or.inr ⟨hanswer, hnone, rfl⟩

theorem respond_saveUser {user : User} {answer : Except DbError Unit}
    (h : respond cfg outcome (.saveUser user) w = (answer, w')) :
    (∃ e, answer = .error e ∧ w' = w) ∨ answer = .ok () ∧ InBigint user.row.tokens ∧
      InBigint user.row.tokensConsumed ∧
      w' = { w with db := w.db.setUser user.publicKey user.row } := by
  change outcome.write ((w.db.saveUser user).map ((), ·)) w = (answer, w') at h
  rcases update_cases h with herror | ⟨db, hquery, hanswer, rfl⟩
  · exact Or.inl herror
  · obtain ⟨rfl, htokens, hconsumed⟩ := saveUser_eq_ok hquery
    exact Or.inr ⟨hanswer, htokens, hconsumed, rfl⟩

theorem respond_updateUserTokens {tokens consumed : Int64} {answer : Except DbError Unit}
    (h : respond cfg outcome (.updateUserTokens u tokens consumed) w = (answer, w')) :
    (∃ e, answer = .error e ∧ w' = w) ∨ ∃ db, w.db.updateUserTokens u tokens consumed = .ok db ∧
      answer = .ok () ∧ w' = { w with db := db } := by
  change outcome.write ((w.db.updateUserTokens u tokens consumed).map ((), ·)) w = _ at h
  exact update_cases h

theorem respond_saveTransactionEvent {event : TransactionEvent} {answer : Except DbError Unit}
    (h : respond cfg outcome (.saveTransactionEvent event) w = (answer, w')) :
    (∃ e, answer = .error e ∧ w' = w) ∨
      answer = .ok () ∧ w' = { w with db := w.db.store event } := by
  change outcome.write ((w.db.saveTransactionEvent event).map ((), ·)) w = _ at h
  rcases update_cases h with herror | ⟨db, hquery, hanswer, rfl⟩
  · exact Or.inl herror
  · unfold Db.saveTransactionEvent at hquery
    split_ifs at hquery
    obtain rfl := Except.ok.inj hquery
    exact Or.inr ⟨hanswer, rfl⟩

end Queries

/-! ### A login -/

section Login

variable {cfg : Config} {w w' : World} {u message signature : String}

/-- A login, once the user is read or created. -/
def finishLogin (cfg : Config) (userPubkey : String) (user : User) :
    Async (Except Failure (User × String)) :=
  match cfg.signJWT userPubkey with
  | none => return .error (.text "failed to sign the token")
  | some token => .call (.saveUser user) fun (saved : Except DbError Unit) =>
    match saved with
    | .error e => return .error (.db e)
    | .ok _ => return .ok (user, token)

theorem loginVerified_eq (cfg : Config) (u : String) : loginVerified cfg u =
    .call (.getUserByPublicKey u) fun (found : Except DbError User) =>
      match found with
      | .ok user => finishLogin cfg u user
      | .error .recordNotFound =>
        .call (.createUser u) fun (created : Except DbError User) =>
          match created with
          | .ok user => finishLogin cfg u user
          | .error e => return .error (.db e)
      | .error e => return .error (.db e) := by
  have hfinish : ∀ user : User, (match cfg.signJWT u with
      | none => return .error (.text "failed to sign the token")
      | some token => attempt (saveUser user) fun _ => return .ok (user, token) :
        Async (Except Failure (User × String))) = finishLogin cfg u user := by
    intro user
    unfold finishLogin
    cases cfg.signJWT u with
    | none => rfl
    | some token =>
        refine congrArg (Program.call (Call.saveUser user)) (funext fun saved => ?_)
        change Except DbError Unit at saved
        cases saved <;> rfl
  refine congrArg _ (funext fun found => ?_)
  change Except DbError User at found
  cases found with
  | ok user => exact hfinish user
  | error e =>
      cases e with
      | recordNotFound =>
          refine congrArg _ (funext fun created => ?_)
          change Except DbError User at created
          cases created with
          | ok user => exact hfinish user
          | error e => rfl
      | _ => rfl

theorem carriedOut_eq_some {c : Call} {answer : Call.Answer c} :
    carriedOut cfg c w = some (answer, w') ↔
      respond cfg ⟨false, none, none, 0, 0⟩ c w = (answer, w') ∧ succeeded c answer = true := by
  constructor
  · intro h
    change (if _ then some (respond cfg _ c w) else none) = _ at h
    split_ifs at h with hsucceeded
    have hrespond := Option.some.inj h
    rw [hrespond] at hsucceeded
    exact ⟨hrespond, hsucceeded⟩
  · rintro ⟨hrespond, hsucceeded⟩
    show (if _ then some (respond cfg _ c w) else none) = _
    rw [hrespond]
    exact if_pos hsucceeded

theorem finishLogin_done {user : User} {result : Except Failure (User × String) × World}
    (hrow : w.db.users user.publicKey = some user.row)
    (h : (finishLogin cfg u user).tryExec (carriedOut cfg) w = some result) : result.2 = w := by
  unfold finishLogin at h
  cases hsign : cfg.signJWT u with
  | none =>
      rw [hsign] at h
      cases h
      rfl
  | some token =>
      rw [hsign] at h
      obtain ⟨saved, w', hsaved, h⟩ := (Program.tryExec_call_eq_some ..).mp h
      change Except DbError Unit at saved
      have hresult : result.2 = w' := by
        cases saved <;> (cases h; rfl)
      rw [hresult]
      rcases respond_saveUser (carriedOut_eq_some.mp hsaved).1 with
        ⟨e, -, hsame⟩ | ⟨-, -, -, rfl⟩
      · exact hsame
      · rw [setUser_of_eq hrow]

/-- A login leaves the row as it is, or makes it. -/
theorem loginVerified_done {result : Except Failure (User × String) × World}
    (hrange : w.db.InRange) (h : (loginVerified cfg u).tryExec (carriedOut cfg) w = some result) :
    result.2 = if w.db.users u = none then { w with db := w.db.setUser u ⟨0, 0⟩ } else w := by
  rw [loginVerified_eq] at h
  obtain ⟨found, w', hfound, h⟩ := (Program.tryExec_call_eq_some ..).mp h
  obtain ⟨hrespond, hsucceeded⟩ := carriedOut_eq_some.mp hfound
  change Except DbError User at found
  obtain ⟨rfl, hok, hnone⟩ := respond_getUserByPublicKey hrange hrespond
  cases found with
  | ok user =>
      obtain ⟨rfl, hrow⟩ := hok user rfl
      rw [if_neg (by simp [hrow])]
      exact finishLogin_done hrow h
  | error e =>
      obtain rfl : e = .recordNotFound := of_decide_eq_true hsucceeded
      rw [if_pos (hnone rfl)]
      obtain ⟨created, w', hcreated, h⟩ := (Program.tryExec_call_eq_some ..).mp h
      obtain ⟨hrespond, hsucceeded⟩ := carriedOut_eq_some.mp hcreated
      rcases respond_createUser hrespond with ⟨e, rfl, -⟩ | ⟨rfl, -, rfl⟩
      · cases hsucceeded
      · exact finishLogin_done (setUser_users_self _) h

theorem login_unknown {token : String} (hsign : cfg.signJWT u = some token)
    (hverified : verifySignature cfg.crypto u message signature = some true)
    (hnone : w.db.users u = none) :
    (sequential cfg).step w (.login u message signature) =
      some { w with db := w.db.setUser u ⟨0, 0⟩ } := by
  have hfound : carriedOut cfg (.getUserByPublicKey u) w = some (.error .recordNotFound, w) := by
    refine carriedOut_eq_some.mpr ⟨?_, rfl⟩
    simp only [respond, Db.getUserByPublicKey, hnone]
    rfl
  have hcreated : carriedOut cfg (.createUser u) w =
      some (.ok ⟨u, 0, 0⟩, { w with db := w.db.setUser u ⟨0, 0⟩ }) := by
    refine carriedOut_eq_some.mpr ⟨?_, rfl⟩
    simp only [respond, Db.createUser, hnone]
    rfl
  have hsave : (w.db.setUser u ⟨0, 0⟩).saveUser ⟨u, 0, 0⟩ = .ok (w.db.setUser u ⟨0, 0⟩) := by
    conv_rhs => rw [← setUser_of_eq (setUser_users_self w.db)]
    exact if_pos (And.intro (by decide) (by decide) : InBigint 0 ∧ InBigint 0)
  have hsaved : carriedOut cfg (.saveUser ⟨u, 0, 0⟩) { w with db := w.db.setUser u ⟨0, 0⟩ } =
      some (.ok (), { w with db := w.db.setUser u ⟨0, 0⟩ }) := by
    refine carriedOut_eq_some.mpr ⟨?_, rfl⟩
    simp only [respond, hsave]
    rfl
  have hrun : (loginVerified cfg u).tryExec (carriedOut cfg) w =
      some (.ok (⟨u, 0, 0⟩, token), { w with db := w.db.setUser u ⟨0, 0⟩ }) := by
    rw [loginVerified_eq]
    refine (Program.tryExec_call_eq_some ..).mpr ⟨_, _, hfound, ?_⟩
    refine (Program.tryExec_call_eq_some ..).mpr ⟨_, _, hcreated, ?_⟩
    show (finishLogin cfg u ⟨u, 0, 0⟩).tryExec _ _ = _
    rw [finishLogin, hsign]
    exact (Program.tryExec_call_eq_some ..).mpr ⟨_, _, hsaved, rfl⟩
  have hlogin : login cfg u message signature = loginVerified cfg u := if_pos hverified
  show ((login cfg u message signature >>= fun _ => pure ()).tryExec _ w).map _ = _
  rw [hlogin, Program.tryExec_bind, hrun]
  rfl

end Login

/-! ### An event -/

/-- What a stored event stands for: its tokens, and what it takes. -/
def entry (event : TransactionEvent) : ℤ × ℤ :=
  (event.tokens.toInt, if event.tokens < 0 then event.tokens.toInt.natAbs else 0)

/-- What the stored events of a user say: the sum of their tokens, and the sum of the absolute
values of the negative ones. -/
def ledger (events : List TransactionEvent) (u : String) : ℤ × ℤ :=
  let own := events.filter (·.user = u)
  ((own.map (·.tokens.toInt)).sum,
    ((own.filter (·.tokens < 0)).map (·.tokens.toInt.natAbs)).sum)

theorem ledger_concat (events : List TransactionEvent) (event : TransactionEvent) (u : String) :
    ledger (events ++ [event]) u = ledger events u + if event.user = u then entry event else 0 := by
  unfold ledger entry
  by_cases huser : event.user = u
  · by_cases hnegative : event.tokens < 0
    · simp [huser, hnegative]
    · simp [huser, hnegative]
  · simp [huser]

/-- The negation of the least number is the number itself. -/
theorem consumed_eq_entry_iff (event : Event) (transaction : Transaction) :
    (consumed transaction).toInt = (entry (row event transaction)).2 ↔
      transaction.tokens ≠ Int64.minValue := by
  unfold entry consumed row
  dsimp only
  by_cases hnegative : transaction.tokens < 0
  · rw [if_neg (Int64.not_le.mpr hnegative), if_pos hnegative]
    have hbelow : transaction.tokens.toInt < 0 := by
      simpa using Int64.lt_iff_toInt_lt.mp hnegative
    by_cases hmin : transaction.tokens = Int64.minValue
    · rw [hmin]
      exact iff_of_false (by decide) (fun h => h rfl)
    · have habove : Int64.minValue.toInt < transaction.tokens.toInt :=
        lt_of_le_of_ne transaction.tokens.minValue_le_toInt
          fun h => hmin (Int64.toInt_inj.mp h.symm)
      rw [Int64.toInt_minValue] at habove
      refine iff_of_true ?_ hmin
      rw [Int64.toInt_neg, Int.bmod_eq_of_le_mul_two (by omega) (by omega)]
      omega
  · have hmin : transaction.tokens ≠ Int64.minValue := by
      intro h
      rw [h] at hnegative
      exact hnegative (by decide)
    rw [if_pos (Int64.not_lt.mp hnegative), if_neg hnegative]
    exact iff_of_true rfl hmin

section Event

variable {cfg : Config} {w w' : World} {event : Event} {transaction : Transaction} {u : String}

theorem updateUserTokens_events {db db' : Db} {tokens consumed : Int64}
    (h : db.updateUserTokens u tokens consumed = .ok db') :
    db'.transactionEvents = db.transactionEvents := by
  unfold Db.updateUserTokens at h
  split at h
  · cases h
    rfl
  · dsimp only at h
    split_ifs at h
    cases h
    rfl

theorem updateUserTokens_inRange {db db' : Db} {tokens consumed : Int64} (hrange : db.InRange)
    (h : db.updateUserTokens u tokens consumed = .ok db') : db'.InRange := by
  unfold Db.updateUserTokens at h
  split at h
  · cases h
    exact hrange
  · dsimp only at h
    split_ifs at h with hnew
    cases h
    exact hrange.setUser hnew.1 hnew.2

theorem deliver_cases (h : (sequential cfg).step w (.deliver event) = some w') :
    ((∀ transaction, ¬ IsTransaction cfg event transaction) ∧ w' = w) ∨
      ∃ transaction db, IsTransaction cfg event transaction ∧
        (w.db.store (row event transaction)).updateUserTokens transaction.user transaction.tokens
          (consumed transaction) = .ok db ∧ w' = { w with db := db } := by
  obtain ⟨result, hrun, rfl⟩ := Option.map_eq_some_iff.mp h
  change (onEvent cfg event).tryExec (carriedOut cfg) w = _ at hrun
  by_cases htransaction : ∃ transaction, IsTransaction cfg event transaction
  · obtain ⟨transaction, htransaction⟩ := htransaction
    rw [onEvent_transaction htransaction] at hrun
    obtain ⟨stored, w₁, hstored, hrun⟩ := (Program.tryExec_call_eq_some ..).mp hrun
    obtain ⟨updated, w₂, hupdated, hrun⟩ := (Program.tryExec_call_eq_some ..).mp hrun
    cases hrun
    obtain ⟨hstore, hsucceeded⟩ := carriedOut_eq_some.mp hstored
    obtain ⟨hupdate, hsucceeded'⟩ := carriedOut_eq_some.mp hupdated
    rcases respond_saveTransactionEvent hstore with ⟨e, rfl, -⟩ | ⟨-, rfl⟩
    · cases hsucceeded
    · rcases respond_updateUserTokens hupdate with ⟨e, rfl, -⟩ | ⟨db, hdb, -, rfl⟩
      · cases hsucceeded'
      · exact Or.inr ⟨transaction, db, htransaction, hdb, rfl⟩
  · have hnone : ∀ transaction, ¬ IsTransaction cfg event transaction := fun t ht =>
      htransaction ⟨t, ht⟩
    rw [onEvent_other hnone] at hrun
    cases hrun
    exact Or.inl ⟨hnone, rfl⟩

theorem deliver_unknown (h : IsTransaction cfg event transaction)
    (hnew : w.db.transactionEvents.any (·.id = (row event transaction).id) = false)
    (hnone : w.db.users transaction.user = none) : (sequential cfg).step w (.deliver event) =
      some { w with db := w.db.store (row event transaction) } := by
  have hsave : w.db.saveTransactionEvent (row event transaction) =
      .ok (w.db.store (row event transaction)) := if_neg (Bool.eq_false_iff.mp hnew)
  have hstored : carriedOut cfg (save event transaction) w =
      some (.ok (), { w with db := w.db.store (row event transaction) }) := by
    refine carriedOut_eq_some.mpr ⟨?_, rfl⟩
    simp only [save, respond, hsave]
    rfl
  have hupdate : (w.db.store (row event transaction)).updateUserTokens transaction.user
      transaction.tokens (consumed transaction) = .ok (w.db.store (row event transaction)) := by
    have hnone' : (w.db.store (row event transaction)).users transaction.user = none := hnone
    simp only [Db.updateUserTokens, hnone']
  have hupdated : carriedOut cfg (update transaction)
      { w with db := w.db.store (row event transaction) } =
      some (.ok (), { w with db := w.db.store (row event transaction) }) := by
    refine carriedOut_eq_some.mpr ⟨?_, rfl⟩
    simp only [update, respond, hupdate]
    rfl
  have hrun : (onEvent cfg event).tryExec (carriedOut cfg) w =
      some ((), { w with db := w.db.store (row event transaction) }) := by
    rw [onEvent_transaction h]
    refine (Program.tryExec_call_eq_some ..).mpr ⟨_, _, hstored, ?_⟩
    exact (Program.tryExec_call_eq_some ..).mpr ⟨_, _, hupdated, rfl⟩
  show ((onEvent cfg event).tryExec (carriedOut cfg) w).map _ = _
  rw [hrun]
  rfl

end Event

/-! ### Agreement -/

/-- Every row holds what the stored events of its user say. -/
def Agree (db : Db) : Prop :=
  ∀ u row, db.users u = some row → row.columns = ledger db.transactionEvents u

/-- A row is made only while the events of its user come to nothing, and an event that takes the
most that can be taken is not added to a row. -/
def InTime (cfg : Config) (w : World) : Task → Prop
  | .login userPubkey message signature =>
    verifySignature cfg.crypto userPubkey message signature = some true →
      w.db.users userPubkey = none → ledger w.db.transactionEvents userPubkey = 0
  | .deliver event => ∀ transaction, IsTransaction cfg event transaction →
    w.db.users transaction.user ≠ none → transaction.tokens ≠ Int64.minValue

section Agreement

variable {cfg : Config} {w w' : World} {task : Task}

theorem login_cases {userPubkey message signature : String} (hrange : w.db.InRange)
    (h : (sequential cfg).step w (.login userPubkey message signature) = some w') :
    w' = if verifySignature cfg.crypto userPubkey message signature = some true ∧
      w.db.users userPubkey = none then { w with db := w.db.setUser userPubkey ⟨0, 0⟩ } else w := by
  obtain ⟨result, hrun, rfl⟩ := Option.map_eq_some_iff.mp h
  change (login cfg userPubkey message signature >>= fun _ => pure ()).tryExec _ w = _ at hrun
  rw [Program.tryExec_bind] at hrun
  obtain ⟨inner, hlogin, hrun⟩ := Option.bind_eq_some_iff.mp hrun
  cases hrun
  unfold login at hlogin
  by_cases hverified : verifySignature cfg.crypto userPubkey message signature = some true
  · rw [if_pos hverified] at hlogin
    simp only [hverified, true_and]
    exact loginVerified_done hrange hlogin
  · rw [if_neg hverified] at hlogin
    cases hlogin
    rw [if_neg fun h => hverified h.1]

theorem inRange_step (hrange : w.db.InRange) (h : (sequential cfg).step w task = some w') :
    w'.db.InRange := by
  cases task with
  | login userPubkey message signature =>
      rw [login_cases hrange h]
      split_ifs
      · exact hrange.setUser (by decide) (by decide)
      · exact hrange
  | deliver event =>
      rcases deliver_cases h with ⟨-, rfl⟩ | ⟨transaction, db, -, hdb, rfl⟩
      · exact hrange
      · exact updateUserTokens_inRange (hrange.store _) hdb

/-- An update of a row agrees with the table unless the negation of its tokens wraps. -/
theorem agree_update_iff {event : Event} {transaction : Transaction} {db : Db}
    (hagree : Agree w.db) (h : (w.db.store (row event transaction)).updateUserTokens
      transaction.user transaction.tokens (consumed transaction) = .ok db) :
    Agree db ↔ (w.db.users transaction.user ≠ none → transaction.tokens ≠ Int64.minValue) := by
  have hevents : db.transactionEvents = w.db.transactionEvents ++ [row event transaction] :=
    updateUserTokens_events h
  have husers : ∀ u, db.users u = ((w.db.store (row event transaction)).users u).map _ :=
    updateUserTokens_eq_ok h
  have hstored : (w.db.store (row event transaction)).users = w.db.users := rfl
  rw [hstored] at husers
  have huser : (row event transaction).user = transaction.user := rfl
  rw [← consumed_eq_entry_iff event]
  constructor
  · intro hkept hrow
    obtain ⟨before, hbefore⟩ := Option.ne_none_iff_exists'.mp hrow
    have hafter := husers transaction.user
    rw [hbefore, Option.map_some, if_pos rfl] at hafter
    have hsum := congrArg Prod.snd (hkept _ _ hafter)
    rw [hevents, ledger_concat, huser, if_pos rfl, ← hagree _ _ hbefore] at hsum
    exact add_left_cancel hsum
  · intro hconsumed u after hafter
    obtain ⟨before, hbefore, rfl⟩ := Option.map_eq_some_iff.mp ((husers u).symm.trans hafter)
    rw [hevents, ledger_concat, huser, ← hagree _ _ hbefore]
    by_cases hu : u = transaction.user
    · have hconsumed := hconsumed (by rw [← hu, hbefore]; exact Option.some_ne_none _)
      rw [if_pos hu, if_pos hu.symm]
      exact Prod.ext rfl (congrArg (before.tokensConsumed + ·) hconsumed)
    · rw [if_neg hu, if_neg fun h => hu h.symm, add_zero]

/-- A step keeps the agreement exactly when it is in time. -/
theorem agree_step_iff (hrange : w.db.InRange) (hagree : Agree w.db)
    (h : (sequential cfg).step w task = some w') : Agree w'.db ↔ InTime cfg w task := by
  cases task with
  | login userPubkey message signature =>
      have hdone := login_cases hrange h
      by_cases hmade : verifySignature cfg.crypto userPubkey message signature = some true ∧
          w.db.users userPubkey = none
      · rw [if_pos hmade] at hdone
        subst hdone
        constructor
        · intro hkept _ _
          exact (hkept _ _ (setUser_users_self _)).symm
        · intro htime u row hrow
          by_cases hu : u = userPubkey
          · subst hu
            rw [setUser_users_self] at hrow
            rw [← Option.some.inj hrow]
            exact (htime hmade.1 hmade.2).symm
          · rw [setUser_users_of_ne _ hu] at hrow
            exact hagree u row hrow
      · rw [if_neg hmade] at hdone
        subst hdone
        exact iff_of_true hagree fun hverified hnone => absurd ⟨hverified, hnone⟩ hmade
  | deliver event =>
      rcases deliver_cases h with ⟨hother, rfl⟩ | ⟨transaction, db, htransaction, hdb, rfl⟩
      · exact iff_of_true hagree fun transaction htransaction =>
          absurd htransaction (hother transaction)
      · rw [agree_update_iff hagree hdb]
        constructor
        · intro hleast transaction' htransaction'
          cases htransaction.symm.trans htransaction'
          exact hleast
        · intro htime
          exact htime transaction htransaction

/-- From tables that agree, they agree at every moment exactly when every step is in time. -/
theorem ledger_agrees_iff (hrange : w.db.InRange) (hagree : Agree w.db) (tasks : List Task) :
    (∀ n, Agree ((sequential cfg).run w (tasks.take n)).db) ↔
      (sequential cfg).Throughout (InTime cfg) w tasks :=
  always_iff_throughout (I := fun w => w.db.InRange) (Q := fun w => Agree w.db) agree_step_iff
    (fun hrange _ h _ => inRange_step hrange h) hrange hagree tasks

end Agreement

/-! ### A credit before the first login -/

namespace Ledger.Sample

/-- The text of the key of the sample user. -/
def user : String := BalancePayment.Sdk.keyText BalancePayment.Sample.user

open BalancePayment.Sample in
def digest : String := digestText Sample.cfg.crypto first.payload 0 first.deadline

def signature : String := signatureText BalancePayment.Sample.first.signature

theorem verified : verifySignature Sample.cfg.crypto user digest signature = some true :=
  Sample.verifySignature_first

def thousand : Transaction := ⟨user, 1000⟩

def credit : Event :=
  transactionEvent Sample.cfg thousand ⟨Bytes.toLE 32 1, 1735000000⟩

theorem isTransaction_credit : IsTransaction Sample.cfg credit thousand :=
  Sample.unmarshal_marshal thousand

def start : World := ⟨Sample.empty, []⟩

/-- The credit arrives, and then the user logs in for the first time. -/
def tasks : List Task := [.deliver credit, .login user digest signature]

def credited : World := { start with db := Sample.empty.store (row credit thousand) }

theorem step_deliver : (sequential Sample.cfg).step start (.deliver credit) = some credited :=
  deliver_unknown isTransaction_credit rfl rfl

theorem step_login : (sequential Sample.cfg).step credited (.login user digest signature) =
    some { credited with db := credited.db.setUser user ⟨0, 0⟩ } :=
  login_unknown rfl verified rfl

theorem inRange_start : start.db.InRange := by
  intro u row hrow
  cases hrow

theorem agree_start : Agree start.db := by
  intro u row hrow
  cases hrow

end Ledger.Sample

/-- A credit that arrives before the first login is in the table only. -/
theorem credit_before_login : Ledger.Sample.start.db.InRange ∧ Agree Ledger.Sample.start.db ∧
    ¬ ∀ n, Agree
      ((sequential Sample.cfg).run Ledger.Sample.start (Ledger.Sample.tasks.take n)).db := by
  refine ⟨Ledger.Sample.inRange_start, Ledger.Sample.agree_start, fun hall => ?_⟩
  have hagree : Agree ((sequential Sample.cfg).run Ledger.Sample.start Ledger.Sample.tasks).db :=
    hall 2
  rw [Ledger.Sample.tasks, run_cons_of_step Ledger.Sample.step_deliver,
    run_cons_of_step Ledger.Sample.step_login, run_nil] at hagree
  have hcolumns := hagree _ _ (setUser_users_self _)
  have hledger := ledger_concat [] (row Ledger.Sample.credit Ledger.Sample.thousand)
    Ledger.Sample.user
  have huser : (row Ledger.Sample.credit Ledger.Sample.thousand).user = Ledger.Sample.user := rfl
  rw [if_pos huser] at hledger
  have htokens : (0 : ℤ) = 0 + 1000 := congrArg Prod.fst (hcolumns.trans hledger)
  omega

namespace Ledger.Sample

/-- The user logs in before the credit arrives. -/
def loggedIn : List Task := [.login user digest signature, .deliver credit]

theorem inTime_loggedIn :
    (sequential Sample.cfg).Throughout (InTime Sample.cfg) start loggedIn := by
  refine ⟨fun _ _ _ => rfl, fun _ transaction htransaction _ => ?_, trivial⟩
  cases isTransaction_credit.symm.trans htransaction
  decide

end Ledger.Sample

theorem ledger_agrees_iff_sample :
    (sequential Sample.cfg).Throughout (InTime Sample.cfg) Ledger.Sample.start
      Ledger.Sample.loggedIn ∧
    ∀ n, Agree
      ((sequential Sample.cfg).run Ledger.Sample.start (Ledger.Sample.loggedIn.take n)).db :=
  ⟨Ledger.Sample.inTime_loggedIn,
    (ledger_agrees_iff Ledger.Sample.inRange_start Ledger.Sample.agree_start _).mpr
      Ledger.Sample.inTime_loggedIn⟩

end DsProxy.Backend
