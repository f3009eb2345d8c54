import DsProxy.Backend.Ledger
import DsProxy.Lib.StaleWrite
import Mathlib.Algebra.Group.Prod

/-!
# Logins and events at the same time

`Login` reads or creates the row and writes back what it read, and the listener adds to the row in
between. Here logins and events are threads that take turns query by query. A thread keeps the user
its last query returned, with what had been added to the row by then, and the state keeps what has
been added to every row so far; no query looks at either.
-/

namespace DsProxy.Backend

open Relay Runs System

structure Thread where
  work : Async Unit
  copy : Option (User × (ℤ × ℤ))

structure Concurrent extends World where
  threads : List Thread
  added : String → ℤ × ℤ

inductive Concurrent.Op
  | start (task : Task)
  | call (thread : ℕ) (outcome : Outcome)

/-- The user a query returned. -/
def returned : (c : Call) → Call.Answer c → Option User
  | .getUserByPublicKey _, answer => Except.toOption (answer : Except DbError User)
  | .createUser _, answer => Except.toOption (answer : Except DbError User)
  | _, _ => none

/-- What a query that reports no error has added for a user, whether or not there is a row. -/
def deltas (u : String) (c : Call) (answer : Call.Answer c) : ℤ × ℤ :=
  if written c answer = true then
    match c with
    | .updateUserTokens publicKey tokensDelta consumedDelta =>
      if u = publicKey then (tokensDelta.toInt, consumedDelta.toInt) else 0
    | _ => 0
  else 0

/-- A query of a thread, and what the thread goes on with. -/
def Concurrent.query (cfg : Config) (s : Concurrent) (thread : ℕ) (outcome : Outcome) (c : Call)
    (next : Call.Answer c → Async Unit) : Concurrent :=
  let (answer, w) := respond cfg outcome c s.toWorld
  let added u := s.added u + deltas u c answer
  let copy := (returned c answer).map fun user => (user, added user.publicKey)
  ⟨w, s.threads.set thread ⟨next answer, copy⟩, added⟩

def interleaved (cfg : Config) : System Concurrent Concurrent.Op where
  step s op :=
    match op with
    | .start task => some { s with threads := s.threads ++ [⟨task.program cfg, none⟩] }
    | .call thread outcome =>
      match s.threads[thread]? with
      | some ⟨.call c next, _⟩ => some (s.query cfg thread outcome c next)
      | _ => none

/-! ### What a query does to a row -/

def UserRow.add (row : UserRow) (d : ℤ × ℤ) : UserRow :=
  ⟨row.tokens + d.1, row.tokensConsumed + d.2⟩

section Query

variable {cfg : Config} {outcome : Outcome} {w w' : World} {u : String}

theorem inRange_of_users {db db' : Db} (h : db'.users = db.users) (hrange : db.InRange) :
    db'.InRange := by
  intro v row hrow
  exact hrange v row (h ▸ hrow)

/-- Whether a query writes the row of a user as a whole. -/
def Call.writes (u : String) : Call → Bool
  | .createUser publicKey => publicKey = u
  | .saveUser user => user.publicKey = u
  | _ => false

/-- What a query leaves of the row of a user: the creation and the save write it, and any other adds
its deltas. -/
inductive Leaves (u : String) (w w' : World) : (c : Call) → Call.Answer c → Prop
  | created {answer : Except DbError User} (hanswer : answer = .ok ⟨u, 0, 0⟩)
      (before : w.db.users u = none) (after : w'.db.users u = some ⟨0, 0⟩) :
      Leaves u w w' (.createUser u) answer
  | saved {user : User} {answer : Except DbError Unit} (hanswer : answer = .ok ())
      (huser : user.publicKey = u) (after : w'.db.users u = some user.row) :
      Leaves u w w' (.saveUser user) answer
  | added {c : Call} {answer : Call.Answer c}
      (hother : succeeded c answer = true → c.writes u = false)
      (after : w'.db.users u = (w.db.users u).map (·.add (deltas u c answer))) :
      Leaves u w w' c answer

theorem Leaves.absent {c : Call} {answer : Call.Answer c} (h : Leaves u w w' c answer)
    (hnone : w'.db.users u = none) : w.db.users u = none := by
  cases h with
  | created hanswer before after => exact before
  | saved hanswer huser after => cases after.symm.trans hnone
  | added hother after => exact Option.map_eq_none_iff.mp (after.symm.trans hnone)

theorem Leaves.absent_of_created {answer : Call.Answer (.createUser u)}
    (h : Leaves u w w' (.createUser u) answer)
    (hsucceeded : succeeded (.createUser u) answer = true) : w.db.users u = none := by
  cases h with
  | created hanswer before after => exact before
  | added hother after => cases (hother hsucceeded).symm.trans (decide_eq_true rfl)

@[simp] theorem UserRow.add_zero (row : UserRow) : row.add 0 = row := by
  simp [UserRow.add]

theorem Leaves.of_users {c : Call} {answer : Call.Answer c}
    (hother : succeeded c answer = true → c.writes u = false) (hdeltas : deltas u c answer = 0)
    (husers : w'.db.users u = w.db.users u) : Leaves u w w' c answer := by
  refine .added hother ?_
  rw [husers, hdeltas]
  simp only [UserRow.add_zero, Option.map_id']

theorem leaves_createUser {publicKey : String} {answer : Except DbError User}
    (h : respond cfg outcome (.createUser publicKey) w = (answer, w')) :
    Leaves u w w' (.createUser publicKey) answer := by
  have hdeltas : deltas u (.createUser publicKey) answer = 0 := ite_self _
  rcases respond_createUser h with ⟨e, rfl, rfl⟩ | ⟨rfl, hnone, rfl⟩
  · refine .of_users (fun hsucceeded => ?_) hdeltas rfl
    cases hsucceeded
  · by_cases hu : publicKey = u
    · subst hu
      exact .created rfl hnone (setUser_users_self _)
    · exact .of_users (fun _ => decide_eq_false hu) hdeltas (setUser_users_of_ne _ (Ne.symm hu))

theorem leaves_saveUser {user : User} {answer : Except DbError Unit}
    (h : respond cfg outcome (.saveUser user) w = (answer, w')) :
    Leaves u w w' (.saveUser user) answer := by
  have hdeltas : deltas u (.saveUser user) answer = 0 := ite_self _
  rcases respond_saveUser h with ⟨e, rfl, rfl⟩ | ⟨rfl, -, -, rfl⟩
  · refine .of_users (fun hsucceeded => ?_) hdeltas rfl
    cases hsucceeded
  · by_cases hu : user.publicKey = u
    · subst hu
      exact .saved rfl rfl (setUser_users_self _)
    · exact .of_users (fun _ => decide_eq_false hu) hdeltas (setUser_users_of_ne _ (Ne.symm hu))

theorem leaves_updateUserTokens {publicKey : String} {tokens consumed : Int64}
    {answer : Except DbError Unit}
    (h : respond cfg outcome (.updateUserTokens publicKey tokens consumed) w = (answer, w')) :
    Leaves u w w' (.updateUserTokens publicKey tokens consumed) answer := by
  rcases respond_updateUserTokens h with ⟨e, rfl, rfl⟩ | ⟨db, hdb, rfl, rfl⟩
  · exact .of_users (fun _ => rfl) rfl rfl
  · refine .added (fun _ => rfl) ?_
    rw [updateUserTokens_eq_ok hdb u]
    congr 1
    funext row
    show _ = row.add (if u = publicKey then (tokens.toInt, consumed.toInt) else 0)
    by_cases hu : u = publicKey
    · rw [if_pos hu, if_pos hu, UserRow.add]
    · rw [if_neg hu, if_neg hu, UserRow.add_zero]

variable (cfg outcome w u) in
/-- One query, as the row of one user sees it. -/
theorem leaves_respond (c : Call) :
    Leaves u w (respond cfg outcome c w).2 c (respond cfg outcome c w).1 := by
  cases c with
  | createUser publicKey =>
      exact leaves_createUser (rfl : respond cfg outcome (.createUser publicKey) w = _)
  | saveUser user => exact leaves_saveUser (rfl : respond cfg outcome (.saveUser user) w = _)
  | updateUserTokens publicKey tokens consumed =>
      exact leaves_updateUserTokens
        (rfl : respond cfg outcome (.updateUserTokens publicKey tokens consumed) w = _)
  | saveTransactionEvent event =>
      exact .of_users (fun _ => rfl) (ite_self _) (congrFun (users_saveTransactionEvent event) u)
  | updateTotalTokens id totalTokens =>
      have hwithin : (Call.updateTotalTokens id totalTokens).Within id fun _ => True := rfl
      exact .of_users (fun _ => rfl) (ite_self _) (congrFun (users_respond_within hwithin) u)
  | createMessage id role content =>
      have hwithin : (Call.createMessage id role content).Within id fun _ => True := rfl
      exact .of_users (fun _ => rfl) (ite_self _) (congrFun (users_respond_within hwithin) u)
  | _ => exact .of_users (fun _ => rfl) (ite_self _) rfl

variable (cfg outcome) in
theorem inRange_respond (hrange : w.db.InRange) (c : Call) :
    (respond cfg outcome c w).2.db.InRange := by
  generalize hrespond : respond cfg outcome c w = result
  obtain ⟨answer, w'⟩ := result
  cases c with
  | createUser publicKey =>
      rcases respond_createUser hrespond with ⟨e, -, rfl⟩ | ⟨-, -, rfl⟩
      · exact hrange
      · exact hrange.setUser (by decide) (by decide)
  | saveUser user =>
      rcases respond_saveUser hrespond with ⟨e, -, rfl⟩ | ⟨-, htokens, hconsumed, rfl⟩
      · exact hrange
      · exact hrange.setUser htokens hconsumed
  | updateUserTokens publicKey tokens consumed =>
      rcases respond_updateUserTokens hrespond with ⟨e, -, rfl⟩ | ⟨db, hdb, -, rfl⟩
      · exact hrange
      · exact updateUserTokens_inRange hrange hdb
  | saveTransactionEvent event =>
      rcases respond_saveTransactionEvent hrespond with ⟨e, -, rfl⟩ | ⟨-, rfl⟩
      · exact hrange
      · exact hrange.store event
  | updateTotalTokens id totalTokens =>
      have hwithin : (Call.updateTotalTokens id totalTokens).Within id fun _ => True := rfl
      obtain rfl : (respond cfg outcome (.updateTotalTokens id totalTokens) w).2 = w' :=
        congrArg Prod.snd hrespond
      exact inRange_of_users (users_respond_within hwithin) hrange
  | createMessage id role content =>
      have hwithin : (Call.createMessage id role content).Within id fun _ => True := rfl
      obtain rfl : (respond cfg outcome (.createMessage id role content) w).2 = w' :=
        congrArg Prod.snd hrespond
      exact inRange_of_users (users_respond_within hwithin) hrange
  | _ =>
      obtain rfl := congrArg Prod.snd hrespond
      exact hrange

end Query

/-! ### What the threads do -/

/-- Every save writes back the user that the query before it returned. -/
def Disciplined : Option User → Async Unit → Prop
  | _, .ret _ => True
  | copy, .call c next => (∀ user, c = .saveUser user → copy = some user) ∧
    ∀ answer, Disciplined (returned c answer) (next answer)

section Threads

variable {cfg : Config} {s s' : Concurrent} {u : String}

theorem finishLogin_disciplined (user : User) :
    Disciplined (some user) (finishLogin cfg u user >>= fun _ => pure ()) := by
  unfold finishLogin
  cases cfg.signJWT u with
  | none => trivial
  | some token =>
      refine ⟨fun user' hcall => congrArg some (Call.saveUser.inj hcall), fun saved => ?_⟩
      change Except DbError Unit at saved
      cases saved <;> trivial

theorem login_disciplined (message signature : String) :
    Disciplined none (Task.program cfg (.login u message signature)) := by
  show Disciplined none (login cfg u message signature >>= fun _ => pure ())
  unfold login
  split_ifs
  · rw [loginVerified_eq]
    refine ⟨fun _ hcall => (nomatch hcall), fun found => ?_⟩
    change Except DbError User at found
    cases found with
    | ok user => exact finishLogin_disciplined user
    | error e =>
        cases e with
        | recordNotFound =>
            refine ⟨fun _ hcall => (nomatch hcall), fun created => ?_⟩
            change Except DbError User at created
            cases created with
            | ok user => exact finishLogin_disciplined user
            | error e => trivial
        | _ => trivial
  · trivial

theorem program_disciplined (task : Task) : Disciplined none (task.program cfg) := by
  cases task with
  | login u message signature => exact login_disciplined message signature
  | deliver event =>
      show Disciplined none (onEvent cfg event)
      by_cases htransaction : ∃ transaction, IsTransaction cfg event transaction
      · obtain ⟨transaction, htransaction⟩ := htransaction
        rw [onEvent_transaction htransaction]
        refine ⟨fun _ hcall => (nomatch hcall), fun _ => ?_⟩
        exact ⟨fun _ hcall => (nomatch hcall), fun _ => trivial⟩
      · rw [onEvent_other fun transaction h => htransaction ⟨transaction, h⟩]
        trivial

/-- The table holds its rows, and every thread writes back what it read. -/
structure Sound (s : Concurrent) : Prop where
  rows : s.db.InRange
  threads : ∀ t ∈ s.threads, Disciplined (t.copy.map (·.1)) t.work

/-- One query of a thread, with its answer. -/
theorem step_query {thread : ℕ} {outcome : Outcome} {c : Call}
    {next : Call.Answer c → Async Unit} {copy : Option (User × (ℤ × ℤ))} {answer : Call.Answer c}
    {w : World} (hthread : s.threads[thread]? = some ⟨.call c next, copy⟩)
    (hrespond : respond cfg outcome c s.toWorld = (answer, w)) :
    (interleaved cfg).step s (.call thread outcome) =
      some ⟨w, s.threads.set thread ⟨next answer, (returned c answer).map fun user =>
        (user, s.added user.publicKey + deltas user.publicKey c answer)⟩,
          fun u => s.added u + deltas u c answer⟩ := by
  simp only [interleaved, hthread, Concurrent.query, hrespond]

theorem query_done {thread : ℕ} {outcome : Outcome}
    (h : (interleaved cfg).step s (.call thread outcome) = some s') :
    ∃ c next copy, s.threads[thread]? = some ⟨.call c next, copy⟩ ∧
      s' = s.query cfg thread outcome c next := by
  simp only [interleaved] at h
  split at h
  · rename_i c next copy hthread
    exact ⟨c, next, copy, hthread, (Option.some.inj h).symm⟩
  · cases h

theorem sound_step {op : Concurrent.Op} (hs : Sound s)
    (h : (interleaved cfg).step s op = some s') : Sound s' := by
  cases op with
  | start task =>
      cases h
      refine ⟨hs.rows, fun t ht => ?_⟩
      rcases List.mem_append.mp ht with ht | ht
      · exact hs.threads t ht
      · rw [List.mem_singleton.mp ht]
        exact program_disciplined task
  | call thread outcome =>
      obtain ⟨c, next, copy, hthread, rfl⟩ := query_done h
      refine ⟨inRange_respond cfg outcome hs.rows c, fun t ht => ?_⟩
      rcases List.mem_or_eq_of_mem_set ht with ht | rfl
      · exact hs.threads t ht
      · have hdisciplined := (hs.threads _ (List.mem_of_getElem? hthread)).2
          (respond cfg outcome c s.toWorld).1
        show Disciplined (Option.map _ (Option.map _ _)) _
        rw [Option.map_map]
        exact (Option.map_id' : Option.map (fun user => user) _ = _) ▸ hdisciplined

/-! What is done one task after the other is one of the interleavings. -/

/-- A thread that is given every turn carries its program out. -/
theorem run_program {work : Async Unit} {thread : ℕ} {copy : Option (User × (ℤ × ℤ))} {w' : World}
    (hthread : s.threads[thread]? = some ⟨work, copy⟩)
    (h : work.tryExec (carriedOut cfg) s.toWorld = some ((), w')) :
    ∃ ops, ((interleaved cfg).run s ops).toWorld = w' := by
  induction work generalizing s copy with
  | ret a =>
      cases h
      exact ⟨[], rfl⟩
  | call c next ih =>
      obtain ⟨answer, w, hanswer, hrest⟩ := (Program.tryExec_call_eq_some ..).mp h
      have hstep := step_query hthread (carriedOut_eq_some.mp hanswer).1
      have hlength := (List.getElem?_eq_some_iff.mp hthread).1
      have hnext := List.getElem?_set_self (a := ⟨next answer, (returned c answer).map fun user =>
        (user, s.added user.publicKey + deltas user.publicKey c answer)⟩) hlength
      obtain ⟨ops, hops⟩ := ih answer (s := ⟨w, _, _⟩) hnext hrest
      refine ⟨.call thread ⟨false, none, none, 0, 0⟩ :: ops, ?_⟩
      rw [run_cons_of_step hstep]
      exact hops

/-- A task started on a thread of its own, which then runs to its end. -/
theorem run_task {task : Task} {w' : World}
    (h : (sequential cfg).step s.toWorld task = some w') :
    ∃ ops, ((interleaved cfg).run s ops).toWorld = w' := by
  obtain ⟨result, hrun, rfl⟩ := Option.map_eq_some_iff.mp h
  have hstart : (interleaved cfg).step s (.start task) =
      some { s with threads := s.threads ++ [⟨task.program cfg, none⟩] } := rfl
  have hthread : (s.threads ++ [⟨task.program cfg, none⟩])[s.threads.length]? =
      some ⟨task.program cfg, none⟩ := List.getElem?_concat_length
  obtain ⟨ops, hops⟩ :=
    run_program (s := { s with threads := s.threads ++ [⟨task.program cfg, none⟩] }) hthread hrun
  refine ⟨.start task :: ops, ?_⟩
  rw [run_cons_of_step hstart]
  exact hops

/-- Whatever the sequential run does, some run of the interleaved threads does too. -/
theorem run_sequential (cfg : Config) (s : Concurrent) (tasks : List Task) :
    ∃ ops, ((interleaved cfg).run s ops).toWorld = (sequential cfg).run s.toWorld tasks := by
  induction tasks generalizing s with
  | nil => exact ⟨[], rfl⟩
  | cons task tasks ih =>
      cases hstep : (sequential cfg).step s.toWorld task with
      | none =>
          rw [run_cons_of_refused hstep]
          exact ih s
      | some w' =>
          obtain ⟨first, hfirst⟩ := run_task hstep
          obtain ⟨rest, hrest⟩ := ih ((interleaved cfg).run s first)
          refine ⟨first ++ rest, ?_⟩
          rw [run_append, hrest, hfirst, run_cons_of_step hstep]

end Threads

/-! ### The row of a user as a cell -/

/-- What a thread would write to the row of a user, with what had been added when it was read. -/
def held (u : String) (copy : User × (ℤ × ℤ)) : Option ((ℤ × ℤ) × (ℤ × ℤ)) :=
  if copy.1.publicKey = u then some (copy.1.row.columns, copy.2) else none

/-- Whose copy a query writes: a creation writes nobody's. -/
def Call.source (thread : ℕ) : Call → Option ℕ
  | .createUser _ => none
  | _ => some thread

/-- A user without a row owns what has been added so far, and the creation writes zeros. -/
def cell (cfg : Config) (u : String) : Cell (interleaved cfg) (Option ℕ) (ℤ × ℤ) where
  value s := ((s.db.users u).map UserRow.columns).getD (s.added u)
  added s := s.added u
  copy s
    | none => if s.db.users u = none then some (0, 0) else none
    | some thread => (s.threads[thread]?.bind Thread.copy).bind (held u)
  writer s
    | .start _ => none
    | .call thread outcome =>
      match s.threads[thread]? with
      | some ⟨.call c _, _⟩ =>
        if c.writes u = true ∧ succeeded c (respond cfg outcome c s.toWorld).1 = true then
          some (c.source thread)
        else none
      | _ => none

section Cells

variable {cfg : Config} {s s' : Concurrent} {u : String} {thread : ℕ} {outcome : Outcome} {c : Call}
  {next : Call.Answer c → Async Unit} {copy : Option (User × (ℤ × ℤ))}

theorem writer_call (hthread : s.threads[thread]? = some ⟨.call c next, copy⟩) :
    (cell cfg u).writer s (.call thread outcome) =
      if c.writes u = true ∧ succeeded c (respond cfg outcome c s.toWorld).1 = true then
        some (c.source thread)
      else none := by
  simp only [cell, hthread]

theorem cell_write {client : Option ℕ} (hs : Sound s)
    (hthread : s.threads[thread]? = some ⟨.call c next, copy⟩)
    (hwriter : (cell cfg u).writer s (.call thread outcome) = some client) :
    ∃ v d, (cell cfg u).copy s client = some (v, d) ∧
      (cell cfg u).value (s.query cfg thread outcome c next) = v ∧
      (cell cfg u).added (s.query cfg thread outcome c next) = (cell cfg u).added s := by
  rw [writer_call hthread] at hwriter
  have hleaves := leaves_respond cfg outcome s.toWorld u c
  simp only [Concurrent.query]
  generalize respond cfg outcome c s.toWorld = result at hwriter hleaves ⊢
  obtain ⟨answer, w'⟩ := result
  dsimp only at hwriter hleaves
  cases hleaves with
  | created hanswer before after =>
      cases Option.some.inj ((if_pos ⟨decide_eq_true rfl, hanswer ▸ rfl⟩).symm.trans hwriter)
      refine ⟨0, 0, if_pos before, ?_, ?_⟩
      · simp only [cell, after]
        rfl
      · exact (congrArg (s.added u + ·) (ite_self _)).trans (add_zero _)
  | @saved user answer hanswer huser after =>
      cases Option.some.inj ((if_pos ⟨decide_eq_true huser, hanswer ▸ rfl⟩).symm.trans hwriter)
      obtain ⟨⟨user', d⟩, rfl, rfl⟩ := Option.map_eq_some_iff.mp
        ((hs.threads _ (List.mem_of_getElem? hthread)).1 user rfl)
      refine ⟨user'.row.columns, d, ?_, ?_, ?_⟩
      · simp only [cell, Call.source, hthread, Option.bind_some, held]
        exact if_pos huser
      · simp only [cell, after]
        rfl
      · exact (congrArg (s.added u + ·) (ite_self _)).trans (add_zero _)
  | added hother after =>
      rw [if_neg fun h => ?_] at hwriter
      · cases hwriter
      · cases (hother h.2).symm.trans h.1

theorem UserRow.columns_add (row : UserRow) (d : ℤ × ℤ) :
    (row.add d).columns = row.columns + d := rfl

theorem cell_other (hthread : s.threads[thread]? = some ⟨.call c next, copy⟩)
    (hwriter : (cell cfg u).writer s (.call thread outcome) = none) :
    (cell cfg u).value (s.query cfg thread outcome c next) -
        (cell cfg u).added (s.query cfg thread outcome c next) =
      (cell cfg u).value s - (cell cfg u).added s := by
  rw [writer_call hthread] at hwriter
  have hleaves := leaves_respond cfg outcome s.toWorld u c
  simp only [Concurrent.query]
  generalize respond cfg outcome c s.toWorld = result at hwriter hleaves ⊢
  obtain ⟨answer, w'⟩ := result
  dsimp only at hwriter hleaves
  cases hleaves with
  | created hanswer before after =>
      cases (if_pos ⟨decide_eq_true rfl, hanswer ▸ rfl⟩).symm.trans hwriter
  | saved hanswer huser after =>
      cases (if_pos ⟨decide_eq_true huser, hanswer ▸ rfl⟩).symm.trans hwriter
  | added hother after =>
      simp only [cell, after]
      cases hrow : s.db.users u with
      | none => simp only [Option.map_none, Option.getD_none, sub_self]
      | some row =>
          simp only [Option.map_some, Option.getD_some, UserRow.columns_add]
          exact add_sub_add_right_eq_sub _ _ _

theorem row_of_returned {w w' : World} {answer : Call.Answer c} {user : User}
    (hrange : w.db.InRange) (hrespond : respond cfg outcome c w = (answer, w'))
    (h : returned c answer = some user) : w'.db.users user.publicKey = some user.row := by
  cases c with
  | getUserByPublicKey publicKey =>
      change Except DbError User at answer
      obtain ⟨rfl, hok, -⟩ := respond_getUserByPublicKey hrange hrespond
      cases answer with
      | error e => cases h
      | ok found =>
          cases h
          obtain ⟨hkey, hrow⟩ := hok user rfl
          rw [hkey, hrow]
  | createUser publicKey =>
      change Except DbError User at answer
      rcases respond_createUser hrespond with ⟨e, rfl, -⟩ | ⟨rfl, -, rfl⟩
      · cases h
      · cases h
        exact setUser_users_self _
  | _ => cases h

theorem query_thread (hthread : s.threads[thread]? = some ⟨.call c next, copy⟩) :
    (s.query cfg thread outcome c next).threads[thread]? =
      some ⟨next (respond cfg outcome c s.toWorld).1,
        (returned c (respond cfg outcome c s.toWorld).1).map fun user =>
          (user, (s.query cfg thread outcome c next).added user.publicKey)⟩ :=
  List.getElem?_set_self (List.getElem?_eq_some_iff.mp hthread).1

theorem cell_copied {client : Option ℕ} {v d : ℤ × ℤ} (hs : Sound s)
    (hthread : s.threads[thread]? = some ⟨.call c next, copy⟩)
    (hcopy : (cell cfg u).copy (s.query cfg thread outcome c next) client = some (v, d)) :
    (cell cfg u).copy s client = some (v, d) ∨
      v = (cell cfg u).value (s.query cfg thread outcome c next) ∧
        d = (cell cfg u).added (s.query cfg thread outcome c next) := by
  cases client with
  | none =>
      apply Or.inl
      have habsent : (respond cfg outcome c s.toWorld).2.db.users u = none := by
        by_contra hrow
        cases (if_neg hrow).symm.trans hcopy
      cases (if_pos habsent).symm.trans hcopy
      exact if_pos ((leaves_respond cfg outcome s.toWorld u c).absent habsent)
  | some k =>
      by_cases hk : k = thread
      · apply Or.inr
        rw [hk] at hcopy
        obtain ⟨pair, hpair, hcopy⟩ := Option.bind_eq_some_iff.mp hcopy
        obtain ⟨t, ht, hpair⟩ := Option.bind_eq_some_iff.mp hpair
        obtain rfl := Option.some.inj ((query_thread hthread).symm.trans ht)
        obtain ⟨user, huser, rfl⟩ := Option.map_eq_some_iff.mp hpair
        have hrow : (respond cfg outcome c s.toWorld).2.db.users user.publicKey = some user.row :=
          row_of_returned hs.rows rfl huser
        unfold held at hcopy
        split_ifs at hcopy with hu
        obtain ⟨rfl, rfl⟩ := Prod.mk.inj (Option.some.inj hcopy)
        dsimp only at hu
        subst hu
        refine ⟨?_, rfl⟩
        show _ = (((respond cfg outcome c s.toWorld).2.db.users user.publicKey).map _).getD _
        rw [hrow, Option.map_some, Option.getD_some]
      · apply Or.inl
        have hsame : (s.query cfg thread outcome c next).threads[k]? = s.threads[k]? :=
          List.getElem?_set_ne (Ne.symm hk)
        simp only [cell, hsame] at hcopy
        exact hcopy

theorem copy_started (task : Task) (k : ℕ) :
    (s.threads ++ [⟨task.program cfg, none⟩])[k]?.bind Thread.copy =
      s.threads[k]?.bind Thread.copy := by
  rcases Nat.lt_or_ge k s.threads.length with hk | hk
  · rw [List.getElem?_append_left hk]
  · rw [List.getElem?_append_right hk, List.getElem?_eq_none hk]
    cases k - s.threads.length <;> rfl

theorem cell_lawful (cfg : Config) (u : String) : (cell cfg u).Lawful Sound where
  write {s op s' client} hs h hwriter := by
    cases op with
    | start task => cases hwriter
    | call thread outcome =>
        obtain ⟨c, next, copy, hthread, rfl⟩ := query_done h
        exact cell_write hs hthread hwriter
  other {s op s'} hs h hwriter := by
    cases op with
    | start task =>
        cases h
        rfl
    | call thread outcome =>
        obtain ⟨c, next, copy, hthread, rfl⟩ := query_done h
        exact cell_other hthread hwriter
  copied {s op s' client v d} hs h hcopy := by
    cases op with
    | start task =>
        cases h
        apply Or.inl
        cases client with
        | none => exact hcopy
        | some k => exact (congrArg (·.bind (held u)) (copy_started task k)).symm.trans hcopy
    | call thread outcome =>
        obtain ⟨c, next, copy, hthread, rfl⟩ := query_done h
        exact cell_copied hs hthread hcopy

end Cells

/-! ### Balances during logins -/

/-- Nothing has been added, on balance, to the row of a user who is created, or since the read or
the creation to one who is saved. -/
def Timely (cfg : Config) (s : Concurrent) : Concurrent.Op → Prop
  | .start _ => True
  | .call thread outcome => ∀ c next copy, s.threads[thread]? = some ⟨.call c next, copy⟩ →
    succeeded c (respond cfg outcome c s.toWorld).1 = true →
    match c with
    | .createUser u => s.added u = 0
    | .saveUser user => copy = some (user, s.added user.publicKey)
    | _ => True

/-- The columns of a user's row, zeros when there is none. -/
def columnsOf (db : Db) (u : String) : ℤ × ℤ := ((db.users u).map UserRow.columns).getD 0

/-- Every row is what it was and all that was added. -/
def Kept (s₀ s : Concurrent) : Prop :=
  ∀ u row, s.db.users u = some row → row.columns = columnsOf s₀.db u + s.added u

/-- No thread is running, and nothing has been counted. -/
structure Idle (s : Concurrent) : Prop where
  rows : s.db.InRange
  threads : s.threads = []
  added : ∀ u, s.added u = 0

section Balances

variable {cfg : Config} {s s' : Concurrent} {op : Concurrent.Op}

theorem timely_iff (hs : Sound s) : Timely cfg s op ↔ ∀ u, (cell cfg u).Unstale s op := by
  cases op with
  | start task => exact iff_of_true trivial fun u client v d hwriter => by cases hwriter
  | call thread outcome =>
      constructor
      · intro htimely u client v d hwriter hcopy
        simp only [cell] at hwriter
        split at hwriter
        · rename_i c next copy hthread
          split_ifs at hwriter with hwrites
          have hkept := htimely c next copy hthread hwrites.2
          cases Option.some.inj hwriter
          cases c with
          | createUser publicKey =>
              obtain rfl : publicKey = u := of_decide_eq_true hwrites.1
              simp only [cell, Call.source] at hcopy
              split_ifs at hcopy
              exact (Prod.mk.inj (Option.some.inj hcopy)).2.symm.trans hkept.symm
          | saveUser user =>
              obtain rfl : user.publicKey = u := of_decide_eq_true hwrites.1
              have hcopy : held user.publicKey (user, s.added user.publicKey) = some (v, d) := by
                rw [← hcopy]
                simp only [cell, Call.source, hthread, Option.bind_some, hkept]
              exact (Prod.mk.inj (Option.some.inj ((if_pos rfl).symm.trans hcopy))).2.symm
          | _ => cases hwrites.1
        · cases hwriter
      · intro hunstale c next copy hthread hsucceeded
        have hwriter : ∀ u, c.writes u = true →
            (cell cfg u).writer s (.call thread outcome) = some (c.source thread) := by
          intro u hwrites
          rw [writer_call hthread]
          exact if_pos ⟨hwrites, hsucceeded⟩
        cases c with
        | createUser u =>
            have habsent : s.db.users u = none :=
              (leaves_respond cfg outcome s.toWorld u _).absent_of_created hsucceeded
            exact (hunstale u none 0 0 (hwriter u (decide_eq_true rfl)) (if_pos habsent)).symm
        | saveUser user =>
            obtain ⟨⟨user', d⟩, rfl, rfl⟩ := Option.map_eq_some_iff.mp
              ((hs.threads _ (List.mem_of_getElem? hthread)).1 user rfl)
            have hcopy : (cell cfg user'.publicKey).copy s (some thread) =
                some (user'.row.columns, d) := by
              simp only [cell, hthread, Option.bind_some]
              exact if_pos rfl
            have hd : d = s.added user'.publicKey :=
              hunstale _ _ _ _ (hwriter _ (decide_eq_true rfl)) hcopy
            exact hd ▸ rfl
        | _ => trivial

theorem absent_of_run {s₀ : Concurrent} {ops : List Concurrent.Op} {u : String}
    (hnone : ((interleaved cfg).run s₀ ops).db.users u = none) : s₀.db.users u = none := by
  refine run_rel (M := interleaved cfg)
    (R := fun s s' => s'.db.users u = none → s.db.users u = none) (fun _ h => h)
    (fun hst htu h => hst (htu h)) (fun {s op s'} h hnone => ?_) s₀ ops hnone
  cases op with
  | start task =>
      cases h
      exact hnone
  | call thread outcome =>
      obtain ⟨c, next, copy, -, rfl⟩ := query_done h
      exact (leaves_respond cfg outcome s.toWorld u c).absent hnone

theorem kept_iff {s₀ : Concurrent} (hstay : ∀ u, s.db.users u = none → s₀.db.users u = none) :
    Kept s₀ s ↔ ∀ u, (cell cfg u).value s - (cell cfg u).added s = columnsOf s₀.db u := by
  apply forall_congr'
  intro u
  simp only [cell, columnsOf]
  cases hrow : s.db.users u with
  | none =>
      rw [hstay u hrow, Option.map_none, Option.getD_none, Option.getD_none, sub_self]
      exact iff_of_true (fun row hrow => nomatch hrow) rfl
  | some row =>
      rw [Option.map_some, Option.getD_some, sub_eq_iff_eq_add]
      constructor
      · intro hkept
        exact hkept row rfl
      · rintro hcolumns _ ⟨⟩
        exact hcolumns

/-- At every moment every row is what it was and all that was added, exactly when every creation and
every save is timely. -/
theorem balances_kept_iff {s₀ : Concurrent} (h₀ : Idle s₀) (ops : List Concurrent.Op) :
    (∀ n, Kept s₀ ((interleaved cfg).run s₀ (ops.take n))) ↔
      (interleaved cfg).Throughout (Timely cfg) s₀ ops := by
  have hsound : Sound s₀ := ⟨h₀.rows, fun t ht => by rw [h₀.threads] at ht; cases ht⟩
  have hcopies : ∀ u client v d, (cell cfg u).copy s₀ client = some (v, d) →
      v - d = columnsOf s₀.db u := by
    intro u client v d hcopy
    cases client with
    | none =>
        simp only [cell] at hcopy
        split_ifs at hcopy with hrow
        obtain ⟨rfl, rfl⟩ := Prod.mk.inj (Option.some.inj hcopy)
        rw [columnsOf, hrow, sub_self]
        rfl
    | some k =>
        simp only [cell, h₀.threads, List.getElem?_nil, Option.bind_none] at hcopy
        cases hcopy
  have hkept : Kept s₀ s₀ := by
    intro u row hrow
    rw [columnsOf, hrow, h₀.added, add_zero]
    rfl
  have hvalue : ∀ u, (cell cfg u).value s₀ - (cell cfg u).added s₀ = columnsOf s₀.db u :=
    (kept_iff fun _ h => h).mp hkept
  rw [← Cell.run_iff (cell_lawful cfg) (fun hs _ => timely_iff hs) sound_step hsound hcopies hvalue]
  exact forall_congr' fun n => kept_iff fun u hnone => absent_of_run hnone

end Balances

/-! ### A credit during a login -/

namespace Interleaving.Sample

open Ledger.Sample (user digest signature thousand credit verified isTransaction_credit)

def available : Outcome := ⟨false, none, none, 0, 0⟩

def holder : User := ⟨user, 100, 0⟩

/-- A login that has read the user. -/
def finishing : Async Unit := finishLogin Sample.cfg user holder >>= fun _ => pure ()

/-- Everyone has a hundred tokens. -/
def holding : Db := { Sample.empty with users := fun _ => some ⟨100, 0⟩ }

def stored : Db := holding.store (row credit thousand)

def credited : Db := stored.setUser user ⟨1100, 0⟩

def state (db : Db) (works : List Thread) (added : String → ℤ × ℤ) : Concurrent :=
  ⟨⟨db, []⟩, works, added⟩

def start : Concurrent := state holding [] fun _ => 0

/-- The login reads, the credit arrives, and the login saves. -/
def ops : List Concurrent.Op :=
  [.start (.login user digest signature), .start (.deliver credit), .call 0 available,
    .call 1 available, .call 1 available, .call 0 available]

theorem program_login : ∃ next, Task.program Sample.cfg (.login user digest signature) =
    .call (.getUserByPublicKey user) next ∧ next (.ok holder) = finishing := by
  have hlogin : login Sample.cfg user digest signature = loginVerified Sample.cfg user :=
    if_pos verified
  show ∃ next, (login Sample.cfg user digest signature >>= fun _ => pure ()) = _ ∧ _
  rw [hlogin, loginVerified_eq]
  exact ⟨_, rfl, rfl⟩

theorem program_credit : Task.program Sample.cfg (.deliver credit) = saving credit thousand :=
  onEvent_transaction isTransaction_credit

theorem respond_read : respond Sample.cfg available (.getUserByPublicKey user) ⟨holding, []⟩ =
    (.ok holder, ⟨holding, []⟩) := by
  have hrow : holding.users user = some ⟨100, 0⟩ := rfl
  simp only [respond, Db.getUserByPublicKey, hrow]
  rfl

theorem respond_store : respond Sample.cfg available (save credit thousand) ⟨holding, []⟩ =
    (.ok (), ⟨stored, []⟩) := by
  have hstored : holding.saveTransactionEvent (row credit thousand) = .ok stored := rfl
  simp only [save, respond, hstored]
  rfl

theorem respond_credit : respond Sample.cfg available (update thousand) ⟨stored, []⟩ =
    (.ok (), ⟨credited, []⟩) := by
  have hcredited : stored.updateUserTokens thousand.user thousand.tokens (consumed thousand) =
      .ok credited := by
    have hrow : stored.users thousand.user = some ⟨100, 0⟩ := rfl
    simp only [Db.updateUserTokens, hrow]
    exact if_pos (And.intro (by decide) (by decide) : InBigint 1100 ∧ InBigint 0)
  simp only [update, respond, hcredited]
  rfl

theorem respond_restore : respond Sample.cfg available (.saveUser holder) ⟨credited, []⟩ =
    (.ok (), ⟨credited.setUser user holder.row, []⟩) := by
  have hrestored : credited.saveUser holder = .ok (credited.setUser user holder.row) :=
    if_pos (And.intro (by decide) (by decide) : InBigint 100 ∧ InBigint 0)
  simp only [respond, hrestored]
  rfl

section Steps

variable {works : List Thread} {added : String → ℤ × ℤ}

theorem step_read {next : Except DbError User → Async Unit}
    (hnext : next (.ok holder) = finishing) :
    (interleaved Sample.cfg).step
        (state holding (⟨.call (.getUserByPublicKey user) next, none⟩ :: works) added)
        (.call 0 available) =
      some (state holding (⟨finishing, some (holder, added user)⟩ :: works) added) := by
  have hnone : ∀ u, deltas u (.getUserByPublicKey user) (.ok holder) = 0 := fun u => rfl
  rw [step_query rfl respond_read]
  simp only [hnone, add_zero, returned, Except.toOption, Option.map_some, hnext]
  rfl

theorem step_store {t : Thread} :
    (interleaved Sample.cfg).step (state holding [t, ⟨saving credit thousand, none⟩] added)
        (.call 1 available) =
      some (state stored [t, ⟨updating thousand, none⟩] added) := by
  have hnone : ∀ u, deltas u (save credit thousand) (.ok ()) = 0 := fun u => rfl
  rw [step_query rfl respond_store]
  simp only [hnone, add_zero]
  rfl

theorem step_credit {t : Thread} :
    (interleaved Sample.cfg).step (state stored [t, ⟨updating thousand, none⟩] added)
        (.call 1 available) =
      some (state credited [t, ⟨.ret (), none⟩] fun u =>
        added u + if u = user then (1000, 0) else 0) := by
  rw [step_query rfl respond_credit]
  rfl

theorem step_restore {copy : Option (User × (ℤ × ℤ))} :
    (interleaved Sample.cfg).step (state credited (⟨finishing, copy⟩ :: works) added)
        (.call 0 available) =
      some (state (credited.setUser user holder.row) (⟨.ret (), none⟩ :: works) added) := by
  have hnone : ∀ u, deltas u (.saveUser holder) (.ok ()) = 0 := fun u => rfl
  rw [step_query rfl respond_restore]
  simp only [hnone, add_zero]
  rfl

end Steps

theorem idle_start : Idle start where
  rows := by
    rintro u row ⟨⟩
    exact ⟨by decide, by decide⟩
  threads := rfl
  added _ := rfl

/-- What has been added when the login saves. -/
def addedCredit (u : String) : ℤ × ℤ := 0 + if u = user then (1000, 0) else 0

theorem run_ops : (interleaved Sample.cfg).run start ops =
    state (credited.setUser user holder.row) [⟨.ret (), none⟩, ⟨.ret (), none⟩] addedCredit := by
  obtain ⟨next, hprogram, hnext⟩ := program_login
  have hlogin : (interleaved Sample.cfg).step start (.start (.login user digest signature)) =
      some (state holding [⟨.call (.getUserByPublicKey user) next, none⟩] fun _ => 0) := by
    rw [← hprogram]
    rfl
  have hdeliver : (interleaved Sample.cfg).step
        (state holding [⟨.call (.getUserByPublicKey user) next, none⟩] fun _ => 0)
        (.start (.deliver credit)) =
      some (state holding [⟨.call (.getUserByPublicKey user) next, none⟩,
        ⟨saving credit thousand, none⟩] fun _ => 0) := by
    rw [← program_credit]
    rfl
  rw [ops, run_cons_of_step hlogin, run_cons_of_step hdeliver, run_cons_of_step (step_read hnext),
    run_cons_of_step step_store, run_cons_of_step step_credit, run_cons_of_step step_restore,
    run_nil]
  rfl

end Interleaving.Sample

/-- A credit between the read and the save of a login is taken back. -/
theorem credit_during_login : Idle Interleaving.Sample.start ∧
    ¬ ∀ n, Kept Interleaving.Sample.start ((interleaved Sample.cfg).run Interleaving.Sample.start
      (Interleaving.Sample.ops.take n)) := by
  refine ⟨Interleaving.Sample.idle_start, fun hall => ?_⟩
  have hkept : Kept Interleaving.Sample.start
    ((interleaved Sample.cfg).run Interleaving.Sample.start Interleaving.Sample.ops) := hall 6
  rw [Interleaving.Sample.run_ops] at hkept
  have hcolumns := hkept _ _ (setUser_users_self _)
  have hadded : Interleaving.Sample.addedCredit Ledger.Sample.user = (1000, 0) := by
    rw [Interleaving.Sample.addedCredit, if_pos rfl, zero_add]
  have htokens : (100 : ℤ) = 100 + 1000 :=
    congrArg Prod.fst (hcolumns.trans (congrArg ((100, 0) + ·) hadded))
  omega

theorem balances_kept_iff_sample :
    (∀ n, Kept Interleaving.Sample.start ((interleaved Sample.cfg).run Interleaving.Sample.start
      (Interleaving.Sample.ops.take n))) ↔
    (interleaved Sample.cfg).Throughout (Timely Sample.cfg) Interleaving.Sample.start
      Interleaving.Sample.ops :=
  balances_kept_iff Interleaving.Sample.idle_start _

end DsProxy.Backend
