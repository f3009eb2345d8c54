import DsProxy.Backend.Conversing

/-!
# What a conversation has consumed

`UpdateTotalTokens` writes the total a request has read, raised by its usage. The total of a
conversation grows by the usages of the requests that complete, exactly when none of them has read
it before another one wrote it.
-/

namespace DsProxy.Backend

open Relay Runs System

/-- The `total_tokens` of a conversation, zero when there is no row. -/
def totalOf (db : Db) (id : UUID) : ℤ :=
  ((db.conversations id).map ConversationRow.totalTokens).getD 0

/-- The usage of a request on the conversation that has returned its answer. -/
def Request.spent (id : UUID) (request : Request) : ℕ :=
  match request.work with
  | .ret (.ok _) =>
    if request.conversationID = id then
      (request.known.usage.map fun usage => usage.totalTokens.toNat).getD 0
    else 0
  | _ => 0

def spentOn (id : UUID) (s : Conversing) : ℕ := (s.requests.map (Request.spent id)).sum

/-- The total that a request on the conversation has read. -/
def Request.read (id : UUID) (request : Request) : Option ℤ :=
  if request.conversationID = id then request.known.total.map fun total => (total.toNat : ℤ)
  else none

/-- The usage that a request on the conversation is about to add. -/
def Request.raise (id : UUID) (request : Request) : Option ℕ :=
  match request.work with
  | .call (.updateTotalTokens _ _) _ =>
    if request.conversationID = id then
      request.known.usage.map fun usage => usage.totalTokens.toNat
    else none
  | _ => none

/-- The total as a counter that the requests raise. -/
def counter (cfg : Config) (id : UUID) : Counter (conversing cfg) ℕ where
  value s := totalOf s.db id
  due s := spentOn id s
  snapshot s r := s.requests[r]?.bind (Request.read id)
  raiser s
    | .call r _ => (s.requests[r]?.bind (Request.raise id)).map fun d : ℕ => (r, (d : ℤ))
    | _ => none
  written s
    | .call r outcome => outcome.unavailable = false ∧ ∃ request v d,
      s.requests[r]? = some request ∧ request.read id = some v ∧ request.raise id = some d ∧
        InBigint (v + d)
    | _ => False

/-- An update of the total is made and fits, and no other was made since the request read it. -/
def Undisturbed (id : UUID) (s : Conversing) : Conversing.Op → Prop
  | .call r outcome => ∀ request d, s.requests[r]? = some request → request.raise id = some d →
    outcome.unavailable = false ∧ InBigint (totalOf s.db id + d) ∧
      request.read id = some (totalOf s.db id)
  | _ => True

section Calls

variable {cfg : Config} {id : UUID} {known : Learnt} {c : Call} {outcome : Outcome} {w : World}
  {next : Call.Answer c → Async (Except Failure Message)}

theorem Staged.of_update {other : UUID} {total : UInt64}
    {next : Except DbError Unit → Async (Except Failure Message)}
    (h : Staged cfg id known (.call (.updateTotalTokens other total) next)) :
    other = id ∧ ∃ read usage, known = ⟨some read, some usage⟩ ∧ usage.totalTokens ≠ 0 ∧
      total = read + usage.totalTokens.toUInt64 ∧
      ∀ answer, ∃ message, next answer = .ret (.ok message) := by
  cases h with
  | asking h =>
      cases h with
      | look hlooks hnext => cases hlooks
  | answering h =>
      obtain ⟨text, next, hcall, -⟩ := h
      cases hcall
  | billing h =>
      obtain ⟨transaction, next, hcall, -⟩ := h
      cases hcall
  | updating h =>
      obtain ⟨read, usage, next, hknown, hvalid, hcall, hnext⟩ := h
      cases hcall
      exact ⟨rfl, read, usage, hknown, hvalid, rfl, hnext⟩

/-- An answer is returned after an update only. -/
theorem Turn.update_of_done {answer : Call.Answer c} (h : Turn cfg id known c next answer)
    {message : Message} (hdone : next answer = .ret (.ok message)) :
    ∃ total, c = .updateTotalTokens id total := by
  cases h with
  | look hlooks before after =>
      rw [hdone] at after
      cases after
  | asked before after =>
      obtain ⟨text, _, hcall, -⟩ := after
      cases hdone.symm.trans hcall
  | refused before after => cases hdone.symm.trans after
  | answered after =>
      obtain ⟨transaction, _, hcall, -⟩ := after
      cases hdone.symm.trans hcall
  | torn after => cases hdone.symm.trans after
  | published after =>
      obtain ⟨_, _, _, -, -, hcall, -⟩ := after
      cases hdone.symm.trans hcall
  | updated after => exact ⟨_, rfl⟩

/-- A request changes no total but by its update. -/
theorem conversations_of_no_update (h : Staged cfg id known (.call c next))
    (hother : ∀ total, c ≠ .updateTotalTokens id total) :
    (respond cfg outcome c w).2.db.conversations = w.db.conversations := by
  rcases (h.turn (respond cfg outcome c w).1).calls with
    hlooks | ⟨role, text, rfl⟩ | ⟨transaction, rfl⟩ | ⟨total, rfl⟩
  · rw [respond_looks hlooks]
  · rw [respond_createMessage]
    split_ifs <;> rfl
  · rfl
  · exact absurd rfl (hother total)

theorem conversations_update_of_ne {total : UInt64} {other : UUID} (h : other ≠ id) :
    (respond cfg outcome (.updateTotalTokens id total) w).2.db.conversations other =
      w.db.conversations other := by
  by_cases hmade : outcome.unavailable = false ∧ InBigint total.toNat
  · rw [respond_updateTotalTokens, Db.updateTotalTokens, if_pos hmade.2]
    unfold Outcome.write
    rw [if_neg (by simp [hmade.1])]
    exact Function.update_of_ne h _ _
  · rw [update_not_made hmade]

variable (outcome w) in
theorem isSome_conversations (h : Staged cfg id known (.call c next)) (other : UUID) :
    ((respond cfg outcome c w).2.db.conversations other).isSome =
      (w.db.conversations other).isSome := by
  by_cases hupdate : ∃ total, c = .updateTotalTokens id total
  · obtain ⟨total, rfl⟩ := hupdate
    by_cases hother : other = id
    · subst hother
      by_cases hmade : outcome.unavailable = false ∧ InBigint total.toNat
      · rw [conversations_update_made hmade.1 hmade.2, Option.isSome_map]
      · rw [update_not_made hmade]
    · rw [conversations_update_of_ne hother]
  · rw [conversations_of_no_update h fun total hc => hupdate ⟨total, hc⟩]

end Calls

theorem sum_map_set {α : Type} (weight : α → ℕ) {l : List α} {k : ℕ} {a : α} (b : α)
    (h : l[k]? = some a) :
    ((l.set k b).map weight).sum + weight a = (l.map weight).sum + weight b := by
  induction l generalizing k with
  | nil => cases h
  | cons x l ih =>
      cases k with
      | zero =>
          cases h
          simp only [List.set_cons_zero, List.map_cons, List.sum_cons]
          omega
      | succ k =>
          have hrest := ih h
          simp only [List.set_cons_succ, List.map_cons, List.sum_cons]
          omega

/-! ### The total as a counter -/

section Counters

variable {cfg : Config} {id : UUID} {s s' : Conversing} {r : ℕ} {outcome : Outcome}

variable (cfg id outcome) in
theorem spentOn_query {request : Request} {c : Call}
    {next : Call.Answer c → Async (Except Failure Message)}
    (h : s.requests[r]? = some request) (hcall : request.work = .call c next) :
    spentOn id (s.query cfg r outcome request c next) = spentOn id s +
      Request.spent id ⟨request.conversationID, next (respond cfg outcome c s.toWorld).1,
        request.known.learn cfg c (respond cfg outcome c s.toWorld).1⟩ := by
  have hsum := sum_map_set (Request.spent id) ⟨request.conversationID,
    next (respond cfg outcome c s.toWorld).1,
    request.known.learn cfg c (respond cfg outcome c s.toWorld).1⟩ h
  have hbefore : request.spent id = 0 := by
    rw [Request.spent, hcall]
  rw [hbefore] at hsum
  exact hsum

/-- Every request is at a stage, and what it has read was there. -/
structure Reading (cfg : Config) (s : Conversing) : Prop where
  staged : AllStaged cfg s
  rows : ∀ request ∈ s.requests, request.known.total.isSome = true →
    (s.db.conversations request.conversationID).isSome = true

theorem Reading.turn {c : Call} {next : Call.Answer c → Async (Except Failure Message)}
    {other : UUID} {known : Learnt} (hs : Reading cfg s)
    (h : s.requests[r]? = some ⟨other, .call c next, known⟩) :
    Staged cfg other known (.call c next) :=
  hs.staged _ (List.mem_of_getElem? h)

variable (outcome) in
theorem learn_total {c : Call} {next : Call.Answer c → Async (Except Failure Message)}
    {known : Learnt} (w : World) (h : Staged cfg id known (.call c next)) :
    (known.learn cfg c (respond cfg outcome c w).1).total = known.total ∨
      (known.learn cfg c (respond cfg outcome c w).1).total = none ∨
      ∃ row, w.db.conversations id = some row ∧ 0 ≤ row.totalTokens ∧
        (known.learn cfg c (respond cfg outcome c w).1).total =
          some (UInt64.ofNat row.totalTokens.toNat) ∧ (respond cfg outcome c w).2 = w := by
  rcases (h.turn (respond cfg outcome c w).1).calls with
    hlooks | ⟨role, text, rfl⟩ | ⟨transaction, rfl⟩ | ⟨total, rfl⟩
  · cases c with
    | getConversationByID other =>
        obtain rfl : other = id := of_decide_eq_true hlooks
        apply Or.inr
        have hrespond : (respond cfg outcome (.getConversationByID other) w).1 =
          if outcome.unavailable = true then .error .unavailable
          else w.db.getConversationByID other := rfl
        rw [hrespond]
        split_ifs
        · exact Or.inl rfl
        · cases hread : w.db.getConversationByID other with
          | error e => exact Or.inl rfl
          | ok conversation =>
              obtain ⟨row, hrow, -⟩ := getConversationByID_eq_ok hread
              obtain ⟨hnonneg, htotal⟩ := totalTokens_of_getConversationByID hread hrow
              exact Or.inr ⟨row, hrow, hnonneg, congrArg some htotal, rfl⟩
    | _ => exact Or.inl rfl
  · exact Or.inl rfl
  · exact Or.inl rfl
  · exact Or.inl rfl

theorem reading_step {op : Conversing.Op} (hs : Reading cfg s)
    (h : (conversing cfg).step s op = some s') : Reading cfg s' := by
  refine ⟨allStaged_step hs.staged h, fun request hrequest hread => ?_⟩
  cases op with
  | start id model content =>
      cases h
      rcases List.mem_append.mp hrequest with hold | hnew
      · exact hs.rows request hold hread
      · rw [List.mem_singleton.mp hnew] at hread
        cases hread
  | call r outcome =>
      obtain ⟨id, c, next, known, hbefore, rfl⟩ := call_turn h
      have hturn := hs.turn hbefore
      have hrows := isSome_conversations outcome s.toWorld hturn
      rcases List.mem_or_eq_of_mem_set hrequest with hold | rfl
      · exact (hrows _).trans (hs.rows request hold hread)
      · apply (hrows _).trans
        rcases learn_total outcome s.toWorld hturn with
          hsame | hnone | ⟨row, hrow, -⟩
        · exact hs.rows ⟨id, .call c next, known⟩ (List.mem_of_getElem? hbefore)
            ((congrArg Option.isSome hsame).symm.trans hread)
        · cases (congrArg Option.isSome hnone).symm.trans hread
        · exact congrArg Option.isSome hrow
  | users users =>
      cases h
      exact hs.rows request hrequest hread

theorem spent_eq_zero {request : Request}
    (h : request.conversationID = id → ∀ message, request.work ≠ .ret (.ok message)) :
    request.spent id = 0 := by
  unfold Request.spent
  split
  · rename_i message hwork
    exact if_neg fun hid => h hid message hwork
  · rfl

theorem raise_eq_some {request : Request} {d : ℕ} (h : request.raise id = some d) :
    request.conversationID = id ∧ ∃ other total next usage,
      request.work = .call (.updateTotalTokens other total) next ∧
        request.known.usage = some usage ∧ d = usage.totalTokens.toNat := by
  obtain ⟨conversationID, work, known⟩ := request
  unfold Request.raise at h
  dsimp only at h ⊢
  split at h
  · rename_i other total next
    split_ifs at h with hid
    obtain ⟨usage, husage, hd⟩ := Option.map_eq_some_iff.mp h
    exact ⟨hid, other, total, next, usage, rfl, husage, hd.symm⟩
  · cases h

/-- The request that is done after a step, at its update. -/
theorem raiser_eq_some {op : Conversing.Op} {client : ℕ} {d : ℤ}
    (h : (counter cfg id).raiser s op = some (client, d)) :
    ∃ outcome request n, op = .call client outcome ∧ s.requests[client]? = some request ∧
      request.raise id = some n ∧ d = n := by
  cases op with
  | call r outcome =>
      change ((s.requests[r]?.bind (Request.raise id)).map fun n : ℕ => (r, (n : ℤ))) = _ at h
      obtain ⟨n, hn, hpair⟩ := Option.map_eq_some_iff.mp h
      obtain ⟨rfl, rfl⟩ := Prod.mk.inj hpair
      obtain ⟨request, hrequest, hraise⟩ := Option.bind_eq_some_iff.mp hn
      exact ⟨outcome, request, n, rfl, hrequest, hraise, rfl⟩
  | _ => cases h

theorem value_query {request : Request} {c : Call}
    {next : Call.Answer c → Async (Except Failure Message)} :
    (counter cfg id).value (s.query cfg r outcome request c next) =
      totalOf (respond cfg outcome c s.toWorld).2.db id := rfl

variable (cfg outcome) in
theorem totalOf_update {w : World} (read : UInt64) (usage : Usage)
    (hrow : (w.db.conversations id).isSome = true) :
    let total := read + usage.totalTokens.toUInt64
    let intended : ℤ := read.toNat + usage.totalTokens.toNat
    (outcome.unavailable = false ∧ InBigint intended →
      totalOf (respond cfg outcome (.updateTotalTokens id total) w).2.db id = intended) ∧
    (¬ (outcome.unavailable = false ∧ InBigint intended) →
      totalOf (respond cfg outcome (.updateTotalTokens id total) w).2.db id = totalOf w.db id ∨
        totalOf (respond cfg outcome (.updateTotalTokens id total) w).2.db id < intended) := by
  intro total intended
  obtain ⟨row, hrow⟩ := Option.isSome_iff_exists.mp hrow
  have hintended : intended = (read.toNat + usage.totalTokens.toNat : ℕ) := by
    rw [Nat.cast_add]
  have htotal : total.toNat = (read.toNat + usage.totalTokens.toNat) % 2 ^ 64 := by
    rw [UInt64.toNat_add, UInt32.toNat_toUInt64]
  by_cases hmade : outcome.unavailable = false ∧ InBigint total.toNat
  · have hwritten : totalOf (respond cfg outcome (.updateTotalTokens id total) w).2.db id =
        total.toNat := by
      rw [totalOf, conversations_update_made hmade.1 hmade.2, hrow]
      rfl
    rw [hwritten, htotal]
    constructor
    · intro hraised
      obtain ⟨-, hfits⟩ := hraised
      have hupper := hfits.2
      omega
    · intro hwide
      have hbig : ¬ InBigint intended := fun hfits => hwide ⟨hmade.1, hfits⟩
      have hlow := hmade.2.2
      unfold InBigint at hbig
      omega
  · rw [update_not_made hmade]
    refine ⟨fun hfits => absurd ⟨hfits.1, ?_⟩ hmade, fun _ => Or.inl rfl⟩
    have hupper := hfits.2.2
    rw [htotal]
    unfold InBigint
    omega

variable (outcome) in
theorem counter_raise {read : UInt64} {usage : Usage}
    {next : Except DbError Unit → Async (Except Failure Message)} (hs : Reading cfg s)
    (hbefore : s.requests[r]? = some ⟨id,
      .call (.updateTotalTokens id (read + usage.totalTokens.toUInt64)) next,
      ⟨some read, some usage⟩⟩) :
    let request : Request := ⟨id,
      .call (.updateTotalTokens id (read + usage.totalTokens.toUInt64)) next,
      ⟨some read, some usage⟩⟩
    let c := Call.updateTotalTokens id (read + usage.totalTokens.toUInt64)
    (counter cfg id).snapshot s r = some (read.toNat : ℤ) ∧
    ((counter cfg id).written s (.call r outcome) ↔ outcome.unavailable = false ∧
      InBigint (read.toNat + usage.totalTokens.toNat)) ∧
    spentOn id (s.query cfg r outcome request c next) = spentOn id s + usage.totalTokens.toNat := by
  intro request c
  have hread : request.read id = some (read.toNat : ℤ) := if_pos rfl
  have hraise : request.raise id = some usage.totalTokens.toNat := if_pos rfl
  refine ⟨?_, ?_, ?_⟩
  · show s.requests[r]?.bind (Request.read id) = _
    rw [hbefore]
    exact hread
  · constructor
    · intro hwritten
      obtain ⟨hup, request', v, d, hrequest, hv, hd, hfits⟩ := hwritten
      obtain rfl := Option.some.inj (hbefore.symm.trans hrequest)
      obtain rfl := Option.some.inj (hread.symm.trans hv)
      obtain rfl := Option.some.inj (hraise.symm.trans hd)
      exact ⟨hup, hfits⟩
    · intro hraised
      obtain ⟨hup, hfits⟩ := hraised
      exact ⟨hup, request, _, _, hbefore, hread, hraise, hfits⟩
  · have hstaged := hs.turn hbefore
    obtain ⟨-, read', usage', hknown, -, -, hdone⟩ := hstaged.of_update
    obtain ⟨message, hret⟩ := hdone (respond cfg outcome c s.toWorld).1
    rw [spentOn_query cfg id outcome hbefore rfl, Request.spent]
    dsimp only
    rw [hret]
    exact congrArg (spentOn id s + ·) (if_pos rfl)

section Turn

variable {c : Call} {next : Call.Answer c → Async (Except Failure Message)} {other : UUID}
  {known : Learnt}

variable (outcome) in
theorem counter_other (hs : Reading cfg s)
    (hbefore : s.requests[r]? = some ⟨other, .call c next, known⟩)
    (hraiser : (counter cfg id).raiser s (.call r outcome) = none) :
    (counter cfg id).due (s.query cfg r outcome ⟨other, .call c next, known⟩ c next) =
        (counter cfg id).due s ∧
      (counter cfg id).value (s.query cfg r outcome ⟨other, .call c next, known⟩ c next) =
        (counter cfg id).value s := by
  have hturn := hs.turn hbefore
  have hupdate : other = id → ∀ total, c ≠ .updateTotalTokens other total := by
    intro heq total heq'
    subst heq
    subst heq'
    obtain ⟨-, read, usage, rfl, -⟩ := hturn.of_update
    have hsome : (counter cfg other).raiser s (.call r outcome) =
        some (r, (usage.totalTokens.toNat : ℤ)) := by
      simp [counter, hbefore, Request.raise]
    cases hraiser.symm.trans hsome
  constructor
  · have hzero : Request.spent id ⟨other, next (respond cfg outcome c s.toWorld).1,
        known.learn cfg c (respond cfg outcome c s.toWorld).1⟩ = 0 := by
      apply spent_eq_zero
      intro hid message hdone
      obtain ⟨total, hc⟩ := (hturn.turn _).update_of_done hdone
      exact hupdate hid total hc
    have hspent := spentOn_query cfg id outcome hbefore rfl
    rw [hzero] at hspent
    exact congrArg Nat.cast hspent
  · rw [value_query]
    by_cases hc : ∃ total, c = .updateTotalTokens other total
    · obtain ⟨total, rfl⟩ := hc
      have hne : id ≠ other := fun hid => hupdate hid.symm total rfl
      rw [totalOf, conversations_update_of_ne hne]
      rfl
    · rw [totalOf, conversations_of_no_update hturn fun total h => hc ⟨total, h⟩]
      rfl

variable (outcome) in
/-- What a request has read is what it had read, or the total. -/
theorem counter_taken {client : ℕ} {v : ℤ} (hs : Reading cfg s)
    (hbefore : s.requests[r]? = some ⟨other, .call c next, known⟩)
    (hsnapshot : (counter cfg id).snapshot
      (s.query cfg r outcome ⟨other, .call c next, known⟩ c next) client = some v) :
    (counter cfg id).snapshot s client = some v ∨
      v ≤ (counter cfg id).value (s.query cfg r outcome ⟨other, .call c next, known⟩ c next) := by
  obtain ⟨request, hrequest, hread⟩ := Option.bind_eq_some_iff.mp hsnapshot
  by_cases hclient : client = r
  · subst hclient
    have hlength := (List.getElem?_eq_some_iff.mp hbefore).1
    obtain rfl := Option.some.inj ((List.getElem?_set_self hlength).symm.trans hrequest)
    unfold Request.read at hread
    split_ifs at hread with hid
    obtain ⟨total, htotal, rfl⟩ := Option.map_eq_some_iff.mp hread
    dsimp only at hid htotal
    subst hid
    rcases learn_total outcome s.toWorld (hs.turn hbefore) with
      hsame | hnone | ⟨row, hrow, hnonneg, hrow', hworld⟩
    · apply Or.inl
      have hknown := hsame.symm.trans htotal
      simp [counter, hbefore, Request.read, hknown]
    · cases hnone.symm.trans htotal
    · apply Or.inr
      obtain rfl := Option.some.inj (hrow'.symm.trans htotal)
      rw [value_query, hworld, totalOf, hrow]
      have hle : (UInt64.ofNat row.totalTokens.toNat).toNat ≤ row.totalTokens.toNat := by
        rw [UInt64.toNat_ofNat']
        exact Nat.mod_le _ _
      simp only [Option.map_some, Option.getD_some]
      omega
  · apply Or.inl
    have hsame := (List.getElem?_set_ne (Ne.symm hclient)).symm.trans hrequest
    exact Option.bind_eq_some_iff.mpr ⟨request, hsame, hread⟩

theorem snapshot_started {model content : String} {client : ℕ} {v : ℤ}
    (hsnapshot : (s.requests ++ [⟨other, addMessageAndCallChat cfg other model content,
      ⟨none, none⟩⟩])[client]?.bind (Request.read id) = some v) :
    (counter cfg id).snapshot s client = some v := by
  rcases Nat.lt_or_ge client s.requests.length with hold | hnew
  · rwa [List.getElem?_append_left hold] at hsnapshot
  · rw [List.getElem?_append_right hnew] at hsnapshot
    obtain ⟨request, hrequest, hread⟩ := Option.bind_eq_some_iff.mp hsnapshot
    have hmem := List.mem_of_getElem? hrequest
    rw [List.mem_singleton.mp hmem] at hread
    simp [Request.read] at hread

end Turn

theorem counter_lawful (cfg : Config) (id : UUID) : (counter cfg id).Lawful (Reading cfg) where
  raise {s op s' client d} hs h hraiser := by
    obtain ⟨outcome, request, n, rfl, hrequest, hraise, rfl⟩ := raiser_eq_some hraiser
    obtain ⟨id', c, next, known, hbefore, rfl⟩ := call_turn h
    obtain rfl := Option.some.inj (hbefore.symm.trans hrequest)
    obtain ⟨rfl, other, total, _, usage, hwork, husage, rfl⟩ := raise_eq_some hraise
    cases hwork
    obtain ⟨rfl, read, usage', rfl, hvalid, rfl, hdone⟩ := (hs.turn hbefore).of_update
    cases husage
    have hpos : usage.totalTokens.toNat ≠ 0 := fun hzero => hvalid (UInt32.toNat_inj.mp hzero)
    obtain ⟨hsnapshot, hwritten, hspent⟩ := counter_raise outcome hs hbefore
    have hrow := hs.rows _ (List.mem_of_getElem? hbefore) rfl
    obtain ⟨hmade, hlost⟩ := totalOf_update cfg outcome read usage hrow
    refine ⟨by omega, congrArg Nat.cast hspent, _, hsnapshot, ?_, ?_⟩
    · rw [value_query, hwritten]
      exact hmade
    · rw [value_query, hwritten]
      exact hlost
  other {s op s'} hs h hraiser := by
    cases op with
    | start other model content =>
        cases h
        refine ⟨?_, rfl⟩
        have hnew : Request.spent id ⟨other, addMessageAndCallChat cfg other model content,
            ⟨none, none⟩⟩ = 0 := rfl
        simp only [counter, spentOn, List.map_append, List.map_cons, List.map_nil,
          List.sum_append, List.sum_cons, List.sum_nil, hnew, Nat.add_zero]
    | call r outcome =>
        obtain ⟨other, c, next, known, hbefore, rfl⟩ := call_turn h
        exact counter_other outcome hs hbefore hraiser
    | users users =>
        cases h
        exact ⟨rfl, rfl⟩
  taken {s op s' client v} hs h hsnapshot := by
    cases op with
    | start other model content =>
        cases h
        exact Or.inl (snapshot_started hsnapshot)
    | call r outcome =>
        obtain ⟨other, c, next, known, hbefore, rfl⟩ := call_turn h
        exact counter_taken outcome hs hbefore hsnapshot
    | users users =>
        cases h
        exact Or.inl hsnapshot

theorem undisturbed_iff {op : Conversing.Op} :
    (counter cfg id).Fresh s op ↔ Undisturbed id s op := by
  cases op with
  | start other model content => exact iff_of_true (fun _ _ h => by cases h) trivial
  | users users => exact iff_of_true (fun _ _ h => by cases h) trivial
  | call r outcome =>
      constructor
      · intro hfresh request d hrequest hraise
        have hraiser : (counter cfg id).raiser s (.call r outcome) = some (r, (d : ℤ)) := by
          simp [counter, hrequest, hraise]
        obtain ⟨⟨hup, request', v, d', hrequest', hread, hraise', hfits⟩, hcurrent⟩ :=
          hfresh r d hraiser
        obtain rfl := Option.some.inj (hrequest.symm.trans hrequest')
        obtain rfl := Option.some.inj (hraise.symm.trans hraise')
        obtain ⟨request', hrequest', hcurrent⟩ := Option.bind_eq_some_iff.mp hcurrent
        obtain rfl := Option.some.inj (hrequest.symm.trans hrequest')
        obtain rfl := Option.some.inj (hread.symm.trans hcurrent)
        exact ⟨hup, hfits, hread⟩
      · intro hundisturbed client d hraiser
        obtain ⟨outcome', request, n, hop, hrequest, hraise, rfl⟩ := raiser_eq_some hraiser
        cases hop
        obtain ⟨hup, hfits, hread⟩ := hundisturbed request n hrequest hraise
        refine ⟨⟨hup, request, _, n, hrequest, hread, hraise, hfits⟩, ?_⟩
        exact Option.bind_eq_some_iff.mpr ⟨request, hrequest, hread⟩

end Counters

/-- After a run the total has grown by the usages of the requests that have returned an answer. -/
def UsageKept (cfg : Config) (id : UUID) (w : World) (ops : List Conversing.Op) : Prop :=
  totalOf ((conversing cfg).run ⟨w, [], []⟩ ops).db id =
    totalOf w.db id + spentOn id ((conversing cfg).run ⟨w, [], []⟩ ops)

/-- No usage is lost exactly when no update came between the read and the update of a request. -/
theorem usage_kept_iff (cfg : Config) (id : UUID) (w : World) (ops : List Conversing.Op) :
    UsageKept cfg id w ops ↔ (conversing cfg).Throughout (Undisturbed id) ⟨w, [], []⟩ ops := by
  have hreading : Reading cfg ⟨w, [], []⟩ := by
    constructor
    · intro request hrequest
      cases hrequest
    · intro request hrequest
      cases hrequest
  have hexact : Counter.Exact (counter cfg id) (totalOf w.db id) ⟨w, [], []⟩ := by
    refine ⟨(add_zero _).symm, fun client v hv => ?_⟩
    cases hv
  have hiff : (counter cfg id).Fresh = Undisturbed id := by
    funext s op
    exact propext undisturbed_iff
  rw [← hiff]
  exact (counter_lawful cfg id).run_iff reading_step hreading hexact ops

/-! ### Two questions at once -/

namespace Sample

def asks (id : UUID) : Conversing.Op := .start id "deepseek-r1" "hi"

/-- The reads of a request and its call of the chat service. -/
def reads (r : ℕ) : List Conversing.Op :=
  [.call r done, .call r done, .call r done, .call r answered]

/-- The inserts, the publication and the update. -/
def saves (r : ℕ) : List Conversing.Op :=
  [.call r done, .call r done, .call r published, .call r done]

/-- A request that has read a total of zero and been told its usage. -/
def told : Request := ⟨convoID, saving 500, ⟨some 0, some usage⟩⟩

section Reads

variable {r : ℕ} {relay : List Event} {requests : List Request} {log : List (ℕ × Message)}

/-- Requests on the one conversation, with nothing stored yet. -/
def reader (requests : List Request) (relay : List Event) (log : List (ℕ × Message)) : Conversing :=
  ⟨⟨holding 500 [], relay⟩, requests, log⟩

theorem step_turn {s : Conversing} {request : Request} {outcome : Outcome}
    (h : s.requests[r]? = some request) : (conversing cfg).step s (.call r outcome) =
      match request with
      | ⟨id, .call c next, known⟩ => some (s.query cfg r outcome ⟨id, .call c next, known⟩ c next)
      | _ => none := by
  simp only [conversing, h]
  obtain ⟨id, work, known⟩ := request
  cases work <;> rfl

theorem step_history (h : requests[r]? = some ⟨convoID, asking, ⟨none, none⟩⟩) :
    (conversing cfg).step (reader requests relay log) (.call r done) =
      some (reader (requests.set r ⟨convoID, reading, ⟨none, none⟩⟩) relay log) :=
  (step_turn h).trans rfl

theorem step_conversation (h : requests[r]? = some ⟨convoID, reading, ⟨none, none⟩⟩) :
    (conversing cfg).step (reader requests relay log) (.call r done) =
      some (reader (requests.set r ⟨convoID, charging, ⟨some 0, none⟩⟩) relay log) :=
  (step_turn h).trans rfl

theorem step_user (h : requests[r]? = some ⟨convoID, charging, ⟨some 0, none⟩⟩) :
    (conversing cfg).step (reader requests relay log) (.call r done) =
      some (reader (requests.set r ⟨convoID, chatting 500, ⟨some 0, none⟩⟩) relay log) :=
  (step_turn h).trans rfl

variable (relay log) in
/-- The lines stay a variable here: nothing may evaluate them. -/
theorem step_lines (lines : List String)
    (h : requests[r]? = some ⟨convoID, chatting 500, ⟨some 0, none⟩⟩) :
    (conversing cfg).step (reader requests relay log)
        (.call r ⟨false, some ⟨lines, false⟩, none, 0, 0⟩) =
      some (reader (requests.set r ⟨convoID, (do
        streamAll (streamed (responses cfg.decodeChunk lines))
        saveAndPublish convoID "hi" conversation (user 500) (responses cfg.decodeChunk lines)),
        ⟨some 0, finalUsage (responses cfg.decodeChunk lines)⟩⟩) relay log) := by
  have hroom : ¬ remainingContextTokens cfg conversation < 1 := by decide
  have hfunded : ¬ (user 500).tokens < 1 := by decide
  rw [chatting, callChat, if_neg hroom, if_neg hfunded] at h
  exact (step_turn h).trans rfl

theorem step_told (h : requests[r]? = some ⟨convoID, chatting 500, ⟨some 0, none⟩⟩) :
    (conversing cfg).step (reader requests relay log) (.call r answered) =
      some (reader (requests.set r told) relay log) := by
  have hlines : responses cfg.decodeChunk upstream.lines = received := responses_upstream
  have hstep := step_lines relay log upstream.lines h
  rw [hlines] at hstep
  exact hstep

theorem run_reads (h : requests[r]? = some ⟨convoID, asking, ⟨none, none⟩⟩) :
    (conversing cfg).run (reader requests relay log) (reads r) =
      reader (requests.set r told) relay log := by
  have hlength := (List.getElem?_eq_some_iff.mp h).1
  rw [reads, run_cons_of_step (step_history h),
    run_cons_of_step (step_conversation (List.getElem?_set_self hlength)), List.set_set,
    run_cons_of_step (step_user (List.getElem?_set_self hlength)), List.set_set,
    run_cons_of_step (step_told (List.getElem?_set_self hlength)), List.set_set, run_nil]

end Reads

theorem run_both_read : (conversing cfg).run (reader [] [] [])
    ([asks convoID, asks convoID] ++ reads 0 ++ reads 1) = reader [told, told] [] [] := by
  have hstart : (conversing cfg).run (reader [] [] []) [asks convoID, asks convoID] =
      reader [⟨convoID, asking, ⟨none, none⟩⟩, ⟨convoID, asking, ⟨none, none⟩⟩] [] [] := rfl
  rw [run_append, run_append, hstart, run_reads rfl, List.set_cons_zero, run_reads rfl]
  rfl

def overlapping : List Conversing.Op :=
  [asks convoID, asks convoID] ++ reads 0 ++ reads 1 ++ (saves 0 ++ saves 1)

/-- Two requests return their answers, of eleven tokens each, and the total is eleven. -/
theorem usage_lost :
    (∀ request ∈ ((conversing cfg).run ⟨⟨holding 500 [], []⟩, [], []⟩ overlapping).requests,
      ∃ message, request.work = .ret (.ok message)) ∧
    ¬ UsageKept cfg convoID ⟨holding 500 [], []⟩ overlapping := by
  have hrun : (conversing cfg).run ⟨⟨holding 500 [], []⟩, [], []⟩ overlapping =
      (conversing cfg).run (reader [told, told] [] []) (saves 0 ++ saves 1) := by
    rw [← run_both_read, ← run_append]
    rfl
  have hrequests : ((conversing cfg).run (reader [told, told] [] [])
      (saves 0 ++ saves 1)).requests =
        [⟨convoID, .ret (.ok answer), ⟨some 0, some usage⟩⟩,
          ⟨convoID, .ret (.ok answer), ⟨some 0, some usage⟩⟩] := rfl
  have htotal : totalOf ((conversing cfg).run (reader [told, told] [] [])
      (saves 0 ++ saves 1)).db convoID = 11 := rfl
  have hspent : spentOn convoID ((conversing cfg).run (reader [told, told] [] [])
      (saves 0 ++ saves 1)) = 22 := rfl
  constructor
  · rw [hrun, hrequests]
    intro request hrequest
    refine ⟨answer, ?_⟩
    rcases List.mem_pair.mp hrequest with rfl | rfl <;> rfl
  · have hbefore : totalOf (holding 500 []) convoID = 0 := rfl
    rw [UsageKept, hrun, htotal, hspent, hbefore]
    decide

end Sample

end DsProxy.Backend
