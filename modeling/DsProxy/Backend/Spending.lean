import DsProxy.Backend.Balance
import DsProxy.Backend.Ledger

/-!
# What users have consumed

The listener adds the negation of a negative amount to what the user has consumed. The negation is a
word as wide as the amount, the sum has to fit the column, and an update that fails is passed over.
Events come one after the other, from any author, and the database may fail at any call.
-/

namespace DsProxy.Backend

open Relay Runs System

/-- The listener, event by event, with what the environment contributes to the calls of each. -/
def hearing (cfg : Config) : System World (Event × (Call → Outcome)) where
  step w op := some (heard cfg op.1 op.2 w)

/-- The `tokens_consumed` column of a user's row. -/
def consumption (db : Db) (u : String) : Option ℤ := (db.users u).map UserRow.tokensConsumed

/-- What an event takes from a user, as an integer. -/
def taken (cfg : Config) (event : Event) (u : String) : ℤ :=
  match cfg.unmarshal event.content with
  | some ⟨some transaction⟩ =>
    if u = transaction.user then max 0 (-transaction.tokens.toInt) else 0
  | _ => 0

/-- Each event adds to what its user has consumed exactly what it takes, and no one's consumption
ever falls. -/
structure OnlyGrows (cfg : Config) (w₀ : World) (ops : List (Event × (Call → Outcome))) : Prop where
  adds : ∀ {i op w w'}, StepAt (hearing cfg) w₀ ops i op w w' → ∀ u,
    consumption w'.db u = (consumption w.db u).map (· + taken cfg op.1 u)
  mono : ∀ {m n}, m ≤ n → ∀ {u before},
    consumption ((hearing cfg).run w₀ (ops.take m)).db u = some before →
      ∃ after, consumption ((hearing cfg).run w₀ (ops.take n)).db u = some after ∧ before ≤ after

/-- A debit of a row is not the least number, and its update succeeds. -/
def Counted (cfg : Config) (w : World) (op : Event × (Call → Outcome)) : Prop :=
  ∀ transaction row, IsTransaction cfg op.1 transaction → transaction.tokens < 0 →
    w.db.users transaction.user = some row →
      transaction.tokens ≠ Int64.minValue ∧ (op.2 (update transaction)).unavailable = false ∧
        InBigint (row.tokens + transaction.tokens.toInt) ∧
        InBigint (row.tokensConsumed - transaction.tokens.toInt)

variable {cfg : Config} {event : Event} {transaction : Transaction} {outcome : Call → Outcome}
  {w w' : World} {ops : List (Event × (Call → Outcome))}

/-! ### One event -/

theorem taken_of_transaction (h : IsTransaction cfg event transaction) (u : String) :
    taken cfg event u = if u = transaction.user then max 0 (-transaction.tokens.toInt) else 0 := by
  rw [taken, h]

theorem taken_nonneg (cfg : Config) (event : Event) (u : String) : 0 ≤ taken cfg event u := by
  unfold taken
  split
  · split_ifs
    · exact le_max_left ..
    · exact le_refl 0
  · exact le_refl 0

theorem entry_snd (event : TransactionEvent) : (entry event).2 = max 0 (-event.tokens.toInt) := by
  have hsign : event.tokens < 0 ↔ event.tokens.toInt < 0 := by
    simpa using Int64.lt_iff_toInt_lt (x := event.tokens) (y := 0)
  simp only [entry, hsign]
  split_ifs <;> omega

/-- What the listener adds is what the event takes, except for the least number. -/
theorem toInt_consumed_iff (event : Event) (transaction : Transaction) :
    (consumed transaction).toInt = max 0 (-transaction.tokens.toInt) ↔
      transaction.tokens ≠ Int64.minValue := by
  have htaken : (entry (row event transaction)).2 = max 0 (-transaction.tokens.toInt) :=
    entry_snd _
  rw [← htaken]
  exact consumed_eq_entry_iff event transaction

theorem consumption_updateUserTokens {db db' : Db} {publicKey : String} {tokens consumed : Int64}
    (h : db.updateUserTokens publicKey tokens consumed = .ok db') (u : String) :
    consumption db' u =
      (consumption db u).map (· + if u = publicKey then consumed.toInt else 0) :=
  map_updateUserTokens (fun _ => rfl) h u

/-- Two amounts added for one user come to the same when they are the same, or there is no such
user. -/
theorem map_add_iff {column : String → Option ℤ} {user : String} {a b : ℤ} :
    (∀ u, (column u).map (· + if u = user then a else 0) =
      (column u).map (· + if u = user then b else 0)) ↔ (column user ≠ none → a = b) := by
  constructor
  · intro hall hknown
    obtain ⟨n, hn⟩ := Option.ne_none_iff_exists'.mp hknown
    have huser := hall user
    rw [hn, if_pos rfl, if_pos rfl] at huser
    exact add_left_cancel (Option.some.inj huser)
  · intro hsame u
    cases hu : column u with
    | none => rfl
    | some n =>
        split_ifs with heq
        · rw [hsame (by rw [← heq, hu]; exact Option.some_ne_none n)]
        · rfl

variable (outcome w) in
theorem heard_consumption (h : IsTransaction cfg event transaction) : ∃ added : ℤ,
    (∀ u, consumption (heard cfg event outcome w).db u =
      (consumption w.db u).map (· + if u = transaction.user then added else 0)) ∧
    (¬ TakesEffect (outcome (update transaction)) transaction w.db ∧ added = 0 ∨
      TakesEffect (outcome (update transaction)) transaction w.db ∧
        added = (consumed transaction).toInt) := by
  have hheard : heard cfg event outcome w = (respond cfg (outcome (update transaction))
      (update transaction) (respond cfg (outcome (save event transaction))
        (save event transaction) w).2).2 := heard_transaction h
  rw [hheard]
  generalize hmid : (respond cfg _ (save event transaction) w).2 = mid
  have husers : mid.db.users = w.db.users := hmid ▸ users_saveTransactionEvent _
  have hconsumption (u : String) : consumption mid.db u = consumption w.db u := by
    rw [consumption, consumption, husers]
  have htakes : TakesEffect (outcome (update transaction)) transaction mid.db ↔
      TakesEffect (outcome (update transaction)) transaction w.db := by
    unfold TakesEffect
    rw [husers]
  obtain ⟨users, hworld, heffect⟩ :=
    respond_update cfg (outcome (update transaction)) transaction mid
  have hrespond : respond cfg (outcome (update transaction)) (update transaction) mid =
      ((respond cfg (outcome (update transaction)) (update transaction) mid).1,
        { mid with db := { mid.db with users := users } }) := Prod.ext rfl hworld
  rw [← htakes, hworld]
  by_cases heffective : TakesEffect (outcome (update transaction)) transaction mid.db
  · refine ⟨(consumed transaction).toInt, fun u => ?_, Or.inr ⟨heffective, rfl⟩⟩
    rcases respond_updateUserTokens hrespond with ⟨e, -, hleft⟩ | ⟨db, hdb, -, hdone⟩
    · exact absurd (congrArg (·.db.users) hleft) (heffect.mpr heffective)
    · rw [hdone, ← hconsumption]
      exact consumption_updateUserTokens hdb u
  · refine ⟨0, fun u => ?_, Or.inl ⟨heffective, rfl⟩⟩
    have hsame : users = mid.db.users := not_not.mp fun hchanged => heffective (heffect.mp hchanged)
    rw [hsame, ite_self, ← hconsumption]
    simp

theorem heard_other (h : ∀ transaction, ¬ IsTransaction cfg event transaction) :
    heard cfg event outcome w = w := by
  rw [heard, onEvent_other h]
  rfl

theorem taken_other (h : ∀ transaction, ¬ IsTransaction cfg event transaction) (u : String) :
    taken cfg event u = 0 := by
  unfold taken
  split
  · rename_i transaction hmessage
    exact absurd hmessage (h transaction)
  · rfl

theorem toInt_neg_of_debit (h : transaction.tokens < 0) : transaction.tokens.toInt < 0 := by
  simpa using Int64.lt_iff_toInt_lt.mp h

theorem counted_iff (h : IsTransaction cfg event transaction) :
    Counted cfg w (event, outcome) ↔
      (transaction.tokens < 0 → w.db.users transaction.user ≠ none →
        transaction.tokens ≠ Int64.minValue ∧
          TakesEffect (outcome (update transaction)) transaction w.db) := by
  have hsum {row : UserRow} (hdebit : transaction.tokens < 0)
      (hmin : transaction.tokens ≠ Int64.minValue) :
      row.tokensConsumed + (consumed transaction).toInt =
        row.tokensConsumed - transaction.tokens.toInt := by
    have hnegative := toInt_neg_of_debit hdebit
    rw [(toInt_consumed_iff event transaction).mpr hmin]
    omega
  constructor
  · intro hcounted hdebit hknown
    obtain ⟨row, hrow⟩ := Option.ne_none_iff_exists'.mp hknown
    obtain ⟨hmin, hup, htokens, hrange⟩ := hcounted _ row h hdebit hrow
    have hnonzero : transaction.tokens ≠ 0 := by
      intro hzero
      rw [hzero] at hdebit
      exact absurd hdebit (by decide)
    exact ⟨hmin, hup, hnonzero, row, hrow, htokens, (hsum hdebit hmin).symm ▸ hrange⟩
  · intro heffect transaction' row h' hdebit hrow
    cases h.symm.trans h'
    obtain ⟨hmin, hup, -, row', hrow', htokens, hrange⟩ :=
      heffect hdebit (hrow ▸ Option.some_ne_none row)
    obtain rfl : row = row' := Option.some.inj (hrow.symm.trans hrow')
    exact ⟨hmin, hup, htokens, hsum hdebit hmin ▸ hrange⟩

theorem adds_iff_counted : (∀ u, consumption (heard cfg event outcome w).db u =
    (consumption w.db u).map (· + taken cfg event u)) ↔ Counted cfg w (event, outcome) := by
  by_cases htransaction : ∃ transaction, IsTransaction cfg event transaction
  · obtain ⟨transaction, h⟩ := htransaction
    obtain ⟨added, hadded, hcase⟩ := heard_consumption outcome w h
    have hknown : consumption w.db transaction.user ≠ none ↔
        w.db.users transaction.user ≠ none := by
      rw [consumption, ne_eq, Option.map_eq_none_iff]
    simp only [hadded, taken_of_transaction h]
    rw [map_add_iff, hknown, counted_iff h]
    rcases hcase with ⟨hnot, rfl⟩ | ⟨heffect, rfl⟩
    · constructor
      · intro hnothing hdebit hrow
        have hnegative := toInt_neg_of_debit hdebit
        have hzero := hnothing hrow
        omega
      · intro hcounted hrow
        by_contra hamount
        have hdebit : transaction.tokens < 0 := by
          rw [Int64.lt_iff_toInt_lt, Int64.toInt_zero]
          omega
        exact hnot (hcounted hdebit hrow).2
    · rw [toInt_consumed_iff event]
      constructor
      · intro hmin hdebit hrow
        exact ⟨hmin hrow, heffect⟩
      · rintro hcounted hrow hmin
        exact (hcounted (by rw [hmin]; decide) hrow).1 hmin
  · have hnone : ∀ transaction, ¬ IsTransaction cfg event transaction := fun t ht =>
      htransaction ⟨t, ht⟩
    refine iff_of_true (fun u => ?_) fun transaction _ h => absurd h (hnone transaction)
    rw [heard_other hnone, taken_other hnone]
    simp

/-! ### Runs -/

/-- What every event adds exactly, the whole run never takes back. -/
theorem consumption_mono (hadds : ∀ {i op w' w''}, StepAt (hearing cfg) w ops i op w' w'' →
    ∀ u, consumption w''.db u = (consumption w'.db u).map (· + taken cfg op.1 u)) {m n : ℕ}
    (hmn : m ≤ n) {u : String} {before : ℤ}
    (hbefore : consumption ((hearing cfg).run w (ops.take m)).db u = some before) :
    ∃ after, consumption ((hearing cfg).run w (ops.take n)).db u = some after ∧
      before ≤ after := by
  refine run_take_rel (M := hearing cfg) (R := fun w w' => ∀ before,
    consumption w.db u = some before → ∃ after, consumption w'.db u = some after ∧ before ≤ after)
    (fun w before hbefore => ⟨before, hbefore, le_refl before⟩) ?_ ?_ hmn before hbefore
  · intro w₁ w₂ w₃ hfirst hsecond before hbefore
    obtain ⟨middle, hmiddle, hle⟩ := hfirst before hbefore
    obtain ⟨after, hafter, hle'⟩ := hsecond middle hmiddle
    exact ⟨after, hafter, le_trans hle hle'⟩
  · intro i op w' w'' hstep before hbefore
    refine ⟨before + taken cfg op.1 u, ?_, ?_⟩
    · rw [hadds hstep u, hbefore, Option.map_some]
    · have hnonneg := taken_nonneg cfg op.1 u
      omega

variable (cfg w ops) in
/-- Consumption only grows, by what each event takes, exactly when every event is counted. -/
theorem only_grows_iff : OnlyGrows cfg w ops ↔ (hearing cfg).Throughout (Counted cfg) w ops := by
  rw [throughout_iff_stepAt]
  have hstep {i op w' w''} (h : StepAt (hearing cfg) w ops i op w' w'') :
      (∀ u, consumption w''.db u = (consumption w'.db u).map (· + taken cfg op.1 u)) ↔
        Counted cfg w' op := by
    rw [← Option.some.inj h.step]
    exact adds_iff_counted
  constructor
  · intro hgrows i op w' w'' h
    exact (hstep h).mp (hgrows.adds h)
  · intro hcounted
    have hadds {i op w' w''} (h : StepAt (hearing cfg) w ops i op w' w'') :=
      (hstep h).mpr (hcounted i op w' w'' h)
    exact ⟨hadds, consumption_mono hadds⟩

namespace Sample

/-- The debit of the least number. -/
def greatest : Transaction := ⟨userPubkey, Int64.minValue⟩

def greatestEvent : Event :=
  transactionEvent Sample.cfg greatest ⟨Vector.replicate 32 6, 1735000000⟩

def debited : List (Event × (Call → Outcome)) := [(greatestEvent, fun _ => done)]

end Sample

/-- From a row of a thousand tokens the debit of `-2 ^ 63` takes the consumption down by as much. -/
theorem consumption_wraps :
    (subscription Sample.cfg).accepts Sample.greatestEvent = true ∧
    consumption (Sample.holding 1000 []) Sample.userPubkey = some 0 ∧
    consumption ((hearing Sample.cfg).run ⟨Sample.holding 1000 [], []⟩ Sample.debited).db
      Sample.userPubkey = some (-2 ^ 63) ∧
    ¬ OnlyGrows Sample.cfg ⟨Sample.holding 1000 [], []⟩ Sample.debited := by
  have hread : IsTransaction Sample.cfg Sample.greatestEvent Sample.greatest :=
    Sample.unmarshal_marshal Sample.greatest
  have hrow : (Sample.holding 1000 []).users Sample.greatest.user = some ⟨1000, 0⟩ := rfl
  have htokens : InBigint (1000 + Sample.greatest.tokens.toInt) := by decide
  have hconsumed : InBigint (0 + (consumed Sample.greatest).toInt) := by decide
  have hdebited := heard_users (w := ⟨Sample.holding 1000 [], []⟩) hread
    (fun _ : Call => (rfl : Sample.done.unavailable = false)) hrow htokens hconsumed
  have hafter : consumption ((hearing Sample.cfg).run ⟨Sample.holding 1000 [], []⟩
      Sample.debited).db Sample.userPubkey = some (-2 ^ 63) := by
    apply (congrArg (Option.map UserRow.tokensConsumed) hdebited).trans
    decide
  refine ⟨?_, rfl, hafter, fun hgrows => ?_⟩
  · simp [subscription, Filter.accepts, Event.hasTag, Sample.greatestEvent, transactionEvent,
      Event.posted, Sample.cfg]
  · have hbefore : consumption (Sample.holding 1000 []) Sample.userPubkey = some 0 := rfl
    obtain ⟨after, hlater, hle⟩ := hgrows.mono (Nat.zero_le 1) hbefore
    obtain rfl := Option.some.inj (hafter.symm.trans hlater)
    omega

end DsProxy.Backend
