import DsProxy.BalancePayment.Rent
import DsProxy.BalancePayment.Settling

/-!
# The way out of a vault

What the bot does not pay out of a user's locks stays the user's. Once it has settled them, each for
whatever amount it chooses, nothing of the vault is set aside and one withdrawal empties it. The
program accepts all of this; the runtime may still refuse a step for rent, and no longer does once
somebody has sent the rent minimum to the vault and to each of the locks.
-/

namespace DsProxy.BalancePayment

open Accounts Runs

variable {R : Runtime} {s s' : Accounts} {u : Key} {account : UserAccount}

/-- The nonces of a user's open locks, all of them below the user's own. -/
def openLocks (s : Accounts) (u : Key) (account : UserAccount) : List UInt64 :=
  ((List.range account.nonce.toNat).map UInt64.ofNat).filter fun n =>
    (s.data (lockAddress u n)).lock?.isSome

theorem nodup_openLocks : (openLocks s u account).Nodup := by
  apply List.Nodup.filter
  refine List.Nodup.map_on (fun m hm n hn h => ?_) List.nodup_range
  have hlt := account.nonce.toNat_lt
  rw [List.mem_range] at hm hn
  have htoNat := congrArg UInt64.toNat h
  rwa [UInt64.toNat_ofNat_of_lt' (hm.trans hlt), UInt64.toNat_ofNat_of_lt' (hn.trans hlt)] at htoNat

theorem mem_openLocks {e : Escrow} (tracks : Tracks s u account e) {n : UInt64} :
    n ∈ openLocks s u account ↔ ∃ lockAccount, s.data (lockAddress u n) = .lock lockAccount := by
  rw [openLocks, List.mem_filter, Option.isSome_iff_exists]
  simp only [AccountData.lock?_eq_some]
  constructor
  · exact And.right
  · rintro ⟨lockAccount, hlock⟩
    refine ⟨List.mem_map.mpr ⟨n.toNat, List.mem_range.mpr ?_, UInt64.ofNat_toNat⟩, lockAccount,
      hlock⟩
    rw [tracks.nonce]
    exact Escrow.lt_next_of_held (holds_lock.mp (hlock ▸ tracks.locks n))

namespace Settling

variable {c : Settling}

/-- Settle the user's locks at these nonces. -/
def settles (u : Key) (nonces : List UInt64) : List Item := nonces.map (Item.settle u)

theorem lock?_settles (u : Key) (nonces : List UInt64) :
    (settles u nonces).filterMap Item.lock? = nonces.map (u, ·) := by
  rw [settles, List.filterMap_map]
  exact congrFun List.filterMap_eq_map nonces

/-- What is paid out of the locks. -/
def paidOut (c : Settling) (u : Key) (nonces : List UInt64) : ℕ :=
  if c.treasury = vaultAddress u then 0 else (nonces.map fun n => (c.amount u n).toNat).sum

theorem paidOut_nil : c.paidOut u [] = 0 := by
  unfold paidOut
  split_ifs <;> rfl

theorem paidOut_cons (n : UInt64) (nonces : List UInt64) :
    c.paidOut u (n :: nonces) =
      (if c.treasury = vaultAddress u then 0 else (c.amount u n).toNat) + c.paidOut u nonces := by
  unfold paidOut
  split_ifs
  · rfl
  · rw [List.map_cons, List.sum_cons]

/-- One settle: its lock is gone, the other locks are as they were, and its amount has left. -/
structure Settled (c : Settling) (u : Key) (nonces : List UInt64) (s s' : Accounts) : Prop where
  locks : ∀ n, s'.data (lockAddress u n) =
    if n ∈ nonces then .empty else s.data (lockAddress u n)
  vault : s'.balance (vaultAddress u) + c.paidOut u nonces = s.balance (vaultAddress u)
  registered : ∀ {account}, s.data (userAddress u) = .user account →
    ∃ updated, s'.data (userAddress u) = .user updated

theorem settled_step {n : UInt64} (h : (c.system R).step s (.settle u n) = some s') :
    c.Settled u [n] s s' where
  locks m := by
    rw [step_effect h, effect, data_closeLock, if_neg userAddress_ne_lock.symm]
    simp only [lockAddress_inj, true_and, List.mem_singleton]
    rfl
  vault := by
    change (BalancePayment.system R).step s (.invoke c.ctx (.settle (c.accounts u n) n
      (c.amount u n))) = some s' at h
    cases step_done h with
    | settle globalAccount account updated lockAccount done =>
        obtain ⟨mid, hpaid, hclosed⟩ := done.moved
        have htreasury : c.treasury = globalAccount.treasury := done.toTreasury
        have hpaid : mid.balance (vaultAddress u) + (c.amount u n).toNat =
            s.balance (vaultAddress u) +
              if vaultAddress u = c.treasury then (c.amount u n).toNat else 0 := by
          have hvault := hpaid (vaultAddress u)
          rw [← htreasury] at hvault
          exact (congrArg (_ + ·) (if_pos rfl).symm).trans hvault
        have hclosed : s'.balance (vaultAddress u) = mid.balance (vaultAddress u) := by
          have hvault := hclosed (vaultAddress u)
          rwa [if_neg vaultAddress_ne_lock, if_neg key_ne_vault.symm, Nat.add_zero,
            Nat.add_zero] at hvault
        rw [hclosed, paidOut_cons, paidOut_nil]
        by_cases hself : c.treasury = vaultAddress u
        · rw [if_pos hself.symm] at hpaid
          rw [if_pos hself]
          omega
        · rw [if_neg (Ne.symm hself)] at hpaid
          rw [if_neg hself]
          exact hpaid
  registered huser := by
    change (BalancePayment.system R).step s (c.op (.settle u n)) = some s' at h
    obtain ⟨updated, hupdated, -⟩ := user_of_step h huser
    exact ⟨updated, hupdated⟩

theorem Settled.trans {n : UInt64} {nonces : List UInt64} {mid : Accounts}
    (first : c.Settled u [n] s mid) (rest : c.Settled u nonces mid s') :
    c.Settled u (n :: nonces) s s' where
  locks m := by
    rw [rest.locks, first.locks]
    simp only [List.mem_cons, List.not_mem_nil, or_false]
    by_cases hm : m ∈ nonces
    · rw [if_pos hm, if_pos (Or.inr hm)]
    · rw [if_neg hm]
      exact if_congr (or_iff_left hm).symm rfl rfl
  vault := by
    have hfirst := first.vault
    have hrest := rest.vault
    rw [paidOut_cons, paidOut_nil] at hfirst
    rw [paidOut_cons]
    omega
  registered huser := by
    obtain ⟨updated, hupdated⟩ := first.registered huser
    exact rest.registered hupdated

theorem Ready.run_settles {nonces : List UInt64} (h : c.Ready R s (settles u nonces)) :
    (c.system R).accepted s (settles u nonces) = settles u nonces ∧
      Upheld R ((c.system R).run s (settles u nonces)) ∧
      c.Settled u nonces s ((c.system R).run s (settles u nonces)) := by
  induction nonces generalizing s with
  | nil =>
      refine ⟨rfl, h.upheld, fun n => ?_, ?_, fun huser => ⟨_, huser⟩⟩
      · rw [if_neg List.not_mem_nil]
        rfl
      · rw [paidOut_nil]
        rfl
  | cons n nonces ih =>
      change c.Ready R s (.settle u n :: settles u nonces) at h
      obtain ⟨mid, hmid⟩ := settle_accepted h.upheld h.configured
        (h.opened (u, n) List.mem_cons_self)
      obtain ⟨haccepted, hupheld, hsettled⟩ := ih (h.step hmid)
      change (c.system R).accepted s (.settle u n :: settles u nonces) = _ ∧ _
      rw [System.accepted_cons_of_step hmid, haccepted]
      refine ⟨rfl, ?_, ?_⟩
      · exact (System.run_cons_of_step hmid).symm ▸ hupheld
      · exact (System.run_cons_of_step hmid).symm ▸ (settled_step hmid).trans hsettled

end Settling

theorem free_of_no_locks (h : ∀ n, s.data (lockAddress u n) = .empty) :
    free s u = s.balance (vaultAddress u) := by
  have hopen (n : UInt64) : openAmount s u n = 0 := by
    rw [openAmount, h]
    rfl
  rw [free, Finset.sum_eq_zero fun n _ => hopen n, Nat.sub_zero]

theorem withdraw_all {ctx : Context} {a : Withdraw} (upheld : Upheld R s) (right : a.Right ctx)
    (huser : s.data (userAddress a.user) = .user account)
    (hlocks : ∀ n, s.data (lockAddress a.user n) = .empty) :
    ∃ s', withdraw ctx a (s.lamports (vaultAddress a.user)) s = .ok s' ∧
      s'.balance (vaultAddress a.user) = 0 ∧
      s'.balance (.key a.user) = s.balance (.key a.user) + s.balance (vaultAddress a.user) := by
  obtain ⟨o, hrefines⟩ := upheld.refines a.user
  obtain ⟨e, -, tracks⟩ := hrefines.tracks huser
  have hexactly := withdraw_exactly (s.lamports (vaultAddress a.user)) upheld.kept upheld.supply
    right tracks
  obtain ⟨s', hok⟩ := hexactly.1.mpr (free_of_no_locks hlocks).ge
  have hmoved := (withdraw_done hok).moved
  refine ⟨s', hok, ?_, ?_⟩
  · have hvault := hmoved (vaultAddress a.user)
    rw [if_pos rfl, if_neg key_ne_vault.symm] at hvault
    exact Nat.add_right_cancel (hvault.trans (Nat.zero_add _).symm)
  · have hkey := hmoved (.key a.user)
    rwa [if_neg key_ne_vault, if_pos rfl, Nat.add_zero] at hkey

/-! ### In a reachable state -/

/-- The bot settles the locks, and the user withdraws all that is left. -/
structure Recovered (R : Runtime) (c : Settling) (ctx : Context) (a : Withdraw)
    (nonces : List UInt64) (s : Accounts) : Prop where
  accepted : (c.system R).accepted s (Settling.settles a.user nonces) =
    Settling.settles a.user nonces
  vault : ((c.system R).run s (Settling.settles a.user nonces)).balance (vaultAddress a.user) +
    c.paidOut a.user nonces = s.balance (vaultAddress a.user)
  withdrawn : let s₁ := (c.system R).run s (Settling.settles a.user nonces)
    ∃ s₂, withdraw ctx a (s₁.lamports (vaultAddress a.user)) s₁ = .ok s₂ ∧
      s₂.balance (vaultAddress a.user) = 0 ∧
      s₂.balance (.key a.user) = s₁.balance (.key a.user) + s₁.balance (vaultAddress a.user)

section Reachable

variable {s₀ : Accounts} {ops : List Op} {c : Settling} {ctx : Context} {a : Withdraw}

theorem ready_openLocks (h₀ : Uninitialised s₀)
    (hsupply : SupplyBelow ((system R).run s₀ ops))
    (hconfigured : c.Configured ((system R).run s₀ ops))
    (huser : ((system R).run s₀ ops).data (userAddress u) = .user account)
    (hamount : ∀ {n lockAccount}, ((system R).run s₀ ops).data (lockAddress u n) =
      .lock lockAccount → c.amount u n ≤ lockAccount.amount) :
    c.Ready R ((system R).run s₀ ops)
      (Settling.settles u (openLocks ((system R).run s₀ ops) u account)) := by
  obtain ⟨e, tracks⟩ := run_tracks h₀ huser
  refine ⟨⟨run_wellKept h₀ ops, run_refines h₀ ops, hsupply⟩, hconfigured, ?_, ?_⟩
  · rw [Settling.lock?_settles]
    intro lock hlock
    obtain ⟨n, hn, rfl⟩ := List.mem_map.mp hlock
    obtain ⟨lockAccount, hdata⟩ := (mem_openLocks tracks).mp hn
    exact Settling.open_of hdata (hamount hdata)
  · rw [Settling.lock?_settles]
    exact nodup_openLocks.map (Prod.mk_right_injective u)

theorem recovered (h₀ : Uninitialised s₀)
    (hready : c.Ready R ((system R).run s₀ ops)
      (Settling.settles a.user (openLocks ((system R).run s₀ ops) a.user account)))
    (huser : ((system R).run s₀ ops).data (userAddress a.user) = .user account)
    (right : a.Right ctx) :
    Recovered R c ctx a (openLocks ((system R).run s₀ ops) a.user account)
      ((system R).run s₀ ops) := by
  obtain ⟨e, tracks⟩ := run_tracks h₀ huser
  obtain ⟨haccepted, hupheld, hsettled⟩ := hready.run_settles
  obtain ⟨updated, hupdated⟩ := hsettled.registered huser
  refine ⟨haccepted, hsettled.vault, withdraw_all hupheld right hupdated fun n => ?_⟩
  rw [hsettled.locks]
  split_ifs with hmem
  · rfl
  · -- a lock that was not open was not there
    have hholds := tracks.locks n
    cases hheld : e.held n.toNat with
    | none => rwa [hheld] at hholds
    | some amount =>
        rw [hheld] at hholds
        obtain ⟨lockAccount, hlock, -⟩ := hholds
        exact absurd ((mem_openLocks tracks).mpr ⟨lockAccount, hlock⟩) hmem

end Reachable

/-! ### The rent rule on the way -/

/-- No step of the way out is refused for rent. -/
structure PassesRent (R : Runtime) (foreign : Pubkey → ℕ) (c : Settling) (ctx : Context)
    (a : Withdraw) (nonces : List UInt64) (s : Accounts) : Prop where
  settles : (c.system R).Throughout (fun t item => ∀ t', (c.system R).step t item = some t' →
    ∀ b, RentAllowed R foreign t t' b) s (Settling.settles a.user nonces)
  withdrawal : let s₁ := (c.system R).run s (Settling.settles a.user nonces)
    ∀ s₂, withdraw ctx a (s₁.lamports (vaultAddress a.user)) s₁ = .ok s₂ →
      ∀ b, RentAllowed R foreign s₁ s₂ b

/-- The minimum is on the vault and on every lock besides what they hold for others, and whoever is
paid is exempt. -/
structure Provided (R : Runtime) (foreign : Pubkey → ℕ) (c : Settling) (u : Key)
    (nonces : List UInt64) (s : Accounts) : Prop where
  vault : (R.minimumBalance 0).toNat + c.paidOut u nonces ≤ s.balance (vaultAddress u)
  locks : ∀ n ∈ nonces, (R.minimumBalance 0).toNat + lockRent R ≤ s.balance (lockAddress u n)
  treasury : Exempt R foreign s c.treasury
  payer : Exempt R foreign s (.key c.payer)
  user : Exempt R foreign s (.key u)

section Passing

variable {foreign : Pubkey → ℕ} {c : Settling} {ctx : Context} {a : Withdraw} {n : UInt64}
  {nonces : List UInt64}

theorem Provided.clear (h : Provided R foreign c u (n :: nonces) s) :
    Settle.RentClear R foreign s (c.accounts u n) n (c.amount u n) where
  vault := by
    have hvault := h.vault
    rw [Settling.paidOut_cons] at hvault
    exact (Nat.add_le_add_left (Nat.le_add_right _ _) _).trans hvault
  lock := h.locks n List.mem_cons_self
  treasury := h.treasury
  payer := h.payer

/-- A settle passes the check and leaves enough for the ones that follow. -/
theorem Provided.step (kept : WellKept R s) (h : Provided R foreign c u (n :: nonces) s)
    (hnodup : (n :: nonces).Nodup) (hstep : (c.system R).step s (.settle u n) = some s') :
    (∀ b, RentAllowed R foreign s s' b) ∧ Provided R foreign c u nonces s' := by
  have hvault := (Settling.settled_step hstep).vault
  change (system R).step s (.invoke c.ctx (.settle (c.accounts u n) n (c.amount u n))) =
    some s' at hstep
  cases step_done hstep with
  | settle globalAccount account updated lockAccount done =>
      refine ⟨done.rentAllowed kept h.clear, ?_, fun m hm => ?_,
        done.exempt kept h.clear h.treasury, done.exempt kept h.clear h.payer,
        done.exempt kept h.clear h.user⟩
      · have hbefore := h.vault
        rw [Settling.paidOut_cons] at hbefore
        rw [Settling.paidOut_cons, Settling.paidOut_nil] at hvault
        omega
      · have hlock := h.locks m (List.mem_cons_of_mem n hm)
        have hne : lockAddress u m ≠ lockAddress u n := by
          intro heq
          obtain ⟨-, rfl⟩ := lockAddress_inj.mp heq
          exact (List.nodup_cons.mp hnodup).1 hm
        have hbalance := done.balance (lockAddress u m)
        have hlocked : lockAddress u m ≠ lockAddress (c.accounts u n).user n := hne
        rw [if_neg vaultAddress_ne_lock.symm, if_neg hlocked] at hbalance
        omega

theorem Provided.run (hready : c.Ready R s (Settling.settles u nonces))
    (h : Provided R foreign c u nonces s) (hnodup : nonces.Nodup) :
    (c.system R).Throughout (fun t item => ∀ t', (c.system R).step t item = some t' →
        ∀ b, RentAllowed R foreign t t' b) s (Settling.settles u nonces) ∧
      Provided R foreign c u [] ((c.system R).run s (Settling.settles u nonces)) := by
  induction nonces generalizing s with
  | nil => exact ⟨trivial, h⟩
  | cons n nonces ih =>
      change c.Ready R s (.settle u n :: Settling.settles u nonces) at hready
      obtain ⟨mid, hmid⟩ := Settling.settle_accepted hready.upheld hready.configured
        (hready.opened (u, n) List.mem_cons_self)
      obtain ⟨hallowed, hprovided⟩ := h.step hready.upheld.kept hnodup hmid
      obtain ⟨hrest, hend⟩ := ih (hready.step hmid) hprovided (List.nodup_cons.mp hnodup).2
      change (c.system R).Throughout _ s (.settle u n :: Settling.settles u nonces) ∧ _
      rw [System.throughout_cons_of_step hmid]
      refine ⟨⟨fun t' ht' => ?_, hrest⟩, (System.run_cons_of_step hmid).symm ▸ hend⟩
      obtain rfl := Option.some.inj (hmid.symm.trans ht')
      exact hallowed

theorem Provided.passesRent (hready : c.Ready R s (Settling.settles a.user nonces))
    (h : Provided R foreign c a.user nonces s) (hnodup : nonces.Nodup) :
    PassesRent R foreign c ctx a nonces s := by
  obtain ⟨hsettles, hend⟩ := h.run hready hnodup
  exact ⟨hsettles, fun s₂ hok => (withdraw_done hok).rentAllowed rfl hend.user⟩

end Passing

/-! ### Sending the minimum ahead -/

/-- Anybody sends the rent minimum to the vault and to the locks. -/
def topUps (R : Runtime) (u : Key) (nonces : List UInt64) : List Op :=
  (vaultAddress u :: nonces.map (lockAddress u)).map (.transferIn · (R.minimumBalance 0))

/-- The supply leaves room for that many transfers of an amount. -/
def Room (amount transfers : ℕ) (s : Accounts) : Prop :=
  TotalBelow (2 ^ 64 - 1 - transfers * amount) s

variable (R) in
theorem transferIn_done (dest : Pubkey) {amount : UInt64} {m : ℕ}
    (h : Room amount.toNat (m + 1) s) : ∃ s',
      (system R).step s (.transferIn dest amount) = some s' ∧ s'.data = s.data ∧
      (∀ a, s'.balance a = s.balance a + if a = dest then amount.toNat else 0) ∧
      Room amount.toNat m s' := by
  have hfits : s.balance dest + amount.toNat < 2 ^ 64 := by
    have hdest := h {dest}
    rw [Finset.sum_singleton, Nat.succ_mul] at hdest
    omega
  obtain ⟨s', hcredit⟩ := credit_ok hfits
  obtain ⟨hdata, hbalance⟩ := credit_eq_ok hcredit
  refine ⟨s', congrArg Except.toOption hcredit, hdata, hbalance, fun F => ?_⟩
  have hF := h F
  have hsum : ∑ a ∈ F, s'.balance a ≤ ∑ a ∈ F, s.balance a + amount.toNat := by
    simp only [hbalance, Finset.sum_add_distrib, Finset.sum_ite_eq']
    split_ifs <;> omega
  rw [Nat.succ_mul] at hF
  omega

/-- Transfers from outside only add to balances. -/
theorem run_transfersIn {dests : List Pubkey} {amount : UInt64}
    (h : Room amount.toNat dests.length s) :
    ((system R).run s (dests.map (.transferIn · amount))).data = s.data ∧
      (∀ a, s.balance a + (if a ∈ dests then amount.toNat else 0) ≤
        ((system R).run s (dests.map (.transferIn · amount))).balance a) ∧
      SupplyBelow ((system R).run s (dests.map (.transferIn · amount))) := by
  induction dests generalizing s with
  | nil => exact ⟨rfl, fun a => Nat.le_refl _, fun F => (h F).trans_le (Nat.sub_le _ _)⟩
  | cons dest dests ih =>
      obtain ⟨mid, hmid, hdata, hbalance, hroom⟩ := transferIn_done R dest h
      obtain ⟨hdata', hbalance', hsupply⟩ := ih hroom
      rw [List.map_cons, System.run_cons_of_step hmid]
      refine ⟨hdata'.trans hdata, fun a => ?_, hsupply⟩
      have hrest := hbalance' a
      rw [hbalance] at hrest
      by_cases hdest : a = dest
      · rw [if_pos hdest] at hrest
        rw [if_pos (hdest ▸ List.mem_cons_self)]
        omega
      · rw [if_neg hdest] at hrest
        have hmem : a ∈ dest :: dests ↔ a ∈ dests := by simp [hdest]
        simp only [hmem]
        omega

theorem openLocks_congr (h : s'.data = s.data) :
    openLocks s' u account = openLocks s u account := by
  rw [openLocks, openLocks, h]

variable {nonces : List UInt64}

theorem run_topUps (h : Room (R.minimumBalance 0).toNat (nonces.length + 1) s) :
    ((system R).run s (topUps R u nonces)).data = s.data ∧
      (∀ a, s.balance a + (if a ∈ vaultAddress u :: nonces.map (lockAddress u) then
        (R.minimumBalance 0).toNat else 0) ≤ ((system R).run s (topUps R u nonces)).balance a) ∧
      SupplyBelow ((system R).run s (topUps R u nonces)) :=
  run_transfersIn (by rwa [List.length_cons, List.length_map])

/-- Besides the minimum, the vault covers what is paid out of the locks, and each lock its rent. -/
theorem provided_topUps {e : Escrow} {foreign : Pubkey → ℕ} {c : Settling} (kept : WellKept R s)
    (tracks : Tracks s u account e) (hnonces : nonces = openLocks s u account)
    (hroom : Room (R.minimumBalance 0).toNat (nonces.length + 1) s)
    (hpaid : c.paidOut u nonces ≤ s.balance (vaultAddress u))
    (htreasury : Exempt R foreign s c.treasury) (hpayer : Exempt R foreign s (.key c.payer))
    (huser : Exempt R foreign s (.key u)) :
    Provided R foreign c u nonces ((system R).run s (topUps R u nonces)) := by
  obtain ⟨hdata, hbalance, -⟩ := run_topUps (u := u) hroom
  have hmono {a : Pubkey} (h : Exempt R foreign s a) :
      Exempt R foreign ((system R).run s (topUps R u nonces)) a :=
    h.mono (space_congr (congrFun hdata a)) ((Nat.le_add_right _ _).trans (hbalance a))
  refine ⟨?_, fun n hn => ?_, hmono htreasury, hmono hpayer, hmono huser⟩
  · have hvault := hbalance (vaultAddress u)
    rw [if_pos List.mem_cons_self] at hvault
    omega
  · have hlock := hbalance (lockAddress u n)
    rw [if_pos (List.mem_cons_of_mem _ (List.mem_map_of_mem hn))] at hlock
    obtain ⟨lockAccount, hopen⟩ := (mem_openLocks tracks).mp (hnonces ▸ hn)
    have hrent : lockRent R ≤ s.balance (lockAddress u n) := kept.rents hopen
    omega

/-- From any reachable state the configured bot can settle all of a user's locks, for whatever
amounts within them, and then the user alone can take everything that is left in the vault. Once
the minimum has been sent to the vault and the locks, the rent rule stands in the way of nothing. -/
theorem vault_recovered {s₀ : Accounts} (h₀ : Uninitialised s₀) (ops : List Op)
    (hsupply : SupplyBelow ((system R).run s₀ ops)) (c : Settling)
    (hconfigured : c.Configured ((system R).run s₀ ops)) {ctx : Context} {a : Withdraw}
    (huser : ((system R).run s₀ ops).data (userAddress a.user) = .user account)
    (hamount : ∀ {n lockAccount}, ((system R).run s₀ ops).data (lockAddress a.user n) =
      .lock lockAccount → c.amount a.user n ≤ lockAccount.amount)
    (right : a.Right ctx) :
    let s := (system R).run s₀ ops
    let nonces := openLocks s a.user account
    let s' := (system R).run s (topUps R a.user nonces)
    Recovered R c ctx a nonces s ∧
      (Room (R.minimumBalance 0).toNat (nonces.length + 1) s →
        Recovered R c ctx a nonces s' ∧ ∀ foreign, Exempt R foreign s c.treasury →
          Exempt R foreign s (.key c.payer) → Exempt R foreign s (.key a.user) →
            PassesRent R foreign c ctx a nonces s') := by
  intro s nonces s'
  have hready : c.Ready R s (Settling.settles a.user nonces) :=
    ready_openLocks h₀ hsupply hconfigured huser hamount
  have hrecovered : Recovered R c ctx a nonces s := recovered h₀ hready huser right
  refine ⟨hrecovered, fun hroom => ?_⟩
  have hsent : s'.data = s.data ∧ _ ∧ SupplyBelow s' := run_topUps hroom
  obtain ⟨hdata, -, hsupply'⟩ := hsent
  -- the transfers lead to a reachable state in which all is as it was but for these lamports
  have hreached : s' = (system R).run s₀ (ops ++ topUps R a.user nonces) :=
    (System.run_append _ _ _).symm
  have hnonces : openLocks s' a.user account = nonces := openLocks_congr hdata
  have hdata' : ((system R).run s₀ (ops ++ topUps R a.user nonces)).data = s.data :=
    hreached ▸ hdata
  have hready₀ := ready_openLocks (c := c) h₀ (hreached ▸ hsupply')
    ⟨by rw [hdata']; exact hconfigured.globalAccount, hconfigured.signed, hconfigured.payerSigned⟩
    (by rw [hdata']; exact huser) fun {n lockAccount} hlock => hamount (by rwa [hdata'] at hlock)
  refine ⟨?_, fun foreign htreasury hpayer hkey => ?_⟩
  · have h := recovered h₀ hready₀ (by rw [hdata']; exact huser) right
    rwa [← hreached, hnonces] at h
  · have hready' : c.Ready R s' (Settling.settles a.user nonces) := by
      rwa [← hreached, hnonces] at hready₀
    obtain ⟨e, tracks⟩ := run_tracks h₀ huser
    have hvault : _ + c.paidOut a.user nonces = s.balance (vaultAddress a.user) :=
      hrecovered.vault
    exact (provided_topUps (run_wellKept h₀ ops) tracks rfl hroom
      ((Nat.le_add_left _ _).trans hvault.le) htreasury hpayer hkey).passesRent hready'
        nodup_openLocks

namespace Sample

/-- As at the start, and the treasury is exempt from rent. -/
def endowed : Accounts where
  lamports a := if a = treasury then 1000000 else start.lamports a
  data _ := .empty

-- one evaluation of the run for what it leaves
theorem endowed_run : ((system runtime).run endowed twoLocks).data globalAddress =
      .global ⟨.key authority, .key bot, treasury⟩ ∧
    ((system runtime).run endowed twoLocks).data (userAddress ownerAccounts.user) =
      .user ⟨2, 30000000, vaultAddress user⟩ ∧
    ((system runtime).run endowed twoLocks).data (lockAddress ownerAccounts.user 0) =
      .lock ⟨20000000⟩ ∧
    ((system runtime).run endowed twoLocks).data (lockAddress ownerAccounts.user 1) =
      .lock ⟨10000000⟩ ∧
    ∀ a ∈ [treasury, .key payer, .key user],
      ((system runtime).run endowed twoLocks).data a = .empty ∧
        890880 ≤ ((system runtime).run endowed twoLocks).balance a := by
  decide +kernel

theorem endowed_total : TotalBelow 2000000000 ((system runtime).run endowed twoLocks) := by
  have hops : (system runtime).Throughout (fun _ op => op.isInvoke) endowed twoLocks := by
    simp [twoLocks, ops, System.Throughout, Op.isInvoke]
  refine hops.invariant (fun hop h hstep => TotalBelow.step hop h hstep) ?_
  refine totalBelow_of_held [(treasury, 1000000), (.key payer, 1000000000),
    (.key user, 100000000)] (fun a => ?_) (by decide)
  simp only [balance, endowed, start, List.map_cons, List.map_nil, List.sum_cons, List.sum_nil]
  split_ifs <;> decide

theorem endowed_exempt {foreign : Pubkey → ℕ} {a : Pubkey}
    (ha : a ∈ [treasury, .key payer, .key user]) :
    Exempt runtime foreign ((system runtime).run endowed twoLocks) a := by
  obtain ⟨hdata, hbalance⟩ := endowed_run.2.2.2.2 a ha
  rw [Exempt, space, hdata]
  exact hbalance

theorem endowed_openLocks : openLocks ((system runtime).run endowed twoLocks) ownerAccounts.user
    ⟨2, 30000000, vaultAddress user⟩ = [0, 1] := by
  have hnonces : (List.range (2 : UInt64).toNat).map UInt64.ofNat = [0, 1] := by decide
  rw [openLocks, hnonces, List.filter_cons_of_pos (by rw [endowed_run.2.2.1]; rfl),
    List.filter_cons_of_pos (by rw [endowed_run.2.2.2.1]; rfl), List.filter_nil]

theorem settling_within {n : UInt64} {lockAccount : LockAccount}
    (h : ((system runtime).run endowed twoLocks).data (lockAddress ownerAccounts.user n) =
      .lock lockAccount) :
    settling.amount ownerAccounts.user n ≤ lockAccount.amount := by
  obtain ⟨e, tracks⟩ := run_tracks (R := runtime) (fun _ => rfl) endowed_run.2.1
  have hmem := (mem_openLocks tracks).mpr ⟨lockAccount, h⟩
  rw [endowed_openLocks] at hmem
  rcases List.mem_pair.mp hmem with rfl | rfl
  · cases endowed_run.2.2.1.symm.trans h
    decide
  · cases endowed_run.2.2.2.1.symm.trans h
    decide

end Sample

open Sample in
/-- Of the 50 million lamports in the vault 25 are paid out, and the user takes the rest. -/
theorem vault_recovered_sample :
    let s := (system runtime).run endowed twoLocks
    let nonces := openLocks s ownerAccounts.user ⟨2, 30000000, vaultAddress user⟩
    let s' := (system runtime).run s (topUps runtime ownerAccounts.user nonces)
    Recovered runtime settling ctx ownerAccounts nonces s ∧
      Recovered runtime settling ctx ownerAccounts nonces s' ∧
      PassesRent runtime (fun _ => 0) settling ctx ownerAccounts nonces s' := by
  have hsupply : SupplyBelow ((system runtime).run endowed twoLocks) := fun F =>
    (endowed_total F).trans_le (by decide)
  have hconfigured : settling.Configured ((system runtime).run endowed twoLocks) :=
    ⟨⟨_, endowed_run.1, rfl, rfl⟩, by decide, by decide⟩
  have right : ownerAccounts.Right ctx := ⟨rfl, rfl, by decide, by decide⟩
  obtain ⟨hrecovered, htopped⟩ := vault_recovered (fun _ => rfl) twoLocks hsupply settling
    hconfigured endowed_run.2.1 settling_within right
  have hroom : Room (runtime.minimumBalance 0).toNat
      ((openLocks ((system runtime).run endowed twoLocks) ownerAccounts.user
        ⟨2, 30000000, vaultAddress user⟩).length + 1) ((system runtime).run endowed twoLocks) := by
    rw [endowed_openLocks]
    exact fun F => (endowed_total F).trans_le (by decide)
  obtain ⟨hrecovered', hpasses⟩ := htopped hroom
  exact ⟨hrecovered, hrecovered', hpasses _ (endowed_exempt (by decide))
    (endowed_exempt (by decide)) (endowed_exempt (by decide))⟩

end DsProxy.BalancePayment
