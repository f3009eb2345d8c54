import DsProxy.BalancePayment.Acceptance
import DsProxy.Lib.Reorder

/-!
# Settles commute

A settle moves what it pays out and the lock's rent, closes the lock and frees what it set aside.
Each of these changes commutes with those of any settle of another lock and with every deposit, and
in a reachable state no settle keeps another from going through.
-/

namespace DsProxy.BalancePayment

open Accounts Runs

namespace Accounts

/-- `amount` lamports moved, wherever they come from. -/
def move (source dest : Pubkey) (amount : UInt64) (s : Accounts) : Accounts where
  lamports a :=
    s.lamports a - (if a = source then amount else 0) + (if a = dest then amount else 0)
  data := s.data

theorem move_comm (s : Accounts) (source dest source' dest' : Pubkey) (amount amount' : UInt64) :
    (s.move source dest amount).move source' dest' amount' =
      (s.move source' dest' amount').move source dest amount := by
  have hsum (x i j k l : UInt64) : x - i + j - k + l = x - k + l - i + j := by grind
  simp only [move, hsum]

theorem eq_move {s s' : Accounts} {source dest : Pubkey} {amount : UInt64}
    (hdata : s'.data = s.data) (hmoves : s.Moves s' source dest amount.toNat) :
    s' = s.move source dest amount := by
  have hlamports : s'.lamports = (s.move source dest amount).lamports := by
    funext a
    have htoNat (b : Pubkey) : (if a = b then amount else 0).toNat =
        if a = b then amount.toNat else 0 := by
      split_ifs <;> rfl
    have hsum : s'.lamports a + (if a = source then amount else 0) =
        s.lamports a + if a = dest then amount else 0 := by
      apply UInt64.toNat_inj.mp
      rw [UInt64.toNat_add, UInt64.toNat_add, htoNat, htoNat]
      exact congrArg (· % 2 ^ 64) (hmoves a)
    show _ = s.lamports a - (if a = source then amount else 0) + if a = dest then amount else 0
    grind
  cases s'
  cases hdata
  cases hlamports
  rfl

end Accounts

/-- What a lock sets aside. -/
def lockedIn (s : Accounts) (user : Key) (nonce : UInt64) : UInt64 :=
  (s.data (lockAddress user nonce)).lock?.elim 0 (·.amount)

def AccountData.release (released : UInt64) : AccountData → AccountData
  | user account => .user { account with lockedAmount := account.lockedAmount - released }
  | data => data

theorem AccountData.release_comm (data : AccountData) (m n : UInt64) :
    (data.release m).release n = (data.release n).release m := by
  cases data with
  | user account =>
      have hsub (x : UInt64) : x - m - n = x - n - m := by grind
      simp only [release, hsub]
  | _ => rfl

namespace Accounts

/-- The lock is gone, and what it set aside is free again. -/
def closeLock (user : Key) (nonce : UInt64) (s : Accounts) : Accounts :=
  (s.setData (lockAddress user nonce) .empty).setData (userAddress user)
    ((s.data (userAddress user)).release (lockedIn s user nonce))

theorem data_closeLock (s : Accounts) (u : Key) (n : UInt64) (a : Pubkey) :
    (s.closeLock u n).data a =
      if a = userAddress u then (s.data a).release (lockedIn s u n)
      else if a = lockAddress u n then .empty else s.data a := by
  simp only [closeLock, data_setData, Function.update_apply]
  split_ifs with h
  · rw [h]
  · rfl
  · rfl

theorem lockedIn_closeLock {s : Accounts} {u v : Key} {n m : UInt64} (h : ¬ (u = v ∧ n = m)) :
    lockedIn (s.closeLock u n) v m = lockedIn s v m := by
  have hne : lockAddress v m ≠ lockAddress u n := fun heq =>
    h ((lockAddress_inj.mp heq.symm))
  rw [lockedIn, data_closeLock, if_neg userAddress_ne_lock.symm, if_neg hne]
  rfl

theorem closeLock_comm {s : Accounts} {u v : Key} {n m : UInt64} (h : ¬ (u = v ∧ n = m)) :
    (s.closeLock u n).closeLock v m = (s.closeLock v m).closeLock u n := by
  have hne : ¬ (v = u ∧ m = n) := fun heq => h ⟨heq.1.symm, heq.2.symm⟩
  have hdata : ((s.closeLock u n).closeLock v m).data = ((s.closeLock v m).closeLock u n).data := by
    funext a
    simp only [data_closeLock, lockedIn_closeLock h, lockedIn_closeLock hne]
    split_ifs <;> first | rfl | exact AccountData.release_comm _ _ _
  show Accounts.mk _ _ = Accounts.mk _ _
  exact congrArg (Accounts.mk s.lamports) hdata

theorem closeLock_move (s : Accounts) (u : Key) (n : UInt64) (source dest : Pubkey)
    (amount : UInt64) :
    (s.closeLock u n).move source dest amount = (s.move source dest amount).closeLock u n := rfl

end Accounts

variable {R : Runtime} {s s' : Accounts}

theorem settle_effect {ctx : Context} {a : Settle} {nonce amount : UInt64}
    (h : settle R ctx a nonce amount s = .ok s') :
    s' = ((s.move (vaultAddress a.user) a.treasury amount).move (lockAddress a.user nonce)
      (.key a.payer) (R.minimumBalance (DISCRIMINATOR_SIZE + LockAccount.INIT_SPACE))).closeLock
        a.user nonce := by
  simp only [settle, bind_eq_ok, requireSigner_eq_ok, require_eq_ok, pure_eq_ok, loaded_eq_ok,
    AccountData.global?_eq_some, AccountData.user?_eq_some, AccountData.lock?_eq_some] at h
  obtain ⟨_, -, account, huser, lockAccount, hlock, -, -, -, -, -, -, -, -, -, huserAddr, -, -, -,
    hlockAddr, -, hvaultAddr, -, -, lockedAmount, hlocked, mid, htransfer, mid', hdebit, closed,
    hcredit, rfl⟩ := h
  rw [hvaultAddr] at htransfer
  rw [huserAddr] at huser
  rw [hlockAddr] at hlock hdebit hcredit
  obtain ⟨hdata, hmoves⟩ := transfer_eq_ok htransfer
  have hrent : (mid.data (lockAddress a.user nonce)).dataLen =
      DISCRIMINATOR_SIZE + LockAccount.INIT_SPACE := by
    rw [hdata, hlock]
    rfl
  rw [hrent] at hdebit hcredit
  obtain ⟨hdata', hclose⟩ := moves_of_debit_credit hdebit hcredit
  have hreleased : AccountData.user { account with lockedAmount } =
      (AccountData.user account).release lockAccount.amount := by
    have hsub : lockedAmount = account.lockedAmount - lockAccount.amount := by
      unfold checkedSub at hlocked
      split_ifs at hlocked
      exact (Except.ok.inj hlocked).symm
    rw [hsub]
    rfl
  rw [eq_move hdata hmoves] at hdata' hclose
  rw [eq_move hdata' hclose, hlockAddr, huserAddr, hreleased, closeLock]
  congr 1
  show _ = (s.data (userAddress a.user)).release
    ((s.data (lockAddress a.user nonce)).lock?.elim 0 (·.amount))
  rw [huser, hlock]
  rfl

/-! ### Orders -/

/-- A settle of a lock, or a deposit that comes in between. -/
inductive Item
  | settle (user : Key) (nonce : UInt64)
  | deposit (ctx : Context) (accounts : Deposit) (amount : UInt64)

def Item.lock? : Item → Option (Key × UInt64)
  | settle user nonce => some (user, nonce)
  | _ => none

theorem eq_settle {item : Item} {lock : Key × UInt64} (h : item.lock? = some lock) :
    item = .settle lock.1 lock.2 := by
  cases item with
  | settle user nonce =>
      cases h
      rfl
  | deposit ctx accounts amount => cases h

/-- Who submits the settles, and what is paid out of each lock. -/
structure Settling where
  ctx : Context
  bot : Key
  payer : Key
  treasury : Pubkey
  amount : Key → UInt64 → UInt64

namespace Settling

variable (c : Settling)

def accounts (user : Key) (nonce : UInt64) : Settle :=
  ⟨globalAddress, userAddress user, user, c.treasury, lockAddress user nonce, vaultAddress user,
    c.bot, c.payer⟩

def op : Item → Op
  | .settle user nonce =>
    .invoke c.ctx (.settle (c.accounts user nonce) nonce (c.amount user nonce))
  | .deposit ctx accounts amount => .invoke ctx (.deposit accounts amount)

/-- The program under these settles and any deposits. -/
def system (R : Runtime) : System Accounts Item where
  step s item := (BalancePayment.system R).step s (c.op item)

/-- What an item does to the accounts when it is accepted. -/
def effect (R : Runtime) (s : Accounts) : Item → Accounts
  | .settle user nonce =>
    ((s.move (vaultAddress user) c.treasury (c.amount user nonce)).move (lockAddress user nonce)
      (.key c.payer) (R.minimumBalance (DISCRIMINATOR_SIZE + LockAccount.INIT_SPACE))).closeLock
        user nonce
  | .deposit _ accounts amount => s.move (.key accounts.user) (vaultAddress accounts.user) amount

variable {c}

theorem step_effect {item : Item} (h : (c.system R).step s item = some s') :
    s' = c.effect R s item := by
  cases item with
  | settle user nonce =>
      change (settle R c.ctx (c.accounts user nonce) nonce (c.amount user nonce) s).toOption =
        _ at h
      have heffect := settle_effect (toOption_eq_some h)
      rw [effect]
      exact heffect
  | deposit ctx accounts amount =>
      change (deposit ctx accounts amount s).toOption = _ at h
      have done := deposit_done (toOption_eq_some h)
      exact eq_move done.data done.moved

theorem effect_comm {a b : Item} (h : ∀ lock, a.lock? = some lock → b.lock? ≠ some lock)
    (t : Accounts) : c.effect R (c.effect R t a) b = c.effect R (c.effect R t b) a := by
  cases a with
  | deposit ctx accounts amount =>
      cases b with
      | deposit ctx' accounts' amount' => exact move_comm _ _ _ _ _ _ _
      | settle user nonce =>
          simp only [effect, closeLock_move]
          rw [move_comm t, move_comm (t.move _ _ _)]
  | settle user nonce =>
      cases b with
      | deposit ctx accounts amount =>
          simp only [effect, closeLock_move]
          rw [move_comm (t.move _ _ _), move_comm t]
      | settle user' nonce' =>
          have hne : ¬ (user = user' ∧ nonce = nonce') := by
            rintro ⟨rfl, rfl⟩
            exact h _ rfl rfl
          simp only [effect, closeLock_move]
          rw [closeLock_comm hne, move_comm (t.move _ _ _), move_comm t,
            move_comm ((t.move _ _ _).move _ _ _), move_comm (t.move _ _ _)]

/-! ### Every settle goes through -/

variable (c) in
/-- Bot and treasury are the configured ones, and bot and payer sign. -/
structure Configured (s : Accounts) : Prop where
  globalAccount : ∃ globalAccount, s.data globalAddress = .global globalAccount ∧
    globalAccount.bot = .key c.bot ∧ c.treasury = globalAccount.treasury
  signed : c.bot ∈ c.ctx.signers
  payerSigned : c.payer ∈ c.ctx.signers

variable (c) in
/-- The lock is open and holds what is to be paid out of it. -/
def Open (s : Accounts) (lock : Key × UInt64) : Prop :=
  ∃ lockAccount, s.data (lockAddress lock.1 lock.2) = .lock lockAccount ∧
    c.amount lock.1 lock.2 ≤ lockAccount.amount

theorem open_of {u : Key} {n : UInt64} {lockAccount : LockAccount}
    (hlock : s.data (lockAddress u n) = .lock lockAccount)
    (hamount : c.amount u n ≤ lockAccount.amount) : c.Open s (u, n) :=
  ⟨lockAccount, hlock, hamount⟩

end Settling

/-- What the handlers keep up in every reachable state, and the supply of lamports. -/
structure Upheld (R : Runtime) (s : Accounts) : Prop where
  kept : WellKept R s
  refines : ∀ u, ∃ o, Refines s u o
  supply : SupplyBelow s

theorem Upheld.step {op : Op} (h : Upheld R s) (hop : op.isInvoke)
    (hstep : (system R).step s op = some s') : Upheld R s' where
  kept := h.kept.step hstep
  refines u := by
    obtain ⟨o, hrefines⟩ := h.refines u
    obtain ⟨o', -, hrefines'⟩ := step_refines hstep hrefines
    exact ⟨o', hrefines'⟩
  supply := h.supply.step hop hstep

theorem Upheld.tracks (h : Upheld R s) {u : Key} {n : UInt64} {lockAccount : LockAccount}
    (hlock : s.data (lockAddress u n) = .lock lockAccount) : ∃ account e, Tracks s u account e := by
  obtain ⟨o, hrefines⟩ := h.refines u
  cases hrefines with
  | unregistered user locks => cases (locks n).symm.trans hlock
  | registered account tracks => exact ⟨account, _, tracks⟩

namespace Settling

variable {c : Settling} {items : List Item} {item : Item} {u : Key} {n : UInt64}

theorem op_isInvoke (item : Item) : (c.op item).isInvoke := by
  cases item <;> trivial

theorem settle_accepted (upheld : Upheld R s) (hconfigured : c.Configured s)
    (hopen : c.Open s (u, n)) : ∃ s', (c.system R).step s (.settle u n) = some s' := by
  obtain ⟨globalAccount, hglobal, hbot, htreasury⟩ := hconfigured.globalAccount
  obtain ⟨lockAccount, hlock, hamount⟩ := hopen
  obtain ⟨account, e, tracks⟩ := upheld.tracks hlock
  have right : (c.accounts u n).Right c.ctx s globalAccount n :=
    ⟨hglobal, hbot, htreasury, rfl, rfl, rfl, rfl, hconfigured.signed, hconfigured.payerSigned⟩
  obtain ⟨s', hok⟩ := (settle_exactly (c.amount u n) upheld.kept upheld.supply right tracks
    hlock).1.mpr hamount
  exact ⟨s', congrArg Except.toOption hok⟩

/-- What an item changes is the lock it settles and the account of its user. -/
theorem data_step (h : (c.system R).step s item = some s') {a : Pubkey}
    (huser : ∀ u, a ≠ userAddress u)
    (hlock : ∀ u n, item.lock? = some (u, n) → a ≠ lockAddress u n) : s'.data a = s.data a := by
  rw [step_effect h]
  cases item with
  | deposit ctx accounts amount => rfl
  | settle user nonce =>
      rw [effect, data_closeLock, if_neg (huser _), if_neg (hlock _ _ rfl)]
      rfl

/-- The settles that are left will go through: their locks are open, each once. -/
structure Ready (c : Settling) (R : Runtime) (s : Accounts) (items : List Item) : Prop where
  upheld : Upheld R s
  configured : c.Configured s
  opened : ∀ lock ∈ items.filterMap Item.lock?, c.Open s lock
  nodup : (items.filterMap Item.lock?).Nodup

theorem Ready.refused (h : c.Ready R s (item :: items))
    (hstep : (c.system R).step s item = none) : item.lock? = none ∧ c.Ready R s items := by
  have hnone : item.lock? = none := by
    cases item with
    | deposit ctx accounts amount => rfl
    | settle user nonce =>
        obtain ⟨s', hs'⟩ := settle_accepted h.upheld h.configured
          (h.opened (user, nonce) List.mem_cons_self)
        cases hstep.symm.trans hs'
  have hlocks : (item :: items).filterMap Item.lock? = items.filterMap Item.lock? :=
    List.filterMap_cons_none hnone
  exact ⟨hnone, h.upheld, h.configured, hlocks ▸ h.opened, hlocks ▸ h.nodup⟩

theorem Ready.step (h : c.Ready R s (item :: items))
    (hstep : (c.system R).step s item = some s') : c.Ready R s' items where
  upheld := h.upheld.step (op_isInvoke item) hstep
  configured := by
    obtain ⟨globalAccount, hglobal, hroles⟩ := h.configured.globalAccount
    have hdata : s'.data globalAddress = s.data globalAddress :=
      data_step hstep (fun u => userAddress_ne_global.symm) fun u n _ => lockAddress_ne_global.symm
    exact ⟨⟨globalAccount, hdata.trans hglobal, hroles⟩, h.configured.signed,
      h.configured.payerSigned⟩
  opened lock hlock := by
    have hmem : lock ∈ (item :: items).filterMap Item.lock? := by
      rw [List.filterMap_cons]
      split
      · exact hlock
      · exact List.mem_cons_of_mem _ hlock
    obtain ⟨lockAccount, hdata, hamount⟩ := h.opened lock hmem
    refine ⟨lockAccount, ?_, hamount⟩
    rw [data_step hstep (fun u => userAddress_ne_lock.symm) ?_, hdata]
    intro u n hitem heq
    obtain ⟨hu, hn⟩ := lockAddress_inj.mp heq
    have hnodup := h.nodup
    rw [List.filterMap_cons_some hitem] at hnodup
    have hsame : lock = (u, n) := Prod.ext hu hn
    exact (List.nodup_cons.mp hnodup).1 (hsame ▸ hlock)
  nodup := by
    have hnodup := h.nodup
    rw [List.filterMap_cons] at hnodup
    split at hnodup
    · exact hnodup
    · exact (List.nodup_cons.mp hnodup).2

theorem Ready.settled (h : c.Ready R s items) :
    ((c.system R).accepted s items).filterMap Item.lock? = items.filterMap Item.lock? := by
  induction items generalizing s with
  | nil => rfl
  | cons item items ih =>
      cases hstep : (c.system R).step s item with
      | none =>
          obtain ⟨hnone, hready⟩ := h.refused hstep
          rw [System.accepted_cons_of_refused hstep, List.filterMap_cons_none hnone, ih hready]
      | some s' =>
          rw [System.accepted_cons_of_step hstep, List.filterMap_cons, List.filterMap_cons,
            ih (h.step hstep)]

/-! ### Any two orders -/

/-- The items settle each lock of the set once. -/
structure Orders (items : List Item) (locks : Finset (Key × UInt64)) : Prop where
  nodup : (items.filterMap Item.lock?).Nodup
  mem_iff : ∀ lock, lock ∈ items.filterMap Item.lock? ↔ lock ∈ locks

def deposits (items : List Item) : List Item := items.filter (·.lock?.isNone)

theorem settles_eq_map (items : List Item) : items.filter (fun item => !item.lock?.isNone) =
    (items.filterMap Item.lock?).map fun lock => .settle lock.1 lock.2 := by
  induction items with
  | nil => rfl
  | cons item items ih =>
      cases item with
      | settle user nonce => exact congrArg (Item.settle user nonce :: ·) ih
      | deposit ctx accounts amount => exact ih

theorem Orders.perm {first second : List Item} {locks : Finset (Key × UInt64)}
    (hfirst : Orders first locks) (hsecond : Orders second locks)
    (hdeposits : (deposits first).Perm (deposits second)) : first.Perm second := by
  have hlocks : (first.filterMap Item.lock?).Perm (second.filterMap Item.lock?) :=
    (List.perm_ext_iff_of_nodup hfirst.nodup hsecond.nodup).mpr fun lock =>
      (hfirst.mem_iff lock).trans (hsecond.mem_iff lock).symm
  have hsettles := hlocks.map fun lock => Item.settle lock.1 lock.2
  rw [← settles_eq_map, ← settles_eq_map] at hsettles
  calc List.Perm first (deposits first ++ first.filter fun item => !item.lock?.isNone) :=
        (List.filter_append_perm _ first).symm
    List.Perm _ (deposits second ++ second.filter fun item => !item.lock?.isNone) :=
        hdeposits.append hsettles
    List.Perm _ second := List.filter_append_perm _ second

/-- In both orders every settle goes through, and with the same deposits all accounts end alike. -/
structure Agree (c : Settling) (R : Runtime) (s : Accounts) (locks : Finset (Key × UInt64))
    (first second : List Item) : Prop where
  first_settled : Orders ((c.system R).accepted s first) locks
  second_settled : Orders ((c.system R).accepted s second) locks
  same : (deposits ((c.system R).accepted s first)).Perm
    (deposits ((c.system R).accepted s second)) →
      (c.system R).run s first = (c.system R).run s second

theorem Orders.accepted {locks : Finset (Key × UInt64)} (h : Orders items locks)
    (hready : c.Ready R s items) : Orders ((c.system R).accepted s items) locks := by
  constructor
  · rw [hready.settled]
    exact h.nodup
  · rw [hready.settled]
    exact h.mem_iff

end Settling

open Settling in
/-- Settles of open locks go through in every order, and the order makes no difference. -/
theorem settles_commute {s₀ : Accounts} (h₀ : Uninitialised s₀) (ops : List Op)
    (hsupply : SupplyBelow ((system R).run s₀ ops)) (c : Settling)
    (hconfigured : c.Configured ((system R).run s₀ ops)) (locks : Finset (Key × UInt64))
    (hopen : ∀ lock ∈ locks, c.Open ((system R).run s₀ ops) lock) {first second : List Item}
    (hfirst : Orders first locks) (hsecond : Orders second locks) :
    c.Agree R ((system R).run s₀ ops) locks first second := by
  have hupheld : Upheld R ((system R).run s₀ ops) :=
    ⟨run_wellKept h₀ ops, run_refines h₀ ops, hsupply⟩
  have hready {items : List Item} (h : Orders items locks) :
      c.Ready R ((system R).run s₀ ops) items :=
    ⟨hupheld, hconfigured, fun lock hlock => hopen lock ((h.mem_iff lock).mp hlock), h.nodup⟩
  have hfirst' := hfirst.accepted (hready hfirst)
  have hsecond' := hsecond.accepted (hready hsecond)
  refine ⟨hfirst', hsecond', fun hdeposits => ?_⟩
  refine System.run_eq_of_perm step_effect ?_ (hfirst'.perm hsecond' hdeposits)
  intro a ha b hb t
  by_cases hab : a = b
  · rw [hab]
  · apply effect_comm
    intro lock hlock hlock'
    exact hab ((eq_settle hlock).trans (eq_settle hlock').symm)

namespace Sample

/-- Two locks of the user are open. -/
def twoLocks : List Op :=
  ops.take 4 ++ [.invoke ctx (.lock ⟨globalAddress, userAddress user, user, lockAddress user 1,
    vaultAddress user, bot, payer⟩ second 10000000)]

def settling : Settling :=
  ⟨ctx, bot, payer, treasury, fun _ nonce => if nonce = 0 then 15000000 else 10000000⟩

def inOrder : List Item := [.settle user 0, .deposit ctx ownerAccounts 5000000, .settle user 1]

def reversed : List Item := [.settle user 1, .settle user 0, .deposit ctx ownerAccounts 5000000]

theorem twoLocks_supply : SupplyBelow ((system runtime).run start twoLocks) := by
  have hops : (system runtime).Throughout (fun _ op => op.isInvoke) start twoLocks := by
    simp [twoLocks, ops, System.Throughout, Op.isInvoke]
  exact hops.invariant (fun hop h hstep => SupplyBelow.step hop h hstep) start_supply

-- one evaluation of the run for the configuration and both locks
theorem twoLocks_data :
    ((system runtime).run start twoLocks).data globalAddress =
      .global ⟨.key authority, .key bot, treasury⟩ ∧
    ((system runtime).run start twoLocks).data (lockAddress user 0) = .lock ⟨20000000⟩ ∧
    ((system runtime).run start twoLocks).data (lockAddress user 1) = .lock ⟨10000000⟩ := by
  decide +kernel

theorem settling_configured : settling.Configured ((system runtime).run start twoLocks) where
  globalAccount := ⟨_, twoLocks_data.1, rfl, rfl⟩
  signed := by decide
  payerSigned := by decide

theorem settling_open : ∀ lock ∈ ({(user, 0), (user, 1)} : Finset (Key × UInt64)),
    settling.Open ((system runtime).run start twoLocks) lock := by
  intro lock hlock
  simp only [Finset.mem_insert, Finset.mem_singleton] at hlock
  rcases hlock with rfl | rfl
  · exact Settling.open_of twoLocks_data.2.1 (by decide)
  · exact Settling.open_of twoLocks_data.2.2 (by decide)

theorem mem_pair (first second lock : Key × UInt64) :
    lock ∈ [first, second] ↔ lock ∈ ({first, second} : Finset (Key × UInt64)) := by
  simp

end Sample

theorem settles_commute_sample : Sample.settling.Agree Sample.runtime
    ((system Sample.runtime).run Sample.start Sample.twoLocks)
    {(Sample.user, 0), (Sample.user, 1)} Sample.inOrder Sample.reversed :=
  settles_commute (fun _ => rfl) Sample.twoLocks Sample.twoLocks_supply Sample.settling
    Sample.settling_configured _ Sample.settling_open
    ⟨by decide +kernel, Sample.mem_pair _ _⟩
    ⟨by decide +kernel, fun lock => (Sample.mem_pair _ _ lock).trans (by rw [Finset.pair_comm])⟩

end DsProxy.BalancePayment
