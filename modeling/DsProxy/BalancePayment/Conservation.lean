import DsProxy.BalancePayment.Footprint
import DsProxy.BalancePayment.Upkeep

/-!
# No lamports are made or lost

A transaction moves lamports between the accounts it marks writable: over these, and over any larger
set of addresses, there are as many after it as before, so the runtime's check of the sums never
refuses one. Along a run only what is sent from outside comes in.
-/

namespace DsProxy.BalancePayment

open Accounts Runs Finset

variable {R : Runtime} {s mid s' : Accounts}

/-- Over every set of addresses that is large enough the lamports are as many as before. -/
def Conserves (s s' : Accounts) : Prop :=
  ∃ touched : Finset Pubkey, ∀ F, touched ⊆ F → ∑ p ∈ F, s'.balance p = ∑ p ∈ F, s.balance p

theorem Conserves.of_balance (h : s'.balance = s.balance) : Conserves s s' :=
  ⟨∅, fun F _ => by rw [h]⟩

theorem Conserves.of_moves {source dest : Pubkey} {n : ℕ} (h : s.Moves s' source dest n) :
    Conserves s s' := by
  refine ⟨{source, dest}, fun F hF => ?_⟩
  have hsource : source ∈ F := hF (mem_insert_self _ _)
  have hdest : dest ∈ F := hF (mem_insert_of_mem (mem_singleton_self _))
  have hsum : ∑ p ∈ F, (s'.balance p + if p = source then n else 0) =
      ∑ p ∈ F, (s.balance p + if p = dest then n else 0) := sum_congr rfl fun p _ => h p
  rw [sum_add_distrib, sum_add_distrib, sum_ite_eq' F source, sum_ite_eq' F dest, if_pos hsource,
    if_pos hdest] at hsum
  exact Nat.add_right_cancel hsum

theorem Conserves.trans (first : Conserves s mid) (second : Conserves mid s') :
    Conserves s s' := by
  obtain ⟨touched, hfirst⟩ := first
  obtain ⟨touched', hsecond⟩ := second
  refine ⟨touched ∪ touched', fun F hF => ?_⟩
  exact (hsecond F (union_subset_right hF)).trans (hfirst F (union_subset_left hF))

theorem conserves_of_step {op : Op} (hop : op.isInvoke) (h : (system R).step s op = some s') :
    Conserves s s' := by
  cases step_done h with
  | initialize_ done =>
      obtain ⟨rent, hrent⟩ := done.rentPaid
      exact .of_moves hrent
  | setBot done | setTreasury done => exact .of_balance done.balance
  | register done =>
      obtain ⟨rent, hrent⟩ := done.rentPaid
      exact .of_moves hrent
  | deposit done => exact .of_moves done.moved
  | withdraw done => exact .of_moves done.moved
  | lock globalAccount account updated done =>
      obtain ⟨rent, hrent⟩ := done.rentPaid
      exact .of_moves hrent
  | settle globalAccount account updated lockAccount done =>
      obtain ⟨mid, hpaid, hclosed⟩ := done.moved
      exact (Conserves.of_moves hpaid).trans (.of_moves hclosed)
  | pay globalAccount account updated done => exact .of_moves done.moved
  | transferIn data balance | world data balance => cases hop

/-- What is conserved somewhere is conserved where everything happened. -/
theorem Conserves.sum_eq (h : Conserves s s') {F : Finset Pubkey}
    (hframe : ∀ p ∉ F, s'.balance p = s.balance p) :
    ∑ p ∈ F, s'.balance p = ∑ p ∈ F, s.balance p := by
  obtain ⟨touched, hsum⟩ := h
  have htotal := hsum (F ∪ touched) subset_union_right
  have hF : F ⊆ F ∪ touched := subset_union_left
  rw [← sum_sdiff hF, ← sum_sdiff hF] at htotal
  have houtside : ∑ p ∈ (F ∪ touched) \ F, s'.balance p = ∑ p ∈ (F ∪ touched) \ F, s.balance p :=
    sum_congr rfl fun p hp => hframe p (mem_sdiff.mp hp).2
  rw [houtside] at htotal
  exact Nat.add_left_cancel htotal

/-! ### Along a run -/

/-- What an operation sends in from outside. -/
def WireOp.received : WireOp → ℕ
  | .transferIn _ amount => amount.toNat
  | _ => 0

def WireOp.isWorld : WireOp → Bool
  | .world _ _ _ => true
  | _ => false

theorem balance_of_account {p : Pubkey} (h : s'.account p = s.account p) :
    s'.balance p = s.balance p :=
  congrArg (fun account => account.1.toNat) h

theorem sum_of_wire_step {op : WireOp} (hworld : op.isWorld = false) {F : Finset Pubkey}
    (hF : ∀ p ∈ op.access.writes, p ∈ F) (h : (wireSystem R).step s op = some s') :
    ∑ p ∈ F, s'.balance p = ∑ p ∈ F, s.balance p + op.received := by
  have hframe (p : Pubkey) (hp : p ∉ F) : s'.account p = s.account p :=
    (footprint_step R op).frame h p fun hwrites => hp (hF p hwrites)
  cases op with
  | transaction accounts data unixTimestamp =>
      rw [wire_step] at h
      obtain ⟨typed, htyped, hstep⟩ := Option.bind_eq_some_iff.mp h
      have hop : typed.isInvoke := by
        obtain ⟨ix, -, rfl⟩ := Option.map_eq_some_iff.mp htyped
        trivial
      exact (conserves_of_step hop hstep).sum_eq fun p hp => balance_of_account (hframe p hp)
  | transferIn dest amount =>
      have hdest : dest ∈ F := hF dest rfl
      obtain ⟨-, hbalance⟩ := credit_eq_ok (toOption_eq_some h)
      rw [sum_congr rfl fun p _ => hbalance p, sum_add_distrib, sum_ite_eq' F dest, if_pos hdest]
      rfl
  | world address lamports foreign => cases hworld

variable (R) in
/-- A run of any transactions, with any bytes and accounts, changes the number of lamports on the
accounts it may write by exactly what was sent to them from outside. -/
theorem lamports_conserved (s : Accounts) {ops : List WireOp}
    (hworld : ∀ op ∈ ops, op.isWorld = false) {F : Finset Pubkey}
    (hF : ∀ op ∈ ops, ∀ p ∈ op.access.writes, p ∈ F) :
    ∑ p ∈ F, ((wireSystem R).run s ops).balance p =
      ∑ p ∈ F, s.balance p + (wireSystem R).total (fun _ op => op.received) s ops := by
  induction ops generalizing s with
  | nil => rfl
  | cons op ops ih =>
      have hrest := fun s => ih s (fun op hop => hworld op (List.mem_cons_of_mem _ hop))
        fun op hop => hF op (List.mem_cons_of_mem _ hop)
      cases hstep : (wireSystem R).step s op with
      | none =>
          rw [System.run_cons_of_refused hstep, System.total_cons_of_refused hstep]
          exact hrest s
      | some s' =>
          have hfirst := sum_of_wire_step (hworld op List.mem_cons_self)
            (hF op List.mem_cons_self) hstep
          rw [System.run_cons_of_step hstep, System.total_cons_of_step hstep, hrest s', hfirst,
            Nat.add_assoc]

namespace Sample

def lockMetas : List AccountMeta :=
  RawInstruction.infos (Instruction.instruction (.lock ⟨globalAddress, userAddress user, user,
    lockAddress user 0, vaultAddress user, bot, payer⟩ first 20000000)) payer

theorem writes_lockOp {p : Pubkey} (h : p ∈ lockOp.wire.access.writes) :
    p ∈ (lockMetas.map (·.pubkey)).toFinset := by
  obtain ⟨a, ha, rfl, -⟩ := h
  exact List.mem_toFinset.mpr (List.mem_map_of_mem ha)

end Sample

open Sample in
/-- The rent of the lock comes from the payer, who is on the list. -/
theorem lamports_conserved_sample :
    ∑ p ∈ (lockMetas.map (·.pubkey)).toFinset,
        ((wireSystem runtime).run beforeBatch [lockOp.wire]).balance p =
      ∑ p ∈ (lockMetas.map (·.pubkey)).toFinset, beforeBatch.balance p +
        (wireSystem runtime).total (fun _ op => op.received) beforeBatch [lockOp.wire] := by
  refine lamports_conserved runtime beforeBatch (fun op hop => ?_) fun op hop p hp => ?_
  · rw [List.mem_singleton.mp hop]
    rfl
  · rw [List.mem_singleton.mp hop] at hp
    exact writes_lockOp hp

end DsProxy.BalancePayment
