import DsProxy.Lib.Footprint
import DsProxy.BalancePayment.Wire

/-!
# The accounts a transaction touches

The runtime takes transactions at once whose account lists do not conflict: no account that one
marks writable is listed by the other. Here each handler keeps to its list: it changes no account
that is not marked writable, and what it does depends on the listed accounts only. So a batch of
transactions that do not conflict ends the same in every order and all at once.
-/

namespace DsProxy.BalancePayment

open Accounts Runs

/-- What an address holds. -/
def Accounts.account (s : Accounts) (p : Pubkey) : UInt64 × AccountData := (s.lamports p, s.data p)

theorem account_injective : Function.Injective account := by
  intro s t h
  have hlamports : s.lamports = t.lamports := funext fun p => congrArg Prod.fst (congrFun h p)
  have hdata : s.data = t.data := funext fun p => congrArg Prod.snd (congrFun h p)
  cases s
  cases t
  cases hlamports
  cases hdata
  rfl

/-- A transaction may read the accounts it lists, and write those it marks writable. -/
def listed (accounts : List AccountMeta) : Access Pubkey where
  reads := {p | ∃ a ∈ accounts, a.pubkey = p}
  writes := {p | ∃ a ∈ accounts, a.pubkey = p ∧ a.isWritable = true}
  writes_subset := fun _ ⟨a, ha, hp, _⟩ => ⟨a, ha, hp⟩

/-! ### The operations on the store -/

section Store

variable {A : Access Pubkey} {s t : Accounts} {p source dest : Pubkey}

theorem lamports_of_agree (h : AgreeOn account A.reads s t) (hp : p ∈ A.reads) :
    s.lamports p = t.lamports p :=
  congrArg Prod.fst (h p hp)

theorem data_of_agree (h : AgreeOn account A.reads s t) (hp : p ∈ A.reads) :
    s.data p = t.data p :=
  congrArg Prod.snd (h p hp)

theorem confined_setLamports (hp : p ∈ A.writes) (lamports : UInt64) :
    Confined account A fun s =>
      (Except.ok (s.setLamports p lamports) : Except ProgramError Accounts) := by
  refine .pure (fun s i hi => ?_) fun {s t} h i hi => ?_
  · have hne : i ≠ p := fun heq => hi (heq ▸ hp)
    simp only [account, setLamports, Function.update_of_ne hne]
  · by_cases heq : i = p
    · subst heq
      simp only [account, setLamports, Function.update_self, data_of_agree h hi]
    · simp only [account, setLamports, Function.update_of_ne heq, data_of_agree h hi,
        lamports_of_agree h hi]

theorem confined_setData (hp : p ∈ A.writes) (data : AccountData) :
    Confined account A fun s =>
      (Except.ok (s.setData p data) : Except ProgramError Accounts) := by
  refine .pure (fun s i hi => ?_) fun {s t} h i hi => ?_
  · have hne : i ≠ p := fun heq => hi (heq ▸ hp)
    simp only [account, setData, Function.update_of_ne hne]
  · by_cases heq : i = p
    · subst heq
      simp only [account, setData, Function.update_self, lamports_of_agree h hi]
    · simp only [account, setData, Function.update_of_ne heq, data_of_agree h hi,
        lamports_of_agree h hi]

theorem confined_setData_setData {q : Pubkey} (hp : p ∈ A.writes) (hq : q ∈ A.writes)
    (data data' : AccountData) : Confined account A fun s =>
      (Except.ok ((s.setData p data).setData q data') : Except ProgramError Accounts) := by
  show Confined account A fun s =>
    (Except.ok (s.setData p data) >>= fun s => Except.ok (s.setData q data'))
  exact .bind (confined_setData hp data) (confined_setData hq data')

theorem confined_credit (hdest : dest ∈ A.writes) (amount : UInt64) :
    Confined account A (credit dest amount) := by
  refine .read (fun h => ?_) fun lamports => confined_setLamports hdest lamports
  rw [lamports_of_agree h (A.writes_subset hdest)]

theorem confined_debit (hsource : source ∈ A.writes) (amount : UInt64) :
    Confined account A (debit source amount) := by
  refine .read (fun h => ?_) fun lamports => confined_setLamports hsource lamports
  rw [lamports_of_agree h (A.writes_subset hsource)]

theorem confined_transfer (hsource : source ∈ A.writes) (hdest : dest ∈ A.writes)
    (amount : UInt64) : Confined account A (transfer source dest amount) := by
  refine .read (fun h => ?_) fun _ => ?_
  · simp only [data_of_agree h (A.writes_subset hsource)]
  refine .read (fun h => ?_) fun _ => ?_
  · simp only [lamports_of_agree h (A.writes_subset hsource)]
  exact .bind (confined_debit hsource amount) (confined_credit hdest amount)

theorem confined_payRent {minimumBalance : ℕ → UInt64} {payer : Key} {field : Pubkey}
    (hpayer : .key payer ∈ A.writes) (hfield : field ∈ A.writes) (space : ℕ) :
    Confined account A (payRent minimumBalance payer field space) := by
  have hread {s t : Accounts} (h : AgreeOn account A.reads s t) :
      s.lamports field = t.lamports field :=
    lamports_of_agree h (A.writes_subset hfield)
  refine .ite (fun h => by rw [hread h]) (confined_transfer hpayer hfield _) ?_
  refine .ite (fun h => by rw [hread h]) ?_ ?_
  · refine .value (x := fun (s : Accounts) => max (minimumBalance space) 1 - s.lamports field)
      (fun h => ?_) (confined_transfer hpayer hfield)
    rw [hread h]
  · exact .pure (fun _ _ _ => rfl) id

theorem confined_init {minimumBalance : ℕ → UInt64} {payer : Key} {field expected : Pubkey}
    (hpayer : .key payer ∈ A.writes) (hfield : field ∈ A.writes) (value : AccountData) :
    Confined account A (init minimumBalance payer field expected value) := by
  refine .given fun _ => ?_
  refine .bind (confined_payRent hpayer hfield value.dataLen) ?_
  refine .read (fun h => ?_) fun _ => confined_setData hfield value
  simp only [data_of_agree h (A.writes_subset hfield)]

end Store

/-! ### The handlers -/

section Handlers

variable {R : Runtime} {ctx : Context} {A : Access Pubkey}

theorem confined_initialize {a : Initialize} (hglobal : a.globalAccount ∈ A.writes)
    (hauthority : a.authority ∈ A.reads) (htreasury : a.treasury ∈ A.reads)
    (hbot : a.bot ∈ A.reads) (hpayer : .key a.payer ∈ A.writes) :
    Confined account A (initialize_ R ctx a) := by
  refine .given fun _ => ?_
  refine .bind (confined_init hpayer hglobal _) ?_
  refine .read (fun h => by rw [data_of_agree h hauthority]) fun _ => ?_
  refine .read (fun h => by rw [data_of_agree h htreasury]) fun _ => ?_
  refine .read (fun h => by rw [data_of_agree h hbot]) fun _ => ?_
  exact .pure (fun _ _ _ => rfl) id

theorem confined_setBot {a : SetBot} (hglobal : a.globalAccount ∈ A.writes)
    (hbot : a.bot ∈ A.reads) : Confined account A (setBot ctx a) := by
  refine .read (fun h => by rw [data_of_agree h (A.writes_subset hglobal)]) fun account => ?_
  refine .given fun _ => .given fun _ => .given fun _ => .given fun _ => ?_
  refine .read (fun h => by rw [data_of_agree h hbot]) fun _ => ?_
  exact confined_setData hglobal _

theorem confined_setTreasury {a : SetTreasury} (hglobal : a.globalAccount ∈ A.writes)
    (htreasury : a.treasury ∈ A.reads) : Confined account A (setTreasury ctx a) := by
  refine .read (fun h => by rw [data_of_agree h (A.writes_subset hglobal)]) fun account => ?_
  refine .given fun _ => .given fun _ => .given fun _ => .given fun _ => ?_
  refine .read (fun h => by rw [data_of_agree h htreasury]) fun _ => ?_
  exact confined_setData hglobal _

theorem confined_register {a : Register} (huserAccount : a.userAccount ∈ A.writes)
    (hvault : a.vault ∈ A.reads) (hpayer : .key a.payer ∈ A.writes) :
    Confined account A (register R ctx a) := by
  refine .given fun _ => .given fun _ => ?_
  refine .bind (confined_init hpayer huserAccount _) ?_
  refine .read (fun h => by rw [data_of_agree h hvault]) fun _ => .given fun _ => ?_
  exact .pure (fun _ _ _ => rfl) id

theorem tryAccounts_of_agree {a : OwnerAccounts} {s t : Accounts}
    (huserAccount : a.userAccount ∈ A.reads) (h : AgreeOn account A.reads s t) :
    a.tryAccounts ctx s = a.tryAccounts ctx t := by
  unfold OwnerAccounts.tryAccounts
  rw [data_of_agree h huserAccount]

theorem confined_deposit {a : Deposit} (amount : UInt64) (huserAccount : a.userAccount ∈ A.reads)
    (huser : .key a.user ∈ A.writes) (hvault : a.vault ∈ A.writes) :
    Confined account A (deposit ctx a amount) :=
  .read (tryAccounts_of_agree huserAccount) fun _ => confined_transfer huser hvault amount

theorem confined_withdraw {a : Withdraw} (amount : UInt64)
    (huserAccount : a.userAccount ∈ A.reads) (huser : .key a.user ∈ A.writes)
    (hvault : a.vault ∈ A.writes) : Confined account A (withdraw ctx a amount) := by
  refine .read (tryAccounts_of_agree huserAccount) fun account => ?_
  refine .read (fun h => by rw [lamports_of_agree h (A.writes_subset hvault)]) fun _ => ?_
  exact .given fun _ => confined_transfer hvault huser amount

theorem confined_lock {a : Lock} (recoverInfo : ED25519RecoverInfo) (amount : UInt64)
    (hglobal : a.globalAccount ∈ A.reads) (huserAccount : a.userAccount ∈ A.writes)
    (hlock : a.lockAccount ∈ A.writes) (hvault : a.vault ∈ A.reads)
    (hpayer : .key a.payer ∈ A.writes) :
    Confined account A (lock R ctx a recoverInfo amount) := by
  refine .read (fun h => by rw [data_of_agree h hglobal]) fun globalAccount => ?_
  refine .read (fun h => by rw [data_of_agree h (A.writes_subset huserAccount)])
    fun userAccount => ?_
  refine .given fun _ => .given fun _ => .bind (confined_init hpayer hlock _) ?_
  refine .given fun _ => .given fun _ => .given fun _ => .given fun _ => .given fun _ => ?_
  refine .read (fun h => by rw [lamports_of_agree h hvault]) fun _ => ?_
  refine .given fun _ => .given fun nonce => .given fun lockedAmount => ?_
  exact confined_setData_setData huserAccount hlock _ _

theorem confined_settle {a : Settle} (nonce amount : UInt64)
    (hglobal : a.globalAccount ∈ A.reads) (huserAccount : a.userAccount ∈ A.writes)
    (htreasury : a.treasury ∈ A.writes) (hlock : a.lockAccount ∈ A.writes)
    (hvault : a.vault ∈ A.writes) (hpayer : .key a.payer ∈ A.writes) :
    Confined account A (settle R ctx a nonce amount) := by
  refine .read (fun h => by rw [data_of_agree h hglobal]) fun globalAccount => ?_
  refine .read (fun h => by rw [data_of_agree h (A.writes_subset huserAccount)])
    fun userAccount => ?_
  refine .read (fun h => by rw [data_of_agree h (A.writes_subset hlock)]) fun lockAccount => ?_
  refine .given fun _ => .given fun _ => .given fun _ => .given fun _ => .given fun _ => ?_
  refine .given fun _ => .given fun _ => .given fun _ => .given fun _ => ?_
  refine .given fun lockedAmount => .bind (confined_transfer hvault htreasury amount) ?_
  show Confined account A fun s =>
    (Except.ok (R.minimumBalance (s.data a.lockAccount).dataLen) >>= fun rent =>
      s.debit a.lockAccount rent >>= fun s => s.credit (.key a.payer) rent >>= fun s =>
        Except.ok ((s.setData a.lockAccount .empty).setData a.userAccount
          (.user { userAccount with lockedAmount })))
  refine .read (fun h => by rw [data_of_agree h (A.writes_subset hlock)]) fun rent => ?_
  refine .bind (confined_debit hlock rent) (.bind (confined_credit hpayer rent) ?_)
  exact confined_setData_setData hlock huserAccount _ _

theorem confined_pay {a : Pay} (recoverInfo : ED25519RecoverInfo) (amount : UInt64)
    (hglobal : a.globalAccount ∈ A.reads) (huserAccount : a.userAccount ∈ A.writes)
    (htreasury : a.treasury ∈ A.writes) (hvault : a.vault ∈ A.writes) :
    Confined account A (pay R ctx a recoverInfo amount) := by
  refine .read (fun h => by rw [data_of_agree h hglobal]) fun globalAccount => ?_
  refine .read (fun h => by rw [data_of_agree h (A.writes_subset huserAccount)])
    fun userAccount => ?_
  refine .given fun _ => .given fun _ => .given fun _ => .given fun _ => .given fun _ => ?_
  refine .given fun _ => .given fun _ => .given fun _ => ?_
  refine .read (fun h => by rw [lamports_of_agree h (A.writes_subset hvault)]) fun _ => ?_
  refine .given fun _ => .bind (confined_transfer hvault htreasury amount) ?_
  exact .given fun nonce => confined_setData huserAccount _

/-- Each handler keeps to the accounts that the client lists for it, and to the flags that the
client gives them. -/
theorem confined_process (R : Runtime) (ctx : Context) (ix : Instruction) :
    Confined account (listed ix.instruction.accounts) (process R ctx ix) := by
  cases ix with
  | initialize_ a =>
      apply confined_initialize <;>
        simp [listed, Instruction.instruction, AccountMeta.new, AccountMeta.newReadonly]
  | setBot a =>
      apply confined_setBot <;>
        simp [listed, Instruction.instruction, AccountMeta.new, AccountMeta.newReadonly]
  | setTreasury a =>
      apply confined_setTreasury <;>
        simp [listed, Instruction.instruction, AccountMeta.new, AccountMeta.newReadonly]
  | register a =>
      apply confined_register <;>
        simp [listed, Instruction.instruction, AccountMeta.new, AccountMeta.newReadonly]
  | deposit a amount =>
      apply confined_deposit <;>
        simp [listed, Instruction.instruction, AccountMeta.new, AccountMeta.newReadonly]
  | withdraw a amount =>
      apply confined_withdraw <;>
        simp [listed, Instruction.instruction, AccountMeta.new, AccountMeta.newReadonly]
  | lock a recoverInfo amount =>
      apply confined_lock <;>
        simp [listed, Instruction.instruction, AccountMeta.new, AccountMeta.newReadonly]
  | settle a nonce amount =>
      apply confined_settle <;>
        simp [listed, Instruction.instruction, AccountMeta.new, AccountMeta.newReadonly]
  | pay a recoverInfo amount =>
      apply confined_pay <;>
        simp [listed, Instruction.instruction, AccountMeta.new, AccountMeta.newReadonly]

end Handlers

/-! ### Transactions -/

/-- What the runtime takes a transaction to read and write. Outside the program, an address changes
on its own. -/
def WireOp.access : WireOp → Access Pubkey
  | .transaction accounts _ _ => listed accounts
  | .transferIn dest _ => ⟨{dest}, {dest}, subset_rfl⟩
  | .world address _ _ => ⟨{.key address}, {.key address}, subset_rfl⟩

theorem exists_granted {required taken : List AccountMeta}
    (h : List.Forall₂ AccountMeta.Grants required taken) {m : AccountMeta} (hm : m ∈ required) :
    ∃ a ∈ taken, m.Grants a := by
  induction h with
  | nil => cases hm
  | cons hgrants _ ih =>
      rcases List.mem_cons.mp hm with rfl | hm
      · exact ⟨_, List.mem_cons_self, hgrants⟩
      · obtain ⟨a, ha, hgrants⟩ := ih hm
        exact ⟨a, List.mem_cons_of_mem _ ha, hgrants⟩

theorem listed_subset {accounts : List AccountMeta} {ix : Instruction}
    (h : Provides accounts ix) :
    (listed ix.instruction.accounts).reads ⊆ (listed accounts).reads ∧
      (listed ix.instruction.accounts).writes ⊆ (listed accounts).writes := by
  obtain ⟨taken, more, rfl, hgrants⟩ := h
  constructor
  · rintro p ⟨m, hm, rfl⟩
    obtain ⟨a, ha, hpubkey, -⟩ := exists_granted hgrants hm
    exact ⟨a, List.mem_append_left more ha, hpubkey.symm⟩
  · rintro p ⟨m, hm, rfl, hwritable⟩
    obtain ⟨a, ha, hpubkey, hmet⟩ := exists_granted hgrants hm
    refine ⟨a, List.mem_append_left more ha, hpubkey.symm, ?_⟩
    simp only [Flags.met, AccountMeta.flags, hwritable, Bool.not_true, Bool.false_or,
      Bool.and_eq_true] at hmet
    exact hmet.2

section Transactions

variable (R : Runtime)

theorem toOption_eq_some_iff {result : Except ProgramError Accounts} {s : Accounts} :
    result.toOption = some s ↔ result = .ok s :=
  ⟨toOption_eq_some, fun h => by rw [h]; rfl⟩

theorem footprint_step (op : WireOp) :
    Footprint account op.access fun s s' => (wireSystem R).step s op = some s' := by
  cases op with
  | transaction accounts data unixTimestamp =>
      cases hread : readInstruction accounts data with
      | none =>
          refine .refused fun s s' h => ?_
          rw [wire_step, WireOp.op?, hread] at h
          cases h
      | some ix =>
          obtain ⟨hreads, hwrites⟩ := listed_subset (readInstruction_eq_some.mp hread).2
          have hprint := confined_process R ⟨signers accounts, unixTimestamp⟩ ix
          refine (hprint.mono hreads hwrites).congr fun s s' => ?_
          rw [wire_step, WireOp.op?, hread]
          exact toOption_eq_some_iff
  | transferIn dest amount =>
      exact (confined_credit (Set.mem_singleton dest) amount).congr fun s s' =>
        toOption_eq_some_iff
  | world address lamports foreign =>
      have hself : Pubkey.key address ∈ (WireOp.world address lamports foreign).access.writes :=
        Set.mem_singleton _
      refine ((confined_setLamports hself lamports).bind
        (confined_setData hself (foreign.elim .empty .foreign))).congr fun s s' => ?_
      exact ⟨fun h => congrArg Except.ok (Option.some.inj h),
        fun h => congrArg some (Except.ok.inj h)⟩

/-- An accepted transaction changes no account that it does not mark writable, and wherever its
accounts are the same it is accepted too and leaves them the same. -/
theorem transaction_confined {unixTimestamp : Int64} {accounts : List AccountMeta}
    {data : List UInt8} {s s' : Accounts} (h : entry R unixTimestamp accounts data s = some s') :
    (∀ p, (∀ a ∈ accounts, a.pubkey = p → a.isWritable = false) → s'.account p = s.account p) ∧
      ∀ t, (∀ a ∈ accounts, s.account a.pubkey = t.account a.pubkey) →
        ∃ t', entry R unixTimestamp accounts data t = some t' ∧
          ∀ a ∈ accounts, s'.account a.pubkey = t'.account a.pubkey := by
  have hprint := footprint_step R (.transaction accounts data unixTimestamp)
  constructor
  · intro p hp
    refine hprint.frame h p ?_
    rintro ⟨a, ha, hpubkey, hwritable⟩
    exact Bool.noConfusion (hwritable.symm.trans (hp a ha hpubkey))
  · intro t hagree
    obtain ⟨t', ht, hagree'⟩ := hprint.agree (t := t) (fun p ⟨a, ha, hp⟩ => hp ▸ hagree a ha) h
    exact ⟨t', ht, fun a ha => hagree' a.pubkey ⟨a, ha, rfl⟩⟩

/-- The rule by which the runtime takes two transactions at once. -/
theorem independent_listed {first second : List AccountMeta}
    (hfirst : ∀ a ∈ first, a.isWritable = true → ∀ b ∈ second, b.pubkey ≠ a.pubkey)
    (hsecond : ∀ b ∈ second, b.isWritable = true → ∀ a ∈ first, a.pubkey ≠ b.pubkey) :
    (listed first).Independent (listed second) := by
  refine ⟨Set.disjoint_left.mpr ?_, Set.disjoint_left.mpr ?_⟩
  · rintro p ⟨a, ha, rfl, hwritable⟩ ⟨b, hb, heq⟩
    exact hfirst a ha hwritable b hb heq
  · rintro p ⟨b, hb, rfl, hwritable⟩ ⟨a, ha, heq⟩
    exact hsecond b hb hwritable a ha heq

/-- A batch without conflicts can be taken in any order and all at once: each transaction is
accepted or refused as it is alone, what it writes is what it alone makes of the start, and nothing
else changes. -/
theorem batch_at_once (s : Accounts) {ops : List WireOp}
    (hops : ops.Pairwise fun a b => a.access.Independent b.access) :
    (∀ before op after, ops = before ++ op :: after →
      ((wireSystem R).step ((wireSystem R).run s before) op).isSome =
        ((wireSystem R).step s op).isSome) ∧
      (∀ op ∈ ops, ∀ p ∈ op.access.writes,
        ((wireSystem R).run s ops).account p = ((wireSystem R).next s op).account p) ∧
      (∀ p, (∀ op ∈ ops, p ∉ op.access.writes) →
        ((wireSystem R).run s ops).account p = s.account p) ∧
      ∀ ops', ops.Perm ops' → (wireSystem R).run s ops' = (wireSystem R).run s ops := by
  have hprint := footprint_step R
  refine ⟨fun before op after hsplit => ?_, fun op hop p hp => ?_, fun p hp => ?_,
    fun ops' hperm => ?_⟩
  · exact System.accepted_at_start hprint hops s hsplit
  · exact System.view_run hprint hops s hop hp
  · exact System.run_frame hprint s ops hp
  · exact System.run_eq_of_independent hprint hops account_injective s hperm

end Transactions

/-! ### A batch -/

namespace Sample

/-- The user has deposited, and the authority has money to register with. -/
def beforeBatch : Accounts :=
  (system runtime).run start (ops.take 3 ++ [.transferIn (.key authority) 1000000000])

def lockOp : Op :=
  .invoke ctx (.lock ⟨globalAddress, userAddress user, user, lockAddress user 0,
    vaultAddress user, bot, payer⟩ first 20000000)

def registerOp : Op :=
  .invoke ctx (.register ⟨userAddress authority, authority, vaultAddress authority, authority⟩)

theorem lock_accepted_on_wire :
    ((wireSystem runtime).step beforeBatch lockOp.wire).isSome = true := by
  have haccepted : ((system runtime).step beforeBatch lockOp).isSome = true := by decide +kernel
  rw [wire_of_step (System.step_of_isSome haccepted)]
  rfl

end Sample

open Sample in
/-- The lock leaves the vault alone, which its list does not mark writable. -/
theorem transaction_confined_sample : ∃ s',
    (wireSystem runtime).step beforeBatch lockOp.wire = some s' ∧
      s'.account (vaultAddress user) = beforeBatch.account (vaultAddress user) := by
  obtain ⟨s', h⟩ := Option.isSome_iff_exists.mp lock_accepted_on_wire
  exact ⟨s', h, (transaction_confined runtime h).1 _ (by decide +kernel)⟩

open Sample in
theorem batch_at_once_sample :
    (wireSystem runtime).run beforeBatch [registerOp.wire, lockOp.wire] =
      (wireSystem runtime).run beforeBatch [lockOp.wire, registerOp.wire] := by
  have hops : [lockOp.wire, registerOp.wire].Pairwise fun a b => a.access.Independent b.access :=
    List.pairwise_pair.mpr (independent_listed (by decide +kernel) (by decide +kernel))
  exact (batch_at_once runtime beforeBatch hops).2.2.2 _ (List.Perm.swap _ _ _)

end DsProxy.BalancePayment
