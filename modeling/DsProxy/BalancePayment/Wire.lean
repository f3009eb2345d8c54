import DsProxy.BalancePayment.Program
import DsProxy.Lib.Codec

/-!
# Instructions on the wire

The generated client of the SDK writes an instruction as bytes and a list of account metas; the
program's entry point reads the bytes by their discriminator, takes the accounts by position, checks
their flags as `#[derive(Accounts)]` says, and runs the handler. Left-over bytes and accounts are
ignored. Which of several failing checks reports its error is not modelled here. The instructions
that Anchor itself adds for the IDL account have a tag of their own; what they do is a parameter.
-/

namespace DsProxy.BalancePayment

open Runs

/-- `AccountMeta` of the client, and what the program sees of an account besides its content. -/
structure AccountMeta where
  pubkey : Pubkey
  isSigner : Bool
  isWritable : Bool
  deriving DecidableEq

def AccountMeta.new (pubkey : Pubkey) (isSigner : Bool) : AccountMeta := ⟨pubkey, isSigner, true⟩

def AccountMeta.newReadonly (pubkey : Pubkey) (isSigner : Bool) : AccountMeta :=
  ⟨pubkey, isSigner, false⟩

/-- `system_program::id()`. -/
def systemProgram : Pubkey := .key (Vector.replicate 32 0)

/-! ### The data -/

/-- The entry points. -/
inductive Kind
  | initialize_ | setBot | setTreasury | register | deposit | withdraw | lock | settle | pay
  deriving DecidableEq

namespace Kind

def all : List Kind :=
  [initialize_, setBot, setTreasury, register, deposit, withdraw, lock, settle, pay]

def discriminator : Kind → Vector UInt8 8
  | initialize_ => #v[175, 175, 109, 31, 13, 152, 155, 237]
  | setBot => #v[136, 185, 99, 236, 200, 131, 204, 118]
  | setTreasury => #v[57, 97, 196, 95, 195, 206, 106, 136]
  | register => #v[211, 124, 67, 15, 211, 194, 178, 240]
  | deposit => #v[242, 35, 198, 137, 82, 225, 242, 182]
  | withdraw => #v[183, 18, 70, 156, 148, 109, 161, 34]
  | lock => #v[21, 19, 208, 43, 237, 62, 255, 87]
  | settle => #v[175, 42, 185, 87, 144, 131, 102, 212]
  | pay => #v[119, 18, 216, 65, 192, 117, 122, 220]

/-- The arguments, in the order of the entry point's parameters. -/
def Args : Kind → Type
  | initialize_ | setBot | setTreasury | register => Unit
  | deposit | withdraw => UInt64
  | lock | pay => ED25519RecoverInfo × UInt64
  | settle => UInt64 × UInt64

theorem mem_all (k : Kind) : k ∈ all := by cases k <;> decide

theorem discriminator_injective : Function.Injective discriminator := by
  intro k k' h
  cases k <;> cases k' <;> first | rfl | exact absurd h (by decide)

end Kind

def recoverInfoEquiv :
    Vector UInt8 64 × Vector UInt8 64 × Int64 ≃ ED25519RecoverInfo where
  toFun fields := ⟨fields.1, fields.2.1, fields.2.2⟩
  invFun info := (info.signature, info.payload, info.deadline)
  left_inv _ := rfl
  right_inv _ := rfl

/-- Borsh of `ED25519RecoverInfo`: the fields one after the other. -/
def recoverInfoCodec : Codec ED25519RecoverInfo :=
  ((Codec.fixed 64).seq ((Codec.fixed 64).seq Codec.i64)).along recoverInfoEquiv

def Kind.args : (k : Kind) → Codec k.Args
  | initialize_ | setBot | setTreasury | register => Codec.unit
  | deposit | withdraw => Codec.u64
  | lock | pay => recoverInfoCodec.seq Codec.u64
  | settle => Codec.u64.seq Codec.u64

def Kind.codec : Codec Kind := Codec.tags discriminator all mem_all discriminator_injective

/-- The instruction data: the discriminator and the arguments. -/
def dataCodec : Codec ((k : Kind) × k.Args) := Kind.codec.union Kind.args

/-! ### The client -/

/-- `solana_program::instruction::Instruction` for the program. -/
structure RawInstruction where
  accounts : List AccountMeta
  data : List UInt8

open AccountMeta in
/-- `instruction` of the generated client, for the account struct of each instruction. -/
def Instruction.instruction : Instruction → RawInstruction
  | .initialize_ a => ⟨[new a.globalAccount false, newReadonly a.authority false,
      newReadonly a.treasury false, newReadonly a.bot false, new (.key a.payer) true,
      newReadonly systemProgram false], dataCodec.encode ⟨.initialize_, ()⟩⟩
  | .setBot a => ⟨[new a.globalAccount false, newReadonly (.key a.authority) true,
      newReadonly a.bot false, new (.key a.payer) true], dataCodec.encode ⟨.setBot, ()⟩⟩
  | .setTreasury a => ⟨[new a.globalAccount false, newReadonly (.key a.authority) true,
      newReadonly a.treasury false, new (.key a.payer) true], dataCodec.encode ⟨.setTreasury, ()⟩⟩
  | .register a => ⟨[new a.userAccount false, newReadonly (.key a.user) true,
      newReadonly a.vault false, new (.key a.payer) true, newReadonly systemProgram false],
      dataCodec.encode ⟨.register, ()⟩⟩
  | .deposit a amount => ⟨[new a.userAccount false, new (.key a.user) true, new a.vault false,
      new (.key a.payer) true, newReadonly systemProgram false],
      dataCodec.encode ⟨.deposit, amount⟩⟩
  | .withdraw a amount => ⟨[new a.userAccount false, new (.key a.user) true, new a.vault false,
      new (.key a.payer) true, newReadonly systemProgram false],
      dataCodec.encode ⟨.withdraw, amount⟩⟩
  | .lock a recoverInfo amount => ⟨[newReadonly a.globalAccount false, new a.userAccount false,
      new (.key a.user) false, new a.lockAccount false, newReadonly a.vault false,
      newReadonly (.key a.bot) true, new (.key a.payer) true, newReadonly systemProgram false],
      dataCodec.encode ⟨.lock, recoverInfo, amount⟩⟩
  | .settle a nonce amountToTransfer => ⟨[newReadonly a.globalAccount false,
      new a.userAccount false, new (.key a.user) false, new a.treasury false,
      new a.lockAccount false, new a.vault false, newReadonly (.key a.bot) true,
      new (.key a.payer) true, newReadonly systemProgram false],
      dataCodec.encode ⟨.settle, nonce, amountToTransfer⟩⟩
  | .pay a recoverInfo amountToTransfer => ⟨[newReadonly a.globalAccount false,
      new a.userAccount false, new (.key a.user) false, new a.treasury false, new a.vault false,
      newReadonly (.key a.bot) true, new (.key a.payer) true, newReadonly systemProgram false],
      dataCodec.encode ⟨.pay, recoverInfo, amountToTransfer⟩⟩

/-- The flags of a message are an account's, however often and wherever it is listed. -/
def RawInstruction.signs (raw : RawInstruction) (feePayer : Key) (pubkey : Pubkey) : Bool :=
  pubkey = .key feePayer || raw.accounts.any fun a => a.pubkey = pubkey && a.isSigner

def RawInstruction.writes (raw : RawInstruction) (feePayer : Key) (pubkey : Pubkey) : Bool :=
  pubkey = .key feePayer || raw.accounts.any fun a => a.pubkey = pubkey && a.isWritable

/-- What the program is given: the flags are those of the whole message. -/
def RawInstruction.infos (raw : RawInstruction) (feePayer : Key) : List AccountMeta :=
  raw.accounts.map fun a =>
    ⟨a.pubkey, raw.signs feePayer a.pubkey, raw.writes feePayer a.pubkey⟩

/-! ### The program -/

/-- What `#[derive(Accounts)]` asks of an account's flags: `Signer`, and `mut`, which `init`
implies. -/
structure Flags where
  signer : Bool
  writable : Bool

def Flags.none : Flags := ⟨false, false⟩
def Flags.signed : Flags := ⟨true, false⟩
def Flags.mutable : Flags := ⟨false, true⟩
def Flags.mutableSigner : Flags := ⟨true, true⟩

def Flags.met (flags : Flags) (a : AccountMeta) : Bool :=
  (!flags.signer || a.isSigner) && (!flags.writable || a.isWritable)

open Flags in
/-- The fields of the account structs, in their order. -/
def Kind.flags : Kind → List Flags
  | initialize_ => [mutable, none, none, none, mutableSigner, none]
  | setBot => [mutable, signed, none, mutableSigner]
  | setTreasury => [mutable, signed, none, mutableSigner]
  | register => [mutable, signed, none, mutableSigner, none]
  | deposit => [mutable, mutableSigner, mutable, mutableSigner, none]
  | withdraw => [mutable, mutableSigner, mutable, mutableSigner, none]
  | lock => [none, mutable, mutable, mutable, none, signed, mutableSigner, none]
  | settle => [none, mutable, mutable, mutable, mutable, mutable, signed, mutableSigner, none]
  | pay => [none, mutable, mutable, mutable, mutable, signed, mutableSigner, none]

/-- The account struct from the accounts by position. An address that the program derives is no
signer, and no user has registered it; `Program<System>` is the system program. -/
def Kind.tryAccounts : (k : Kind) → k.Args → List Pubkey → Option Instruction
  | initialize_, (), [globalAccount, authority, treasury, bot, .key payer, system] =>
    if system = systemProgram then
      some (.initialize_ ⟨globalAccount, authority, treasury, bot, payer⟩)
    else Option.none
  | setBot, (), [globalAccount, .key authority, bot, .key payer] =>
    some (.setBot ⟨globalAccount, authority, bot, payer⟩)
  | setTreasury, (), [globalAccount, .key authority, treasury, .key payer] =>
    some (.setTreasury ⟨globalAccount, authority, treasury, payer⟩)
  | register, (), [userAccount, .key user, vault, .key payer, system] =>
    if system = systemProgram then some (.register ⟨userAccount, user, vault, payer⟩)
    else Option.none
  | deposit, amount, [userAccount, .key user, vault, .key payer, system] =>
    if system = systemProgram then some (.deposit ⟨userAccount, user, vault, payer⟩ amount)
    else Option.none
  | withdraw, amount, [userAccount, .key user, vault, .key payer, system] =>
    if system = systemProgram then some (.withdraw ⟨userAccount, user, vault, payer⟩ amount)
    else Option.none
  | lock, (recoverInfo, amount), [globalAccount, userAccount, .key user, lockAccount, vault,
      .key bot, .key payer, system] =>
    if system = systemProgram then
      some (.lock ⟨globalAccount, userAccount, user, lockAccount, vault, bot, payer⟩ recoverInfo
        amount)
    else Option.none
  | settle, (nonce, amountToTransfer), [globalAccount, userAccount, .key user, treasury,
      lockAccount, vault, .key bot, .key payer, system] =>
    if system = systemProgram then
      some (.settle ⟨globalAccount, userAccount, user, treasury, lockAccount, vault, bot, payer⟩
        nonce amountToTransfer)
    else Option.none
  | pay, (recoverInfo, amountToTransfer), [globalAccount, userAccount, .key user, treasury, vault,
      .key bot, .key payer, system] =>
    if system = systemProgram then
      some (.pay ⟨globalAccount, userAccount, user, treasury, vault, bot, payer⟩ recoverInfo
        amountToTransfer)
    else Option.none
  | _, _, _ => Option.none

/-- The keys that sign. -/
def signers (accounts : List AccountMeta) : List Key :=
  accounts.filterMap fun a =>
    match a.pubkey with
    | .key k => if a.isSigner then some k else none
    | .derived _ => none

/-- The one of the nine instructions that the entry point reads: by the discriminator, the
arguments, and as many accounts as the struct has fields. -/
def readInstruction (accounts : List AccountMeta) (data : List UInt8) : Option Instruction := do
  let (⟨k, args⟩, _) ← dataCodec.decode data
  let taken := accounts.take k.flags.length
  if (k.flags.zip taken).all (fun (flags, a) => flags.met a) then
    k.tryAccounts args (taken.map (·.pubkey))
  else none

/-- The arms of `dispatch` for the nine instructions. -/
def entry (R : Runtime) (unixTimestamp : Int64) (accounts : List AccountMeta) (data : List UInt8)
    (s : Accounts) : Option Accounts := do
  let ix ← readInstruction accounts data
  (process R ⟨signers accounts, unixTimestamp⟩ ix s).toOption

/-- Anchor's own instructions on accounts and data, `__idl_dispatch`. -/
abbrev IdlDispatch := List AccountMeta → List UInt8 → Accounts → Option Accounts

/-- `IDL_IX_TAG_LE`. -/
def idlTag : List UInt8 := [64, 244, 188, 120, 167, 233, 105, 10]

/-- The whole of `dispatch`; the feature `no-idl` is declared and not enabled. -/
def dispatch (idl : IdlDispatch) (R : Runtime) (unixTimestamp : Int64)
    (accounts : List AccountMeta) (data : List UInt8) (s : Accounts) : Option Accounts :=
  if idlTag <+: data then idl accounts (data.drop idlTag.length) s
  else entry R unixTimestamp accounts data s

/-! ### What the entry point reads -/

/-- The entry point that an instruction is for, and its arguments. -/
def Instruction.call : Instruction → (k : Kind) × k.Args
  | .initialize_ _ => ⟨.initialize_, ()⟩
  | .setBot _ => ⟨.setBot, ()⟩
  | .setTreasury _ => ⟨.setTreasury, ()⟩
  | .register _ => ⟨.register, ()⟩
  | .deposit _ amount => ⟨.deposit, amount⟩
  | .withdraw _ amount => ⟨.withdraw, amount⟩
  | .lock _ recoverInfo amount => ⟨.lock, recoverInfo, amount⟩
  | .settle _ nonce amountToTransfer => ⟨.settle, nonce, amountToTransfer⟩
  | .pay _ recoverInfo amountToTransfer => ⟨.pay, recoverInfo, amountToTransfer⟩

theorem data_instruction (ix : Instruction) :
    ix.instruction.data = dataCodec.encode ix.call := by
  cases ix <;> rfl

def AccountMeta.flags (a : AccountMeta) : Flags := ⟨a.isSigner, a.isWritable⟩

theorem flags_instruction (ix : Instruction) :
    ix.call.1.flags = ix.instruction.accounts.map AccountMeta.flags := by
  cases ix <;> rfl

theorem tryAccounts_instruction (ix : Instruction) :
    ix.call.1.tryAccounts ix.call.2 (ix.instruction.accounts.map (·.pubkey)) = some ix := by
  cases ix <;> rfl

theorem eq_of_tryAccounts {k : Kind} {args : k.Args} {pubkeys : List Pubkey} {ix : Instruction}
    (h : k.tryAccounts args pubkeys = some ix) :
    ix.call = ⟨k, args⟩ ∧ ix.instruction.accounts.map (·.pubkey) = pubkeys := by
  unfold Kind.tryAccounts at h
  split at h <;> first
    | -- the fields are there, and the last is the system program
      split_ifs at h with hsystem
      cases h
      exact ⟨rfl, by rw [hsystem]; rfl⟩
    | cases h
      exact ⟨rfl, rfl⟩
    | cases h

/-- The account is that of the meta, with its flags at least. -/
structure AccountMeta.Grants (required a : AccountMeta) : Prop where
  pubkey : required.pubkey = a.pubkey
  met : required.flags.met a = true

/-- The accounts begin with those of the instruction. -/
def Provides (accounts : List AccountMeta) (ix : Instruction) : Prop :=
  ∃ taken more, accounts = taken ++ more ∧
    List.Forall₂ AccountMeta.Grants ix.instruction.accounts taken

theorem forall₂_grants_iff {required taken : List AccountMeta} :
    List.Forall₂ AccountMeta.Grants required taken ↔
      required.map (·.pubkey) = taken.map (·.pubkey) ∧
        (((required.map AccountMeta.flags).zip taken).all fun (flags, a) =>
          flags.met a) = true := by
  induction required generalizing taken with
  | nil =>
      cases taken with
      | nil => simp
      | cons a taken => simp
  | cons m required ih =>
      cases taken with
      | nil => simp
      | cons a taken =>
          simp only [List.forall₂_cons, ih, List.map_cons, List.zip_cons_cons, List.all_cons,
            List.cons.injEq, Bool.and_eq_true]
          constructor
          · rintro ⟨grants, hpubkeys, hmet⟩
            exact ⟨⟨grants.pubkey, hpubkeys⟩, grants.met, hmet⟩
          · rintro ⟨⟨hpubkey, hpubkeys⟩, hfirst, hmet⟩
            exact ⟨⟨hpubkey, hfirst⟩, hpubkeys, hmet⟩

/-- The entry point reads exactly what the client writes: the instruction's bytes, whatever follows
them, and its accounts, with the client's flags at least and whatever follows. -/
theorem readInstruction_eq_some {accounts : List AccountMeta} {data : List UInt8}
    {ix : Instruction} : readInstruction accounts data = some ix ↔
      (∃ rest, data = ix.instruction.data ++ rest) ∧ Provides accounts ix := by
  simp only [readInstruction, Option.bind_eq_bind, Option.bind_eq_some_iff, Prod.exists,
    Sigma.exists]
  constructor
  · rintro ⟨k, args, rest, hdata, h⟩
    split_ifs at h with hmet
    obtain ⟨hcall, hpubkeys⟩ := eq_of_tryAccounts h
    have hflags : k.flags = ix.instruction.accounts.map AccountMeta.flags := by
      rw [← flags_instruction, hcall]
    refine ⟨⟨rest, ?_⟩, accounts.take k.flags.length, accounts.drop k.flags.length,
      (List.take_append_drop _ _).symm, forall₂_grants_iff.mpr ⟨hpubkeys, ?_⟩⟩
    · rw [data_instruction, hcall]
      exact dataCodec.decode_iff.mp hdata
    · rwa [← hflags]
  · rintro ⟨⟨rest, rfl⟩, taken, more, rfl, hgrants⟩
    obtain ⟨hpubkeys, hmet⟩ := forall₂_grants_iff.mp hgrants
    have htaken : (taken ++ more).take ix.call.1.flags.length = taken := by
      apply List.take_left'
      rw [flags_instruction, List.length_map]
      exact hgrants.length_eq.symm
    refine ⟨ix.call.1, ix.call.2, rest, ?_, ?_⟩
    · rw [data_instruction]
      exact dataCodec.decode_encode _ _
    · rw [htaken, flags_instruction, if_pos hmet, ← hpubkeys]
      exact tryAccounts_instruction ix

/-- The bytes and the accounts that the program is given are those of the instruction. -/
def Asks (accounts : List AccountMeta) (data : List UInt8) (ix : Instruction) : Prop :=
  (∃ rest, data = ix.instruction.data ++ rest) ∧ Provides accounts ix

theorem Asks.unique {accounts : List AccountMeta} {data : List UInt8} {ix ix' : Instruction}
    (h : Asks accounts data ix) (h' : Asks accounts data ix') : ix = ix' := by
  have hread := readInstruction_eq_some.mpr h
  rw [readInstruction_eq_some.mpr h'] at hread
  exact (Option.some.inj hread).symm

/-- Data for the IDL account asks for none of the nine instructions. -/
theorem Asks.not_idl {accounts : List AccountMeta} {data : List UInt8} {ix : Instruction}
    (h : Asks accounts data ix) : ¬ idlTag <+: data := by
  intro hidl
  obtain ⟨⟨rest, hdata⟩, -⟩ := h
  have htag : ix.call.1.discriminator.toList <+: data :=
    ⟨ix.call.1.args.encode ix.call.2 ++ rest, by
      rw [hdata, data_instruction, ← List.append_assoc]
      rfl⟩
  have hlength : idlTag.length = ix.call.1.discriminator.toList.length :=
    Vector.length_toList.symm
  have hsame := (List.prefix_of_prefix_length_le hidl htag hlength.le).eq_of_length hlength
  revert hsame
  cases ix.call.1 <;> decide

theorem entry_eq_some {R : Runtime} {unixTimestamp : Int64} {accounts : List AccountMeta}
    {data : List UInt8} {s s' : Accounts} : entry R unixTimestamp accounts data s = some s' ↔
      ∃ ix, Asks accounts data ix ∧
        process R ⟨signers accounts, unixTimestamp⟩ ix s = .ok s' := by
  rw [entry, Option.bind_eq_bind, Option.bind_eq_some_iff]
  refine exists_congr fun ix => and_congr readInstruction_eq_some ?_
  exact ⟨toOption_eq_some, fun h => by rw [h]; rfl⟩

/-- What the program does with a transaction: it asks for one of the nine instructions at most, and
the program accepts it just where it asks for one and the handler accepts that with the accounts'
signers, or where it is for the IDL account and Anchor accepts it. -/
theorem entry_accepts_iff (idl : IdlDispatch) (R : Runtime) (unixTimestamp : Int64)
    (accounts : List AccountMeta) (data : List UInt8) (s s' : Accounts) :
    (∀ ix ix', Asks accounts data ix → Asks accounts data ix' → ix = ix') ∧
      (dispatch idl R unixTimestamp accounts data s = some s' ↔
        (∃ ix, Asks accounts data ix ∧
          process R ⟨signers accounts, unixTimestamp⟩ ix s = .ok s') ∨
        ∃ rest, data = idlTag ++ rest ∧ idl accounts rest s = some s') := by
  refine ⟨fun ix ix' => Asks.unique, ?_⟩
  by_cases hidl : idlTag <+: data
  · obtain ⟨rest, rfl⟩ := hidl
    rw [dispatch, if_pos (List.prefix_append _ _), List.drop_left]
    constructor
    · exact fun h => Or.inr ⟨rest, rfl, h⟩
    · rintro (⟨ix, hasks, -⟩ | ⟨rest', hrest, h⟩)
      · exact absurd (List.prefix_append _ _) hasks.not_idl
      · rwa [List.append_cancel_left hrest]
  · rw [dispatch, if_neg hidl, entry_eq_some]
    refine (or_iff_left ?_).symm
    rintro ⟨rest, rfl, -⟩
    exact hidl (List.prefix_append _ _)

/-! ### Who signs -/

theorem mem_signers {accounts : List AccountMeta} {k : Key} :
    k ∈ signers accounts ↔ ∃ a ∈ accounts, a.pubkey = .key k ∧ a.isSigner = true := by
  rw [signers, List.mem_filterMap]
  refine exists_congr fun a => and_congr_right fun _ => ?_
  cases a.pubkey with
  | key k' => by_cases hsigner : a.isSigner = true <;> simp [hsigner]
  | derived seeds => simp

/-- The `Signer` fields of the account structs. -/
def Instruction.signerKeys : Instruction → List Key
  | .initialize_ a => [a.payer]
  | .setBot a => [a.authority, a.payer]
  | .setTreasury a => [a.authority, a.payer]
  | .register a => [a.user, a.payer]
  | .deposit a _ => [a.user, a.payer]
  | .withdraw a _ => [a.user, a.payer]
  | .lock a _ _ => [a.bot, a.payer]
  | .settle a _ _ => [a.bot, a.payer]
  | .pay a _ _ => [a.bot, a.payer]

theorem mem_signers_instruction {ix : Instruction} {k : Key} :
    k ∈ signers ix.instruction.accounts ↔ k ∈ ix.signerKeys := by
  cases ix <;> simp [mem_signers, Instruction.instruction, Instruction.signerKeys,
    AccountMeta.new, AccountMeta.newReadonly, @eq_comm _ k]

section Signers

variable {R : Runtime} {ctx ctx' : Context} {ix : Instruction} {s s' : Accounts}

/-- Of the signatures a handler looks for those of its `Signer` fields only. -/
theorem process_eq_of_signed (hclock : ctx.unixTimestamp = ctx'.unixTimestamp)
    (h : ∀ k ∈ ix.signerKeys, k ∈ ctx.signers) (h' : ∀ k ∈ ix.signerKeys, k ∈ ctx'.signers) :
    process R ctx ix s = process R ctx' ix s := by
  have hsame (k : Key) (hk : k ∈ ix.signerKeys) : ctx.requireSigner k = ctx'.requireSigner k :=
    (if_pos (h k hk)).trans (if_pos (h' k hk)).symm
  cases ix with
  | initialize_ a =>
      simp only [process, initialize_, hsame a.payer (by simp [Instruction.signerKeys])]
  | setBot a =>
      simp only [process, setBot, hsame a.authority (by simp [Instruction.signerKeys]),
        hsame a.payer (by simp [Instruction.signerKeys])]
  | setTreasury a =>
      simp only [process, setTreasury, hsame a.authority (by simp [Instruction.signerKeys]),
        hsame a.payer (by simp [Instruction.signerKeys])]
  | register a =>
      simp only [process, register, hsame a.user (by simp [Instruction.signerKeys]),
        hsame a.payer (by simp [Instruction.signerKeys])]
  | deposit a amount =>
      simp only [process, deposit, OwnerAccounts.tryAccounts,
        hsame a.user (by simp [Instruction.signerKeys]),
        hsame a.payer (by simp [Instruction.signerKeys])]
  | withdraw a amount =>
      simp only [process, withdraw, OwnerAccounts.tryAccounts,
        hsame a.user (by simp [Instruction.signerKeys]),
        hsame a.payer (by simp [Instruction.signerKeys])]
  | lock a recoverInfo amount =>
      simp only [process, lock, hclock, hsame a.bot (by simp [Instruction.signerKeys]),
        hsame a.payer (by simp [Instruction.signerKeys])]
  | settle a nonce amount =>
      simp only [process, settle, hsame a.bot (by simp [Instruction.signerKeys]),
        hsame a.payer (by simp [Instruction.signerKeys])]
  | pay a recoverInfo amount =>
      simp only [process, pay, hclock, hsame a.bot (by simp [Instruction.signerKeys]),
        hsame a.payer (by simp [Instruction.signerKeys])]

theorem signed_of_process (h : process R ctx ix s = .ok s') :
    ∀ k ∈ ix.signerKeys, k ∈ ctx.signers := by
  cases ix with
  | initialize_ a =>
      simp only [process, initialize_, bind_eq_ok, requireSigner_eq_ok] at h
      obtain ⟨-, hpayer, -⟩ := h
      simpa [Instruction.signerKeys] using hpayer
  | setBot a =>
      simp only [process, setBot, bind_eq_ok, requireSigner_eq_ok] at h
      obtain ⟨-, -, -, hauthority, -, hpayer, -⟩ := h
      simpa [Instruction.signerKeys] using ⟨hauthority, hpayer⟩
  | setTreasury a =>
      simp only [process, setTreasury, bind_eq_ok, requireSigner_eq_ok] at h
      obtain ⟨-, -, -, hauthority, -, hpayer, -⟩ := h
      simpa [Instruction.signerKeys] using ⟨hauthority, hpayer⟩
  | register a =>
      simp only [process, register, bind_eq_ok, requireSigner_eq_ok] at h
      obtain ⟨-, huser, -, hpayer, -⟩ := h
      simpa [Instruction.signerKeys] using ⟨huser, hpayer⟩
  | deposit a amount =>
      simp only [process, deposit, OwnerAccounts.tryAccounts, bind_eq_ok,
        requireSigner_eq_ok] at h
      obtain ⟨-, ⟨-, -, -, huser, -, hpayer, -⟩, -⟩ := h
      simpa [Instruction.signerKeys] using ⟨huser, hpayer⟩
  | withdraw a amount =>
      simp only [process, withdraw, OwnerAccounts.tryAccounts, bind_eq_ok,
        requireSigner_eq_ok] at h
      obtain ⟨-, ⟨-, -, -, huser, -, hpayer, -⟩, -⟩ := h
      simpa [Instruction.signerKeys] using ⟨huser, hpayer⟩
  | lock a recoverInfo amount =>
      simp only [process, lock, bind_eq_ok, requireSigner_eq_ok] at h
      obtain ⟨-, -, -, -, -, hbot, -, hpayer, -⟩ := h
      simpa [Instruction.signerKeys] using ⟨hbot, hpayer⟩
  | settle a nonce amount =>
      simp only [process, settle, bind_eq_ok, requireSigner_eq_ok] at h
      obtain ⟨-, -, -, -, -, -, -, hbot, -, hpayer, -⟩ := h
      simpa [Instruction.signerKeys] using ⟨hbot, hpayer⟩
  | pay a recoverInfo amount =>
      simp only [process, pay, bind_eq_ok, requireSigner_eq_ok] at h
      obtain ⟨-, -, -, -, -, hbot, -, hpayer, -⟩ := h
      simpa [Instruction.signerKeys] using ⟨hbot, hpayer⟩

end Signers

/-! ### Transactions -/

/-- A transaction as it reaches the program, and what happens without it. -/
inductive WireOp
  | transaction (accounts : List AccountMeta) (data : List UInt8) (unixTimestamp : Int64)
  | transferIn (dest : Pubkey) (amount : UInt64)
  | world (address : Key) (lamports : UInt64) (foreign : Option Bool)

/-- The nine instructions on bytes. -/
def wireSystem (R : Runtime) : System Accounts WireOp where
  step s op :=
    match op with
    | .transaction accounts data unixTimestamp => entry R unixTimestamp accounts data s
    | .transferIn dest amount => (system R).step s (.transferIn dest amount)
    | .world address lamports foreign => (system R).step s (.world address lamports foreign)

/-- The program on bytes. -/
def dispatching (idl : IdlDispatch) (R : Runtime) : System Accounts WireOp where
  step s op :=
    match op with
    | .transaction accounts data unixTimestamp => dispatch idl R unixTimestamp accounts data s
    | .transferIn dest amount => (system R).step s (.transferIn dest amount)
    | .world address lamports foreign => (system R).step s (.world address lamports foreign)

/-- No transaction for the IDL account. -/
def WireOp.SparesIdl : WireOp → Prop
  | .transaction _ data _ => ¬ idlTag <+: data
  | _ => True

def Instruction.payer : Instruction → Key
  | .initialize_ a => a.payer
  | .setBot a => a.payer
  | .setTreasury a => a.payer
  | .register a => a.payer
  | .deposit a _ => a.payer
  | .withdraw a _ => a.payer
  | .lock a _ _ => a.payer
  | .settle a _ _ => a.payer
  | .pay a _ _ => a.payer

/-- The transaction that the client submits for an operation, with the payer as its fee payer. -/
def Op.wire : Op → WireOp
  | .invoke ctx ix =>
    .transaction (ix.instruction.infos ix.payer) ix.instruction.data ctx.unixTimestamp
  | .transferIn dest amount => .transferIn dest amount
  | .world address lamports foreign => .world address lamports foreign

/-- The operation that a transaction asks for. -/
def WireOp.op? : WireOp → Option Op
  | .transaction accounts data unixTimestamp =>
    (readInstruction accounts data).map (.invoke ⟨signers accounts, unixTimestamp⟩)
  | .transferIn dest amount => some (.transferIn dest amount)
  | .world address lamports foreign => some (.world address lamports foreign)

section Transactions

variable {R : Runtime} {s s' : Accounts}

theorem wire_step (op : WireOp) :
    (wireSystem R).step s op = op.op?.bind fun op => (system R).step s op := by
  cases op with
  | transaction accounts data unixTimestamp =>
      show (readInstruction accounts data).bind _ = _
      rw [WireOp.op?, Option.bind_map]
      rfl
  | _ => rfl

theorem provides_infos (ix : Instruction) (feePayer : Key) :
    Provides (ix.instruction.infos feePayer) ix := by
  refine ⟨_, [], (List.append_nil _).symm, ?_⟩
  rw [RawInstruction.infos, List.forall₂_map_right_iff, List.forall₂_same]
  intro a ha
  refine ⟨rfl, ?_⟩
  have hsigns : a.isSigner = true → ix.instruction.signs feePayer a.pubkey = true := fun h =>
    Bool.or_eq_true_iff.mpr (Or.inr (List.any_eq_true.mpr ⟨a, ha, by simp [h]⟩))
  have hwrites : a.isWritable = true → ix.instruction.writes feePayer a.pubkey = true := fun h =>
    Bool.or_eq_true_iff.mpr (Or.inr (List.any_eq_true.mpr ⟨a, ha, by simp [h]⟩))
  simp only [AccountMeta.flags, Flags.met]
  cases hsigner : a.isSigner <;> cases hwritable : a.isWritable <;> simp_all

/-- What the program accepts, the client can ask for. -/
theorem wire_of_step {op : Op} (h : (system R).step s op = some s') :
    (wireSystem R).step s op.wire = some s' := by
  cases op with
  | invoke ctx ix =>
      have hread : readInstruction (ix.instruction.infos ix.payer) ix.instruction.data = some ix :=
        readInstruction_eq_some.mpr ⟨⟨[], (List.append_nil _).symm⟩, provides_infos ix _⟩
      have hsigned : ∀ k ∈ ix.signerKeys, k ∈ signers (ix.instruction.infos ix.payer) := by
        intro k hk
        obtain ⟨a, ha, hkey, hsigner⟩ := mem_signers.mp (mem_signers_instruction.mpr hk)
        refine mem_signers.mpr ⟨_, List.mem_map_of_mem ha, hkey, ?_⟩
        exact Bool.or_eq_true_iff.mpr
          (Or.inr (List.any_eq_true.mpr ⟨a, ha, by simp [hsigner]⟩))
      have hsame : process R ctx ix s = process R
          ⟨signers (ix.instruction.infos ix.payer), ctx.unixTimestamp⟩ ix s :=
        process_eq_of_signed rfl (signed_of_process (toOption_eq_some h)) hsigned
      rw [wire_step, Op.wire, WireOp.op?, hread, Option.map_some, Option.bind_some]
      show (process R _ ix s).toOption = some s'
      rw [← hsame]
      exact h
  | _ => exact h

theorem dispatching_step {idl : IdlDispatch} {op : WireOp} (hop : op.SparesIdl) :
    (dispatching idl R).step s op = (wireSystem R).step s op := by
  cases op with
  | transaction accounts data unixTimestamp => exact if_neg hop
  | _ => rfl

theorem spares_wire (op : Op) : op.wire.SparesIdl := by
  cases op with
  | invoke ctx ix => exact Asks.not_idl ⟨⟨[], (List.append_nil _).symm⟩, provides_infos ix ix.payer⟩
  | _ => trivial

/-- The states that transactions reach, with any bytes but the tag of the IDL account and any
account lists, are those that the nine instructions reach: of these nothing else can be asked, and
everything can be asked for. -/
theorem reached_by_bytes_iff (idl : IdlDispatch) (R : Runtime) (s₀ s : Accounts) :
    (∃ ops, (∀ op ∈ ops, WireOp.SparesIdl op) ∧ (dispatching idl R).run s₀ ops = s) ↔
      ∃ ops, (system R).run s₀ ops = s := by
  constructor
  · rintro ⟨ops, hops, rfl⟩
    induction ops generalizing s₀ with
    | nil => exact ⟨[], rfl⟩
    | cons op ops ih =>
        obtain ⟨hop, hrest⟩ := List.forall_mem_cons.mp hops
        obtain ⟨typed, htyped⟩ := ih ((dispatching idl R).next s₀ op) hrest
        have hstep : (dispatching idl R).step s₀ op =
            op.op?.bind fun op => (system R).step s₀ op := by
          rw [dispatching_step hop, wire_step]
        cases hop' : op.op? with
        | none =>
            rw [hop', Option.bind_none] at hstep
            rw [System.next_of_refused hstep] at htyped
            rw [System.run_cons, System.next_of_refused hstep]
            exact ⟨typed, htyped⟩
        | some op' =>
            rw [hop', Option.bind_some] at hstep
            have hnext : (dispatching idl R).next s₀ op = (system R).next s₀ op' :=
              congrArg (Option.getD · s₀) hstep
            rw [hnext] at htyped
            rw [System.run_cons, hnext]
            exact ⟨op' :: typed, htyped⟩
  · rintro ⟨ops, rfl⟩
    refine System.run_rel (M := system R) (R := fun s s' =>
      ∃ ops, (∀ op ∈ ops, WireOp.SparesIdl op) ∧ (dispatching idl R).run s ops = s')
      (fun _ => ⟨[], List.forall_mem_nil _, rfl⟩) ?_ (fun {s op s'} h => ⟨[op.wire], ?_, ?_⟩) s₀ ops
    · rintro s t u ⟨first, hfirst, rfl⟩ ⟨second, hsecond, rfl⟩
      exact ⟨first ++ second, List.forall_mem_append.mpr ⟨hfirst, hsecond⟩,
        System.run_append _ _ _⟩
    · exact List.forall_mem_singleton.mpr (spares_wire op)
    · exact System.next_of_step ((dispatching_step (spares_wire op)).trans (wire_of_step h))

end Transactions

end DsProxy.BalancePayment
