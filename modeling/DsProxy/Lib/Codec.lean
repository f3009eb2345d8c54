import DsProxy.Lib.Bytes
import Mathlib.Logic.Equiv.Basic

/-!
# Binary formats

A format writes a value as bytes and reads it off the front of a longer text. One law ties the two
together: a text is read as a value and a rest exactly when it is the value's bytes and that rest.
So a format is a round trip, it accepts no bytes but its own, and no value's bytes begin another's.
Formats are built from fixed-width strings by juxtaposition, by tags and along bijections.
-/

/-- A format for a type. -/
structure Codec (α : Type) where
  encode : α → List UInt8
  decode : List UInt8 → Option (α × List UInt8)
  decode_iff : ∀ {bytes a rest}, decode bytes = some (a, rest) ↔ bytes = encode a ++ rest

namespace Codec

variable {α β ι : Type}

theorem decode_encode (c : Codec α) (a : α) (rest : List UInt8) :
    c.decode (c.encode a ++ rest) = some (a, rest) :=
  c.decode_iff.mpr rfl

/-- No value's bytes are a beginning of another's. -/
theorem prefix_free (c : Codec α) {a b : α} {rest rest' : List UInt8}
    (h : c.encode a ++ rest = c.encode b ++ rest') : a = b ∧ rest = rest' := by
  have hdecode := c.decode_encode a rest
  rw [h, c.decode_encode] at hdecode
  cases hdecode
  exact ⟨rfl, rfl⟩

theorem encode_injective (c : Codec α) : Function.Injective c.encode := by
  intro a b h
  exact (c.prefix_free (congrArg (· ++ []) h)).1

/-! ### Building formats -/

/-- Nothing to write. -/
def unit : Codec Unit where
  encode _ := []
  decode bytes := some ((), bytes)
  decode_iff {bytes a rest} := by simp

/-- A string of fixed width. -/
def fixed (w : ℕ) : Codec (Vector UInt8 w) where
  encode bytes := bytes.toList
  decode bytes := (Bytes.ofList w (bytes.take w)).map (·, bytes.drop w)
  decode_iff {bytes a rest} := by
    rw [Option.map_eq_some_iff]
    constructor
    · rintro ⟨word, hword, heq⟩
      cases heq
      unfold Bytes.ofList at hword
      split_ifs at hword
      cases hword
      exact (List.take_append_drop w bytes).symm
    · rintro rfl
      have hlength : a.toList.length = w := a.length_toList
      exact ⟨a, by rw [List.take_left' hlength, Bytes.ofList_toList],
        by rw [List.drop_left' hlength]⟩

/-- One value after the other. -/
def seq (first : Codec α) (second : Codec β) : Codec (α × β) where
  encode pair := first.encode pair.1 ++ second.encode pair.2
  decode bytes := do
    let (a, rest) ← first.decode bytes
    let (b, rest) ← second.decode rest
    return ((a, b), rest)
  decode_iff {bytes pair rest} := by
    simp only [Option.bind_eq_bind, Option.bind_eq_some_iff, Prod.exists, Option.pure_def,
      Option.some.injEq]
    constructor
    · rintro ⟨a, middle, hfirst, b, last, hsecond, heq⟩
      cases heq
      rw [first.decode_iff.mp hfirst, second.decode_iff.mp hsecond, List.append_assoc]
    · rintro rfl
      rw [List.append_assoc]
      exact ⟨_, _, first.decode_encode _ _, _, _, second.decode_encode _ _, rfl⟩

/-- The same bytes for another type. -/
def along (e : α ≃ β) (c : Codec α) : Codec β where
  encode b := c.encode (e.symm b)
  decode bytes := (c.decode bytes).map fun (a, rest) => (e a, rest)
  decode_iff {bytes b rest} := by
    rw [Option.map_eq_some_iff]
    constructor
    · rintro ⟨⟨a, rest'⟩, hdecode, heq⟩
      cases heq
      rw [e.symm_apply_apply]
      exact c.decode_iff.mp hdecode
    · rintro rfl
      exact ⟨_, c.decode_encode _ _, congrArg (·, rest) (e.apply_symm_apply b)⟩

/-- The cases of an enumeration, told apart by tags of one width. -/
def tags [DecidableEq ι] {w : ℕ} (tag : ι → Vector UInt8 w) (all : List ι)
    (complete : ∀ i, i ∈ all) (injective : Function.Injective tag) : Codec ι where
  encode i := (tag i).toList
  decode bytes := do
    let (word, rest) ← (fixed w).decode bytes
    let i ← all.find? (tag · = word)
    return (i, rest)
  decode_iff {bytes i rest} := by
    simp only [Option.bind_eq_bind, Option.bind_eq_some_iff, Prod.exists, Option.pure_def,
      Option.some.injEq]
    constructor
    · rintro ⟨word, rest', hword, i', hfind, heq⟩
      cases heq
      have htag : tag i = word := by simpa using List.find?_some hfind
      rw [htag]
      exact (fixed w).decode_iff.mp hword
    · rintro rfl
      refine ⟨_, _, (fixed w).decode_encode (tag i) rest, i, ?_, rfl⟩
      obtain ⟨found, hfound⟩ : ∃ found, all.find? (tag · = tag i) = some found :=
        Option.isSome_iff_exists.mp
          (List.find?_isSome.mpr ⟨i, complete i, decide_eq_true rfl⟩)
      have htag : tag found = tag i := by simpa using List.find?_some hfound
      rw [hfound, injective htag]

/-- A tag, and then what belongs to its case. -/
def union {body : ι → Type} (tag : Codec ι) (bodies : ∀ i, Codec (body i)) :
    Codec ((i : ι) × body i) where
  encode value := tag.encode value.1 ++ (bodies value.1).encode value.2
  decode bytes := do
    let (i, rest) ← tag.decode bytes
    let (b, rest) ← (bodies i).decode rest
    return (⟨i, b⟩, rest)
  decode_iff {bytes value rest} := by
    simp only [Option.bind_eq_bind, Option.bind_eq_some_iff, Prod.exists, Option.pure_def,
      Option.some.injEq]
    constructor
    · rintro ⟨i, middle, htag, b, last, hbody, heq⟩
      cases heq
      rw [tag.decode_iff.mp htag, (bodies i).decode_iff.mp hbody, List.append_assoc]
    · rintro rfl
      rw [List.append_assoc]
      exact ⟨_, _, tag.decode_encode _ _, _, _, (bodies _).decode_encode _ _, rfl⟩

/-! ### Words -/

/-- A 64-bit word and its bytes. -/
def le64Equiv : Vector UInt8 8 ≃ UInt64 where
  toFun bytes := UInt64.ofNat (Bytes.ofLE bytes.toList)
  invFun word := Bytes.toLE 8 word.toNat
  left_inv bytes := by
    have hlt : Bytes.ofLE bytes.toList < 2 ^ 64 := by
      have h := Bytes.ofLE_lt bytes.toList
      rw [bytes.length_toList] at h
      omega
    show Bytes.toLE 8 (UInt64.ofNat _).toNat = _
    rw [UInt64.toNat_ofNat_of_lt' hlt, Bytes.toLE_ofLE]
  right_inv word := by
    have hlt : word.toNat < 256 ^ 8 := by
      have h := word.toNat_lt
      omega
    show UInt64.ofNat (Bytes.ofLE (Bytes.toLE 8 word.toNat).toList) = _
    rw [Bytes.ofLE_toLE_of_lt hlt, UInt64.ofNat_toNat]

/-- Two's complement. -/
def int64Equiv : UInt64 ≃ Int64 where
  toFun := UInt64.toInt64
  invFun := Int64.toUInt64
  left_inv word := UInt64.toUInt64_toInt64 word
  right_inv word := Int64.toInt64_toUInt64 word

def u64 : Codec UInt64 := (fixed 8).along le64Equiv

def i64 : Codec Int64 := u64.along int64Equiv

end Codec
