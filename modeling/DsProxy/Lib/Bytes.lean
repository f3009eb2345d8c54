import Mathlib.Algebra.Order.Ring.Nat
import Mathlib.Tactic.Ring
import Mathlib.Tactic.NormNum

/-!
# Fixed-width little-endian bytes

A natural number as exactly `w` bytes, least significant first, and back. Seeds, signed messages and
scalars are all written this way, so what matters is that the bytes determine the number below
`256 ^ w` and that a `w`-byte string is the encoding of its value.
-/

namespace Bytes

/-- The `w` little-endian bytes of a number. -/
def toLE (w n : ℕ) : Vector UInt8 w := Vector.ofFn fun i => UInt8.ofNat (n / 256 ^ i.val)

/-- The number with the given little-endian bytes. -/
def ofLE : List UInt8 → ℕ
  | [] => 0
  | byte :: rest => byte.toNat + 256 * ofLE rest

/-- A list of exactly `w` bytes. -/
def ofList (w : ℕ) (bytes : List UInt8) : Option (Vector UInt8 w) :=
  if h : bytes.length = w then some ⟨bytes.toArray, by simpa using h⟩ else none

/-- The ASCII bytes of a string, as in a Rust byte literal. -/
def ascii (text : String) : List UInt8 := text.toList.map fun c => UInt8.ofNat c.toNat

theorem ofList_toList {w : ℕ} (bytes : Vector UInt8 w) : ofList w bytes.toList = some bytes := by
  obtain ⟨⟨bytes⟩, hlength⟩ := bytes
  exact dif_pos hlength

theorem toList_toLE_succ (w n : ℕ) :
    (toLE (w + 1) n).toList = UInt8.ofNat n :: (toLE w (n / 256)).toList := by
  simp only [toLE, Vector.toList_ofFn, List.ofFn_succ, Fin.val_zero, pow_zero, Nat.div_one,
    Fin.val_succ, pow_succ', Nat.div_div_eq_div_mul]

theorem ofLE_toLE (w n : ℕ) : ofLE (toLE w n).toList = n % 256 ^ w := by
  induction w generalizing n with
  | zero =>
      rw [pow_zero, Nat.mod_one]
      rfl
  | succ w ih =>
      rw [toList_toLE_succ, ofLE, ih, UInt8.toNat_ofNat', pow_succ' 256 w, Nat.mod_mul]

theorem ofLE_toLE_of_lt {w n : ℕ} (h : n < 256 ^ w) : ofLE (toLE w n).toList = n := by
  rw [ofLE_toLE, Nat.mod_eq_of_lt h]

theorem toLE_injective {w m n : ℕ} (hm : m < 256 ^ w) (hn : n < 256 ^ w)
    (h : toLE w m = toLE w n) : m = n := by
  have hvalue := congrArg (fun bytes : Vector UInt8 w => ofLE bytes.toList) h
  simpa only [ofLE_toLE_of_lt hm, ofLE_toLE_of_lt hn] using hvalue

theorem ofLE_lt (bytes : List UInt8) : ofLE bytes < 256 ^ bytes.length := by
  induction bytes with
  | nil => simp [ofLE]
  | cons byte rest ih =>
      have hbyte := byte.toNat_lt
      simp only [ofLE, List.length_cons, pow_succ]
      omega

theorem toLE_ofLE {w : ℕ} (bytes : Vector UInt8 w) : toLE w (ofLE bytes.toList) = bytes := by
  obtain ⟨⟨bytes⟩, hlen⟩ := bytes
  subst hlen
  apply Vector.toList_inj.mp
  change (toLE bytes.length (ofLE bytes)).toList = bytes
  induction bytes with
  | nil => rfl
  | cons byte rest ih =>
      have hbyte := byte.toNat_lt
      have hlow : UInt8.ofNat (byte.toNat + 256 * ofLE rest) = byte := by
        apply UInt8.toNat_inj.mp
        rw [UInt8.toNat_ofNat']
        omega
      have hhigh : (byte.toNat + 256 * ofLE rest) / 256 = ofLE rest := by omega
      change (toLE (rest.length + 1) (ofLE (byte :: rest))).toList = _
      rw [ofLE, toList_toLE_succ, hlow, hhigh, ih]

/-- The eight bytes of a 64-bit word. -/
def le64 (word : UInt64) : List UInt8 := (toLE 8 word.toNat).toList

@[simp] theorem length_le64 (word : UInt64) : (le64 word).length = 8 := by
  simp only [le64, Vector.length_toList]

theorem le64_injective {first second : UInt64} (h : le64 first = le64 second) : first = second := by
  apply UInt64.toNat_inj.mp
  have hfirst := first.toNat_lt
  have hsecond := second.toNat_lt
  exact toLE_injective (w := 8) (by omega) (by omega) (Vector.toList_inj.mp h)

end Bytes
