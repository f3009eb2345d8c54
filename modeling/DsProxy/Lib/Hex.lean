import DsProxy.Lib.Bytes
import Mathlib.Tactic.Common

/-!
# Hexadecimal text

Two lower-case digits a byte, high half first, and a reader that takes either case. A number of any
size is its digits in base 16.
-/

namespace Hex

def digit (n : ℕ) : Char := "0123456789abcdef".toList.getD n '0'

def value (c : Char) : Option ℕ :=
  if c.isDigit then some (c.toNat - '0'.toNat)
  else if 'a' ≤ c ∧ c ≤ 'f' then some (c.toNat - 'a'.toNat + 10)
  else if 'A' ≤ c ∧ c ≤ 'F' then some (c.toNat - 'A'.toNat + 10)
  else none

def encode (bytes : List UInt8) : List Char :=
  bytes.flatMap fun byte => [digit (byte.toNat / 16), digit (byte.toNat % 16)]

def decode : List Char → Option (List UInt8)
  | [] => some []
  | high :: low :: rest => do
    let byte := (← value high) * 16 + (← value low)
    return UInt8.ofNat byte :: (← decode rest)
  | [_] => none

theorem value_digit : ∀ n < 16, value (digit n) = some n := by decide

theorem decode_encode (bytes : List UInt8) : decode (encode bytes) = some bytes := by
  induction bytes with
  | nil => rfl
  | cons byte bytes ih =>
      have hbyte := byte.toNat_lt
      have hhigh := value_digit (byte.toNat / 16) (by omega)
      have hlow := value_digit (byte.toNat % 16) (by omega)
      have hvalue : UInt8.ofNat (byte.toNat / 16 * 16 + byte.toNat % 16) = byte := by
        rw [Nat.div_add_mod', UInt8.ofNat_toNat]
      change decode (digit (byte.toNat / 16) :: digit (byte.toNat % 16) :: encode bytes) = _
      simp only [decode, hhigh, hlow, ih, Option.bind_eq_bind, Option.bind_some, hvalue]
      rfl

/-- A string of hexadecimal digits read as exactly `w` bytes. -/
def toVector (w : ℕ) (text : String) : Option (Vector UInt8 w) := do
  Bytes.ofList w (← decode text.toList)

def ofVector {w : ℕ} (bytes : Vector UInt8 w) : String := String.ofList (encode bytes.toList)

theorem toVector_ofVector {w : ℕ} (bytes : Vector UInt8 w) :
    toVector w (ofVector bytes) = some bytes := by
  rw [toVector, ofVector, String.toList_ofList, decode_encode]
  exact Bytes.ofList_toList bytes

/-- The number of a digit string, most significant digit first. -/
def toNat (text : List Char) : Option ℕ := do
  let digits ← text.mapM value
  if digits.isEmpty then none else some (digits.foldl (fun n digit => 16 * n + digit) 0)

theorem value_digitChar : ∀ n < 16, value n.digitChar = some n := by decide

theorem mapM_toDigits (n : ℕ) : ∃ digits, (Nat.toDigits 16 n).mapM value = some digits ∧
    digits ≠ [] ∧ digits.foldl (fun n digit => 16 * n + digit) 0 = n := by
  induction n using Nat.strong_induction_on with
  | _ n ih =>
      by_cases hlt : n < 16
      · refine ⟨[n], ?_, List.cons_ne_nil _ _, by simp⟩
        rw [Nat.toDigits_of_lt_base hlt, List.mapM_cons, value_digitChar n hlt]
        rfl
      · have hle := Nat.not_lt.mp hlt
        obtain ⟨digits, hdigits, -, hvalue⟩ := ih (n / 16) (by omega)
        have hlast := value_digitChar (n % 16) (Nat.mod_lt n (by decide))
        refine ⟨digits ++ [n % 16], ?_, List.append_ne_nil_of_right_ne_nil _ (by simp), ?_⟩
        · rw [Nat.toDigits_of_base_le (by decide) hle, List.mapM_append, hdigits, List.mapM_cons,
            hlast]
          rfl
        · rw [List.foldl_append, hvalue, List.foldl_cons, List.foldl_nil, Nat.div_add_mod]

theorem mem_toDigits (n : ℕ) : ∀ c ∈ Nat.toDigits 16 n, ∃ k < 16, c = k.digitChar := by
  induction n using Nat.strong_induction_on with
  | _ n ih =>
      intro c hc
      by_cases hlt : n < 16
      · rw [Nat.toDigits_of_lt_base hlt] at hc
        exact ⟨n, hlt, List.mem_singleton.mp hc⟩
      · rw [Nat.toDigits_of_base_le (by decide) (Nat.not_lt.mp hlt)] at hc
        rcases List.mem_append.mp hc with hc | hc
        · exact ih (n / 16) (by omega) c hc
        · exact ⟨n % 16, Nat.mod_lt n (by decide), List.mem_singleton.mp hc⟩

theorem toNat_toDigits (n : ℕ) : toNat (Nat.toDigits 16 n) = some n := by
  obtain ⟨digits, hdigits, hne, hvalue⟩ := mapM_toDigits n
  simp [toNat, hdigits, hne, hvalue]

theorem toNat_zero_cons (n : ℕ) : toNat ('0' :: Nat.toDigits 16 n) = some n := by
  obtain ⟨digits, hdigits, -, hvalue⟩ := mapM_toDigits n
  have hzero : value '0' = some 0 := rfl
  simp [toNat, hdigits, hvalue, hzero]

end Hex
