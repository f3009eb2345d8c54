import Mathlib.Data.Nat.Notation
import Mathlib.Tactic.Common

/-!
# Base64

The standard alphabet with padding: three bytes as four digits, and one or two bytes at the end
padded to four characters. The reader skips line breaks and ignores the spare bits of a padded
group. Decoding a text undoes encoding it.
-/

namespace Base64

def alphabet : List Char :=
  "ABCDEFGHIJKLMNOPQRSTUVWXYZabcdefghijklmnopqrstuvwxyz0123456789+/".toList

def digitChar (digit : ℕ) : Char := alphabet.getD digit 'A'

def charDigit (c : Char) : Option ℕ := alphabet.findIdx? (· == c)

def encode : List UInt8 → List Char
  | [] => []
  | [a] => [digitChar (a.toNat / 4), digitChar (a.toNat % 4 * 16), '=', '=']
  | [a, b] => [digitChar (a.toNat / 4), digitChar (a.toNat % 4 * 16 + b.toNat / 16),
      digitChar (b.toNat % 16 * 4), '=']
  | a :: b :: c :: rest => digitChar (a.toNat / 4) :: digitChar (a.toNat % 4 * 16 + b.toNat / 16) ::
      digitChar (b.toNat % 16 * 4 + c.toNat / 64) :: digitChar (c.toNat % 64) :: encode rest

/-- The bytes of whole groups of four characters. -/
def decodeGroups : List Char → Option (List UInt8)
  | [] => some []
  | [w, x, '=', '='] => do
    return [UInt8.ofNat ((← charDigit w) * 4 + (← charDigit x) / 16)]
  | [w, x, y, '='] => do
    let x ← charDigit x
    let y ← charDigit y
    return [UInt8.ofNat ((← charDigit w) * 4 + x / 16), UInt8.ofNat (x % 16 * 16 + y / 4)]
  | w :: x :: y :: z :: rest => do
    let x ← charDigit x
    let y ← charDigit y
    let a := (← charDigit w) * 4 + x / 16
    let c := y % 4 * 64 + (← charDigit z)
    return UInt8.ofNat a :: UInt8.ofNat (x % 16 * 16 + y / 4) :: UInt8.ofNat c ::
      (← decodeGroups rest)
  | _ => none

def decode (text : List Char) : Option (List UInt8) :=
  decodeGroups (text.filter fun c => c ≠ '\n' ∧ c ≠ '\r')

theorem charDigit_digitChar : ∀ digit < 64, charDigit (digitChar digit) = some digit := by
  decide +kernel

theorem digitChar_ne_pad : ∀ digit < 64, digitChar digit ≠ '=' := by decide +kernel

theorem digitChar_ne_break : ∀ digit < 64, digitChar digit ≠ '\n' ∧ digitChar digit ≠ '\r' := by
  decide +kernel

theorem decodeGroups_encode (bytes : List UInt8) : decodeGroups (encode bytes) = some bytes := by
  fun_induction encode bytes with
  | case1 => rfl
  | case2 a =>
      have ha := a.toNat_lt
      have hw := charDigit_digitChar (a.toNat / 4) (by omega)
      have hx := charDigit_digitChar (a.toNat % 4 * 16) (by omega)
      simp [decodeGroups, hw, hx, ← UInt8.toNat_inj]
      omega
  | case3 a b =>
      have ha := a.toNat_lt
      have hb := b.toNat_lt
      have hw := charDigit_digitChar (a.toNat / 4) (by omega)
      have hx := charDigit_digitChar (a.toNat % 4 * 16 + b.toNat / 16) (by omega)
      have hy := charDigit_digitChar (b.toNat % 16 * 4) (by omega)
      have hne := digitChar_ne_pad (b.toNat % 16 * 4) (by omega)
      simp [decodeGroups, hw, hx, hy, ← UInt8.toNat_inj]
      omega
  | case4 a b c rest ih =>
      have ha := a.toNat_lt
      have hb := b.toNat_lt
      have hc := c.toNat_lt
      have hw := charDigit_digitChar (a.toNat / 4) (by omega)
      have hx := charDigit_digitChar (a.toNat % 4 * 16 + b.toNat / 16) (by omega)
      have hy := charDigit_digitChar (b.toNat % 16 * 4 + c.toNat / 64) (by omega)
      have hz := charDigit_digitChar (c.toNat % 64) (by omega)
      have hne := digitChar_ne_pad (c.toNat % 64) (by omega)
      simp [decodeGroups, hw, hx, hy, hz, hne, ih, ← UInt8.toNat_inj]
      omega

theorem mem_encode {bytes : List UInt8} {char : Char} (h : char ∈ encode bytes) :
    char = '=' ∨ ∃ digit < 64, char = digitChar digit := by
  fun_induction encode bytes with
  | case1 => cases h
  | case2 a =>
      have ha := a.toNat_lt
      simp only [List.mem_cons, List.not_mem_nil, or_false] at h
      rcases h with h | h | h | h
      · exact Or.inr ⟨_, by omega, h⟩
      · exact Or.inr ⟨_, by omega, h⟩
      · exact Or.inl h
      · exact Or.inl h
  | case3 a b =>
      have ha := a.toNat_lt
      have hb := b.toNat_lt
      simp only [List.mem_cons, List.not_mem_nil, or_false] at h
      rcases h with h | h | h | h
      · exact Or.inr ⟨_, by omega, h⟩
      · exact Or.inr ⟨_, by omega, h⟩
      · exact Or.inr ⟨_, by omega, h⟩
      · exact Or.inl h
  | case4 a b c rest ih =>
      have ha := a.toNat_lt
      have hb := b.toNat_lt
      have hc := c.toNat_lt
      simp only [List.mem_cons] at h
      rcases h with h | h | h | h | h
      · exact Or.inr ⟨_, by omega, h⟩
      · exact Or.inr ⟨_, by omega, h⟩
      · exact Or.inr ⟨_, by omega, h⟩
      · exact Or.inr ⟨_, by omega, h⟩
      · exact ih h

theorem decode_encode (bytes : List UInt8) : decode (encode bytes) = some bytes := by
  have hkeep : (encode bytes).filter (fun c => c ≠ '\n' ∧ c ≠ '\r') = encode bytes :=
    List.filter_eq_self.mpr fun c hc => by
      rcases mem_encode hc with rfl | ⟨digit, hdigit, rfl⟩
      · rfl
      · exact decide_eq_true (digitChar_ne_break digit hdigit)
  rw [decode, hkeep, decodeGroups_encode]

end Base64
