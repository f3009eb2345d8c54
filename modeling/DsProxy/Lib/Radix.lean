import Mathlib.Data.List.TakeWhile
import Mathlib.Data.Nat.Digits.Lemmas

/-!
# Changing the base of a digit string

The schoolbook conversion used by base-58 coders: digits of the source base are taken most
significant first and folded into an accumulator of destination digits, least significant first, and
every leading zero of the input becomes a leading zero of the output. The accumulator is always
`Nat.digits` of the value read so far, so converting there and back is the identity on strings of
source digits, leading zeros included.
-/

namespace Radix

/-- The digits of a carry, least significant first. The fuel bounds the number of digits. -/
def spill (base : ℕ) : ℕ → ℕ → List ℕ
  | 0, _ => []
  | fuel + 1, carry => if carry = 0 then [] else carry % base :: spill base fuel (carry / base)

/-- Multiply the accumulator by the source base and add a digit, carrying upwards. -/
def addDigit (src dst : ℕ) : ℕ → List ℕ → List ℕ
  | carry, [] => spill dst carry carry
  | carry, digit :: rest =>
      (digit * src + carry) % dst :: addDigit src dst ((digit * src + carry) / dst) rest

/-- The destination digits of a source string, least significant first. -/
def accumulate (src dst : ℕ) (input : List ℕ) : List ℕ :=
  input.foldl (fun acc digit => addDigit src dst digit acc) []

/-- The converted string, most significant first. -/
def convert (src dst : ℕ) (input : List ℕ) : List ℕ :=
  List.replicate (input.takeWhile (· == 0)).length 0 ++ (accumulate src dst input).reverse

/-- The conversion of coders that set the leading zeros aside first and trim what they get. -/
def convertTrimmed (src dst : ℕ) (input : List ℕ) : List ℕ :=
  List.replicate (input.takeWhile (· == 0)).length 0 ++
    (accumulate src dst (input.dropWhile (· == 0))).reverse.dropWhile (· == 0)

variable {src dst : ℕ}

/-! ### The accumulator is the digits of the value -/

theorem spill_eq (hdst : 1 < dst) {fuel carry : ℕ} (hfuel : carry ≤ fuel) :
    spill dst fuel carry = Nat.digits dst carry := by
  induction fuel generalizing carry with
  | zero =>
      rw [Nat.le_zero.mp hfuel, Nat.digits_zero]
      rfl
  | succ fuel ih =>
      by_cases hzero : carry = 0
      · rw [spill, if_pos hzero, hzero, Nat.digits_zero]
      · have hlt : carry / dst < carry := Nat.div_lt_self (Nat.pos_of_ne_zero hzero) hdst
        rw [spill, if_neg hzero, ih (by omega),
          Nat.digits_def' hdst (Nat.pos_of_ne_zero hzero)]

theorem addDigit_digits (hsrc : 0 < src) (hdst : 1 < dst) (carry value : ℕ) :
    addDigit src dst carry (Nat.digits dst value) = Nat.digits dst (value * src + carry) := by
  induction value using Nat.strong_induction_on generalizing carry with
  | _ value ih =>
      rcases Nat.eq_zero_or_pos value with rfl | hpos
      · rw [Nat.digits_zero, addDigit, spill_eq hdst le_rfl, Nat.zero_mul, Nat.zero_add]
      · have hsplit : value * src + carry =
            (value % dst * src + carry) + dst * (value / dst * src) := by
          calc value * src + carry
              = (value % dst + dst * (value / dst)) * src + carry := by rw [Nat.mod_add_div]
            _ = (value % dst * src + carry) + dst * (value / dst * src) := by ring
        have hsum : 0 < value * src + carry := Nat.add_pos_left (Nat.mul_pos hpos hsrc) _
        rw [Nat.digits_def' hdst hpos, addDigit, ih _ (Nat.div_lt_self hpos hdst),
          Nat.digits_def' hdst hsum, hsplit, Nat.add_mul_mod_self_left,
          Nat.add_mul_div_left _ _ (by omega : 0 < dst), Nat.add_comm (value / dst * src)]

theorem accumulate_eq (hsrc : 0 < src) (hdst : 1 < dst) (input : List ℕ) :
    accumulate src dst input = Nat.digits dst (Nat.ofDigits src input.reverse) := by
  induction input using List.reverseRecOn with
  | nil => simp [accumulate]
  | append_singleton input digit ih =>
      rw [accumulate, List.foldl_append]
      change addDigit src dst digit (accumulate src dst input) = _
      rw [ih, addDigit_digits hsrc hdst, List.reverse_append, List.reverse_singleton,
        List.singleton_append, Nat.ofDigits_cons, Nat.add_comm, Nat.mul_comm]

/-! ### Leading zeros -/

theorem takeWhile_zero_append (count : ℕ) {rest : List ℕ} (hhead : rest.head? ≠ some 0) :
    (List.replicate count 0 ++ rest).takeWhile (· == 0) = List.replicate count 0 := by
  induction count with
  | zero =>
      cases rest with
      | nil => rfl
      | cons digit rest =>
          have hdigit : digit ≠ 0 := fun h => hhead (by rw [h, List.head?_cons])
          simp [hdigit]
  | succ count ih => simpa [List.replicate_succ] using ih

theorem takeWhile_zero (input : List ℕ) : input.takeWhile (· == 0) =
    List.replicate (input.takeWhile (· == 0)).length 0 := by
  apply List.eq_replicate_of_mem
  intro digit hdigit
  simpa using List.mem_takeWhile_imp hdigit

theorem eq_replicate_append (input : List ℕ) :
    ∃ rest, input = List.replicate (input.takeWhile (· == 0)).length 0 ++ rest ∧
      rest.head? ≠ some 0 := by
  refine ⟨input.dropWhile (· == 0), ?_, ?_⟩
  · rw [← takeWhile_zero, List.takeWhile_append_dropWhile]
  · intro hhead
    have := List.head?_dropWhile_not (· == 0) input
    rw [hhead] at this
    simp at this

theorem ofDigits_reverse_replicate_append (count : ℕ) (rest : List ℕ) :
    Nat.ofDigits src (List.replicate count 0 ++ rest).reverse = Nat.ofDigits src rest.reverse := by
  rw [List.reverse_append, List.reverse_replicate, Nat.ofDigits_append_replicate_zero]

theorem head?_reverse_digits (base value : ℕ) : (Nat.digits base value).reverse.head? ≠ some 0 := by
  rw [List.head?_reverse]
  rcases Nat.eq_zero_or_pos value with rfl | hpos
  · simp
  · have hne : Nat.digits base value ≠ [] := Nat.digits_ne_nil_iff_ne_zero.mpr hpos.ne'
    rw [List.getLast?_eq_some_getLast hne, ne_eq, Option.some.injEq]
    exact Nat.getLast_digit_ne_zero base hpos.ne'

theorem ofDigits_dropWhile (input : List ℕ) :
    Nat.ofDigits src (input.dropWhile (· == 0)).reverse = Nat.ofDigits src input.reverse := by
  conv_rhs => rw [← List.takeWhile_append_dropWhile (p := (· == 0)) (l := input), takeWhile_zero]
  rw [ofDigits_reverse_replicate_append]

theorem dropWhile_reverse_digits (base value : ℕ) :
    (Nat.digits base value).reverse.dropWhile (· == 0) = (Nat.digits base value).reverse := by
  have hhead := head?_reverse_digits base value
  cases hdigits : (Nat.digits base value).reverse with
  | nil => rfl
  | cons digit rest =>
      rw [hdigits, List.head?_cons] at hhead
      have hdigit : digit ≠ 0 := fun h => hhead (congrArg some h)
      simp [hdigit]

/-- Leading zeros add nothing to the accumulator, and digits of a value have none. -/
theorem convertTrimmed_eq (hsrc : 0 < src) (hdst : 1 < dst) (input : List ℕ) :
    convertTrimmed src dst input = convert src dst input := by
  rw [convertTrimmed, convert, accumulate_eq hsrc hdst, accumulate_eq hsrc hdst,
    ofDigits_dropWhile, dropWhile_reverse_digits]

/-! ### There and back -/

theorem convert_replicate_append (hsrc : 0 < src) (hdst : 1 < dst) (count : ℕ) {rest : List ℕ}
    (hhead : rest.head? ≠ some 0) :
    convert src dst (List.replicate count 0 ++ rest) =
      List.replicate count 0 ++ (Nat.digits dst (Nat.ofDigits src rest.reverse)).reverse := by
  rw [convert, takeWhile_zero_append count hhead, List.length_replicate,
    accumulate_eq hsrc hdst, ofDigits_reverse_replicate_append]

/-- Converting a string of source digits to another base and back gives the string. -/
theorem convert_convert (hsrc : 1 < src) (hdst : 1 < dst) {input : List ℕ}
    (hinput : ∀ digit ∈ input, digit < src) : convert dst src (convert src dst input) = input := by
  obtain ⟨rest, hsplit, hhead⟩ := eq_replicate_append input
  have hrest : ∀ digit ∈ rest.reverse, digit < src := fun digit hdigit => by
    rw [hsplit] at hinput
    exact hinput digit (List.mem_append_right _ (List.mem_reverse.mp hdigit))
  have hlast : ∀ hne : rest.reverse ≠ [], rest.reverse.getLast hne ≠ 0 := fun hne hzero => by
    apply hhead
    rw [← List.reverse_reverse rest, List.head?_reverse, List.getLast?_eq_some_getLast hne, hzero]
  calc convert dst src (convert src dst input)
      = convert dst src (List.replicate (input.takeWhile (· == 0)).length 0 ++
          (Nat.digits dst (Nat.ofDigits src rest.reverse)).reverse) := by
        rw [← convert_replicate_append (by omega) hdst _ hhead, ← hsplit]
    _ = List.replicate (input.takeWhile (· == 0)).length 0 ++ rest := by
        rw [convert_replicate_append (by omega) hsrc _ (head?_reverse_digits _ _),
          List.reverse_reverse, Nat.ofDigits_digits, Nat.digits_ofDigits _ hsrc _ hrest hlast,
          List.reverse_reverse]
    _ = input := hsplit.symm

theorem convert_lt (hsrc : 0 < src) (hdst : 1 < dst) {input : List ℕ} {digit : ℕ}
    (hdigit : digit ∈ convert src dst input) : digit < dst := by
  rw [convert, List.mem_append, List.mem_replicate, List.mem_reverse,
    accumulate_eq hsrc hdst] at hdigit
  rcases hdigit with ⟨_, rfl⟩ | hdigit
  · omega
  · exact Nat.digits_lt_base hdst hdigit

end Radix
