import DsProxy.Lib.Bytes
import DsProxy.Lib.Radix

/-!
# Base58

The Bitcoin alphabet over the base conversion of `Radix`: one character per base-58 digit, and one
leading `1` for every leading zero byte. Decoding a string undoes encoding it, so the encoding is
injective, and every character it emits is ASCII.
-/

namespace Base58

/-- The alphabet, in digit order. -/
def alphabet : List Char :=
  "123456789ABCDEFGHJKLMNPQRSTUVWXYZabcdefghijkmnopqrstuvwxyz".toList

/-- The character of a digit. -/
def digitChar (digit : ℕ) : Char := alphabet.getD digit '1'

/-- The digit of a character, `none` outside the alphabet. -/
def charDigit (c : Char) : Option ℕ := alphabet.findIdx? (· == c)

def encode (bytes : List UInt8) : List Char :=
  (Radix.convert 256 58 (bytes.map UInt8.toNat)).map digitChar

/-- The coders that set the leading zeros aside first. -/
def encodeTrimmed (bytes : List UInt8) : List Char :=
  (Radix.convertTrimmed 256 58 (bytes.map UInt8.toNat)).map digitChar

def decode (text : List Char) : Option (List UInt8) :=
  (text.mapM charDigit).map fun digits => (Radix.convert 58 256 digits).map UInt8.ofNat

theorem charDigit_digitChar : ∀ digit < 58, charDigit (digitChar digit) = some digit := by
  decide

theorem digitChar_ascii : ∀ digit < 58, (digitChar digit).toNat < 128 := by
  decide

theorem mapM_charDigit (digits : List ℕ) (hdigits : ∀ digit ∈ digits, digit < 58) :
    (digits.map digitChar).mapM charDigit = some digits := by
  induction digits with
  | nil => rfl
  | cons digit rest ih =>
      have hhead := charDigit_digitChar digit (hdigits digit List.mem_cons_self)
      have htail := ih fun d hd => hdigits d (List.mem_cons_of_mem digit hd)
      rw [List.map_cons, List.mapM_cons, hhead, htail]
      rfl

theorem toNat_lt_of_mem {bytes : List UInt8} {digit : ℕ} (h : digit ∈ bytes.map UInt8.toNat) :
    digit < 256 := by
  obtain ⟨byte, _, rfl⟩ := List.mem_map.mp h
  exact byte.toNat_lt

theorem decode_encode (bytes : List UInt8) : decode (encode bytes) = some bytes := by
  have hdigits : ∀ digit ∈ Radix.convert 256 58 (bytes.map UInt8.toNat), digit < 58 :=
    fun digit hdigit => Radix.convert_lt (by decide) (by decide) hdigit
  rw [decode, encode, mapM_charDigit _ hdigits, Option.map_some,
    Radix.convert_convert (by decide) (by decide) fun _ h => toNat_lt_of_mem h, List.map_map]
  simp [Function.comp_def]

theorem encode_injective {first second : List UInt8} (h : encode first = encode second) :
    first = second := by
  have hdecode := congrArg decode h
  rw [decode_encode, decode_encode] at hdecode
  exact Option.some.inj hdecode

theorem encodeTrimmed_eq (bytes : List UInt8) : encodeTrimmed bytes = encode bytes := by
  rw [encodeTrimmed, encode, Radix.convertTrimmed_eq (by decide) (by decide)]

example : encodeTrimmed [0, 0, 255] = "115Q".toList := by decide

theorem encode_ascii {bytes : List UInt8} {c : Char} (hc : c ∈ encode bytes) : c.toNat < 128 := by
  obtain ⟨digit, hdigit, rfl⟩ := List.mem_map.mp hc
  exact digitChar_ascii digit (Radix.convert_lt (by decide) (by decide) hdigit)

end Base58
