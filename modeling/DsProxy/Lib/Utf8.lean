import Mathlib.Tactic.Common

/-!
# Streamed UTF-8

The decoder of the Encoding Standard, one byte at a time: what a byte sequence decodes to does not
depend on how it is cut into chunks. Malformed bytes become replacement characters, and a byte order
mark at the start of the text is dropped.
-/

namespace Utf8

def encode (text : List Char) : List UInt8 := text.flatMap String.utf8EncodeChar

/-- Between characters, or inside one: its code point so far, the number of bytes after the next
one, and the range of the next one. -/
inductive State
  | start
  | inside (code more lower upper : ℕ)

def replacement : Char := Char.ofNat 0xFFFD

/-- The first byte of a character. -/
def lead (b : ℕ) : State × List Char :=
  if b ≤ 0x7F then (.start, [Char.ofNat b])
  else if 0xC2 ≤ b ∧ b ≤ 0xDF then (.inside (b - 0xC0) 0 0x80 0xBF, [])
  else if 0xE0 ≤ b ∧ b ≤ 0xEF then
    (.inside (b - 0xE0) 1 (if b = 0xE0 then 0xA0 else 0x80) (if b = 0xED then 0x9F else 0xBF), [])
  else if 0xF0 ≤ b ∧ b ≤ 0xF4 then
    (.inside (b - 0xF0) 2 (if b = 0xF0 then 0x90 else 0x80) (if b = 0xF4 then 0x8F else 0xBF), [])
  else (.start, [replacement])

def step : State → ℕ → State × List Char
  | .start, b => lead b
  | .inside code more lower upper, b =>
    if lower ≤ b ∧ b ≤ upper then
      match more with
      | 0 => (.start, [Char.ofNat (code * 64 + (b - 0x80))])
      | more + 1 => (.inside (code * 64 + (b - 0x80)) more 0x80 0xBF, [])
    else
      -- the character breaks off, and the byte is looked at once more as a first one
      ((lead b).1, replacement :: (lead b).2)

def decode : State → List UInt8 → State × List Char
  | s, [] => (s, [])
  | s, b :: rest =>
    let (s', text) := step s b.toNat
    let (s'', more) := decode s' rest
    (s'', text ++ more)

theorem decode_cons (s : State) (b : UInt8) (rest : List UInt8) :
    decode s (b :: rest) = ((decode (step s b.toNat).1 rest).1,
      (step s b.toNat).2 ++ (decode (step s b.toNat).1 rest).2) := rfl

theorem decode_append (s : State) (bytes more : List UInt8) :
    decode s (bytes ++ more) = ((decode (decode s bytes).1 more).1,
      (decode s bytes).2 ++ (decode (decode s bytes).1 more).2) := by
  induction bytes generalizing s with
  | nil => rfl
  | cons b rest ih => simp only [List.cons_append, decode_cons, ih, List.append_assoc]

/-! ### Characters -/

theorem lead_two {b : ℕ} (hlow : 0xC2 ≤ b) (hhigh : b ≤ 0xDF) :
    lead b = (.inside (b - 0xC0) 0 0x80 0xBF, []) := by
  rw [lead, if_neg (by omega), if_pos ⟨hlow, hhigh⟩]

theorem lead_three {b : ℕ} (hlow : 0xE0 ≤ b) (hhigh : b ≤ 0xEF) :
    lead b = (.inside (b - 0xE0) 1 (if b = 0xE0 then 0xA0 else 0x80)
      (if b = 0xED then 0x9F else 0xBF), []) := by
  rw [lead, if_neg (by omega), if_neg (by omega), if_pos ⟨hlow, hhigh⟩]

theorem lead_four {b : ℕ} (hlow : 0xF0 ≤ b) (hhigh : b ≤ 0xF4) :
    lead b = (.inside (b - 0xF0) 2 (if b = 0xF0 then 0x90 else 0x80)
      (if b = 0xF4 then 0x8F else 0xBF), []) := by
  rw [lead, if_neg (by omega), if_neg (by omega), if_neg (by omega), if_pos ⟨hlow, hhigh⟩]

section Inside

variable {code more lower upper b : ℕ} (hlow : lower ≤ b) (hhigh : b ≤ upper)
include hlow hhigh

theorem step_more : step (.inside code (more + 1) lower upper) b =
    (.inside (code * 64 + (b - 0x80)) more 0x80 0xBF, []) := by
  rw [step, if_pos ⟨hlow, hhigh⟩]

theorem step_last : step (.inside code 0 lower upper) b =
    (.start, [Char.ofNat (code * 64 + (b - 0x80))]) := by
  rw [step, if_pos ⟨hlow, hhigh⟩]

end Inside

theorem toNat_ofNat {n : ℕ} (h : n < 256) : (UInt8.ofNat n).toNat = n := by
  rw [UInt8.toNat_ofNat', Nat.mod_eq_of_lt h]

/-- The range of the second byte excludes the code points that are too small or surrogates. -/
theorem decode_char (c : Char) : decode .start (String.utf8EncodeChar c) = (.start, [c]) := by
  have hvalid : c.toNat < 0xD800 ∨ 0xDFFF < c.toNat ∧ c.toNat < 0x110000 := c.valid
  have hchar : Char.ofNat c.toNat = c := Char.ofNat_toNat c
  have hval : c.val.toNat = c.toNat := rfl
  unfold String.utf8EncodeChar
  dsimp only
  rw [hval]
  generalize c.toNat = v at hvalid hchar
  split_ifs with hone htwo hthree
  · rw [decode_cons, toNat_ofNat (by omega), step, lead, if_pos hone, hchar]
    rfl
  · rw [decode_cons, decode_cons, toNat_ofNat (by omega), toNat_ofNat (by omega), step,
      lead_two (by omega) (by omega)]
    dsimp only
    rw [step_last (by omega) (by omega)]
    have hcode : (v / 64 % 32 + 192 - 192) * 64 + (v % 64 + 128 - 128) = v := by omega
    rw [hcode, hchar]
    rfl
  · rw [decode_cons, decode_cons, decode_cons, toNat_ofNat (by omega), toNat_ofNat (by omega),
      toNat_ofNat (by omega), step, lead_three (by omega) (by omega)]
    dsimp only
    rw [step_more (by split_ifs <;> omega) (by split_ifs <;> omega)]
    dsimp only
    rw [step_last (by omega) (by omega)]
    have hcode : ((v / 4096 % 16 + 224 - 224) * 64 + (v / 64 % 64 + 128 - 128)) * 64 +
        (v % 64 + 128 - 128) = v := by omega
    rw [hcode, hchar]
    rfl
  · rw [decode_cons, decode_cons, decode_cons, decode_cons, toNat_ofNat (by omega),
      toNat_ofNat (by omega), toNat_ofNat (by omega), toNat_ofNat (by omega), step,
      lead_four (by omega) (by omega)]
    dsimp only
    rw [step_more (by split_ifs <;> omega) (by split_ifs <;> omega)]
    dsimp only
    rw [step_more (by omega) (by omega)]
    dsimp only
    rw [step_last (by omega) (by omega)]
    have hcode : (((v / 262144 % 8 + 240 - 240) * 64 + (v / 4096 % 64 + 128 - 128)) * 64 +
        (v / 64 % 64 + 128 - 128)) * 64 + (v % 64 + 128 - 128) = v := by omega
    rw [hcode, hchar]
    rfl

theorem decode_encode (text : List Char) : decode .start (encode text) = (.start, text) := by
  induction text with
  | nil => rfl
  | cons c text ih =>
      rw [encode, List.flatMap_cons, decode_append, decode_char]
      rw [encode] at ih
      rw [ih, List.singleton_append]

theorem encode_injective {first second : List Char} (h : encode first = encode second) :
    first = second := by
  have hdecode := congrArg (decode .start) h
  rw [decode_encode, decode_encode] at hdecode
  exact congrArg Prod.snd hdecode

theorem encode_ascii {text : List Char} (hascii : ∀ c ∈ text, c.toNat < 128) :
    encode text = text.map fun c => UInt8.ofNat c.toNat := by
  induction text with
  | nil => rfl
  | cons c rest ih =>
      have hc := hascii c List.mem_cons_self
      have hencode : String.utf8EncodeChar c = [UInt8.ofNat c.toNat] :=
        if_pos (Nat.le_of_lt_succ hc)
      have hrest := ih fun d hd => hascii d (List.mem_cons_of_mem c hd)
      rw [encode] at hrest
      rw [encode, List.flatMap_cons, hencode, hrest]
      rfl

/-! ### Chunks -/

def byteOrderMark : Char := Char.ofNat 0xFEFF

/-- The state between two chunks, and whether the start of the text is behind. -/
structure TextDecoder where
  state : State
  started : Bool

def TextDecoder.new : TextDecoder := ⟨.start, false⟩

/-- A text without its byte order mark. -/
def strip : List Char → List Char
  | [] => []
  | c :: text => if c = byteOrderMark then text else c :: text

/-- `decode` with `stream`: the text of one more chunk. -/
def TextDecoder.decode (d : TextDecoder) (chunk : List UInt8) : TextDecoder × List Char :=
  let (state, text) := Utf8.decode d.state chunk
  match d.started with
  | true => (⟨state, true⟩, text)
  | false => (⟨state, !text.isEmpty⟩, strip text)

def TextDecoder.decodeAll : TextDecoder → List (List UInt8) → List (List Char)
  | _, [] => []
  | d, chunk :: rest =>
    let (d', text) := d.decode chunk
    text :: d'.decodeAll rest

theorem flatten_decodeAll_started (s : State) (chunks : List (List UInt8)) :
    (TextDecoder.decodeAll ⟨s, true⟩ chunks).flatten = (decode s chunks.flatten).2 := by
  induction chunks generalizing s with
  | nil => rfl
  | cons chunk rest ih =>
      simp only [TextDecoder.decodeAll, List.flatten_cons, decode_append, TextDecoder.decode, ih]

theorem flatten_decodeAll (s : State) (chunks : List (List UInt8)) :
    (TextDecoder.decodeAll ⟨s, false⟩ chunks).flatten = strip (decode s chunks.flatten).2 := by
  induction chunks generalizing s with
  | nil => rfl
  | cons chunk rest ih =>
      simp only [TextDecoder.decodeAll, List.flatten_cons, decode_append, TextDecoder.decode]
      cases htext : (decode s chunk).2 with
      | nil => exact ih _
      | cons c text =>
          dsimp only [List.isEmpty_cons]
          rw [Bool.not_false, flatten_decodeAll_started, strip, List.cons_append, strip]
          split_ifs <;> rfl

/-- However the bytes of a text are cut, the chunks decode to the text. -/
theorem decodeAll_encode {text : List Char} {chunks : List (List UInt8)}
    (hchunks : chunks.flatten = encode text) (hmark : text.head? ≠ some byteOrderMark) :
    (TextDecoder.new.decodeAll chunks).flatten = text := by
  rw [TextDecoder.new, flatten_decodeAll, hchunks, decode_encode]
  cases text with
  | nil => rfl
  | cons c text => exact if_neg fun h => hmark (congrArg some h)

end Utf8
