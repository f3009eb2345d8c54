import DsProxy.App.Services
import DsProxy.BalancePayment.Sdk
import DsProxy.Lib.Base64

/-!
# The recover info on its way to the SDK

`handleCharge` of the web app and `sign_message` of `scripts/cli.ts` write the signed authorisation
as JSON. They differ in the deadline, which is a number in one text and the big number's own
hexadecimal string in the other; the second is what the CLI's `lock` and `pay` read.
-/

namespace DsProxy.App

open BalancePayment

/-! ### Big numbers -/

/-- `toString(16, 2)` of a big number that is not negative, its `toJSON`. -/
def hexText (n : ℕ) : List Char :=
  let digits := Nat.toDigits 16 n
  if digits.length % 2 = 0 then digits else '0' :: digits

/-- `new BN(text, "hex")`. -/
def parseHex (text : List Char) : Option ℤ :=
  match text.filter fun c => !isWhitespace c with
  | '-' :: digits => (Hex.toNat digits).map fun n : ℕ => -(n : ℤ)
  | digits => (Hex.toNat digits).map fun n : ℕ => (n : ℤ)

/-- `new BN(value, "hex")` of a parsed value: a number is taken as it is, within the exact range. -/
def newBN : Json → Option ℤ
  | .num n => if n.natAbs < 2 ^ 53 then some n else none
  | .str text => parseHex text.toList
  | _ => none

/-- `toNumber`, which throws outside the exact range. -/
def toNumber (n : ℕ) : Option ℤ := if n < 2 ^ 53 then some n else none

/-! ### The two producers -/

def recoverInfoJson (signature payload : Vector UInt8 64) (deadline : Json) : Json := Json.object [
  ("signature", Serde.ofBytes signature), ("payload", Serde.ofBytes payload),
  ("deadline", deadline)]

/-- The recover info that `handleCharge` publishes. -/
def chargeText (signature payload : Vector UInt8 64) (deadline : ℕ) : Option String :=
  (toNumber deadline).map fun n => (recoverInfoJson signature payload (.num n)).print

/-- The JSON that `sign_message` prints. -/
def signedText (signature payload : Vector UInt8 64) (deadline : ℕ) : String :=
  (recoverInfoJson signature payload (.str (String.ofList (hexText deadline)))).print

/-- `Buffer.from(text).toString("base64")`. -/
def toBase64 (text : String) : String := String.ofList (Base64.encode (Utf8.encode text.toList))

/-- `Buffer.from(text, "base64").toString()`. -/
def ofBase64 (text : String) : Option String := do
  let bytes ← Base64.decode text.toList
  match Utf8.decode .start bytes with
  | (.start, chars) => return String.ofList chars
  | (_, chars) => return String.ofList (chars ++ [Utf8.replacement])

/-- The recover info of the CLI's `lock` and `pay`, as the instruction takes it. -/
def toInstruction (recoverInfo : Json) : Option ED25519RecoverInfo := do
  let signature ← Serde.toBytes 64 (← property "signature" recoverInfo)
  let payload ← Serde.toBytes 64 (← property "payload" recoverInfo)
  let deadline ← newBN (← property "deadline" recoverInfo)
  return ⟨signature, payload, ← Serde.toInt64 deadline⟩

def readRecoverInfo (recoverInfo : String) : Option ED25519RecoverInfo :=
  ((ofBase64 recoverInfo).bind Json.parse).bind toInstruction

/-! ### Reading them -/

variable {signature payload : Vector UInt8 64} {deadline : ℕ}

theorem toInt64_natCast (h : deadline < 2 ^ 53) :
    Serde.toInt64 deadline = some (Int64.ofNat deadline) := by
  rw [Serde.toInt64, if_pos (by omega)]
  rfl

theorem toRecoverInfo_num (n : ℤ) : Sdk.toRecoverInfo (recoverInfoJson signature payload (.num n)) =
    (Serde.toInt64 n).map fun deadline => ⟨signature, payload, deadline⟩ := by
  simp [Sdk.toRecoverInfo, recoverInfoJson, Json.object, Json.Members.ofList, Serde.int64Field,
    Serde.field, Json.values, Json.Members.values, Json.int?, Serde.toBytes_ofBytes,
    Option.map_eq_bind]

theorem toRecoverInfo_str (text : String) :
    Sdk.toRecoverInfo (recoverInfoJson signature payload (.str text)) = none := by
  simp [Sdk.toRecoverInfo, recoverInfoJson, Json.object, Json.Members.ofList, Serde.int64Field,
    Serde.field, Json.values, Json.Members.values, Json.int?]

theorem plain_digitChar : ∀ k < 16, isWhitespace (Nat.digitChar k) = false ∧
    Nat.digitChar k ≠ '-' := by
  decide

theorem plain_hexText (n : ℕ) : ∀ c ∈ hexText n, isWhitespace c = false ∧ c ≠ '-' := by
  intro c hc
  have hmem : c = '0' ∨ c ∈ Nat.toDigits 16 n := by
    dsimp only [hexText] at hc
    split_ifs at hc
    · exact Or.inr hc
    · exact List.mem_cons.mp hc
  rcases hmem with rfl | hmem
  · exact plain_digitChar 0 (by decide)
  · obtain ⟨k, hk, rfl⟩ := Hex.mem_toDigits n c hmem
    exact plain_digitChar k hk

theorem toNat_hexText (n : ℕ) : Hex.toNat (hexText n) = some n := by
  dsimp only [hexText]
  split_ifs
  · exact Hex.toNat_toDigits n
  · exact Hex.toNat_zero_cons n

theorem parseHex_hexText (n : ℕ) : parseHex (hexText n) = some (n : ℤ) := by
  have hplain := plain_hexText n
  have hvalue := toNat_hexText n
  have hkeep : (hexText n).filter (fun c => !isWhitespace c) = hexText n :=
    List.filter_eq_self.mpr fun c hc => by rw [(hplain c hc).1]; rfl
  rw [parseHex, hkeep]
  cases htext : hexText n with
  | nil =>
      rw [htext] at hvalue
      cases hvalue
  | cons c rest =>
      rw [htext] at hvalue hplain
      have hminus := (hplain c List.mem_cons_self).2
      simp [hminus, hvalue]

theorem ofBase64_toBase64 (text : String) : ofBase64 (toBase64 text) = some text := by
  rw [ofBase64, toBase64, String.toList_ofList, Base64.decode_encode]
  simp [Utf8.decode_encode]

theorem property_recoverInfoJson (signature payload : Vector UInt8 64) (deadline : Json) :
    property "signature" (recoverInfoJson signature payload deadline) =
        some (Serde.ofBytes signature) ∧
      property "payload" (recoverInfoJson signature payload deadline) =
        some (Serde.ofBytes payload) ∧
      property "deadline" (recoverInfoJson signature payload deadline) = some deadline := by
  simp [property, recoverInfoJson, Json.object, Json.Members.ofList, Json.values,
    Json.Members.values]

theorem toInstruction_str {text : String} (hread : newBN (.str text) = some (deadline : ℤ))
    (h : deadline < 2 ^ 53) : toInstruction (recoverInfoJson signature payload (.str text)) =
      some ⟨signature, payload, Int64.ofNat deadline⟩ := by
  obtain ⟨hsignature, hpayload, hdeadline⟩ := property_recoverInfoJson signature payload (.str text)
  simp only [toInstruction, Option.bind_eq_bind, Option.bind_eq_some_iff]
  exact ⟨_, hsignature, _, Serde.toBytes_ofBytes _, _, hpayload, _, Serde.toBytes_ofBytes _, _,
    hdeadline, _, hread, _, toInt64_natCast h, rfl⟩

/-- The CLI's `lock` and `pay` read what `sign_message` prints. -/
theorem readRecoverInfo_signedText (h : deadline < 2 ^ 53) :
    readRecoverInfo (toBase64 (signedText signature payload deadline)) =
      some ⟨signature, payload, Int64.ofNat deadline⟩ := by
  have hread : newBN (.str (String.ofList (hexText deadline))) = some (deadline : ℤ) := by
    rw [newBN, String.toList_ofList, parseHex_hexText]
  rw [readRecoverInfo, ofBase64_toBase64, Option.bind_some, signedText, Json.parse_print,
    Option.bind_some]
  exact toInstruction_str hread h

theorem parseRecoverInfo_signedText (bot : Key) :
    (Sdk.serde bot).parseRecoverInfo (signedText signature payload deadline) = none := by
  show (Json.parse _).bind Sdk.toRecoverInfo = none
  rw [signedText, Json.parse_print, Option.bind_some, toRecoverInfo_str]

theorem parseRecoverInfo_chargeText (bot : Key) (h : deadline < 2 ^ 53) :
    (chargeText signature payload deadline).bind (Sdk.serde bot).parseRecoverInfo =
      some ⟨signature, payload, Int64.ofNat deadline⟩ := by
  rw [chargeText, toNumber, if_pos h]
  show (Json.parse _).bind Sdk.toRecoverInfo = _
  rw [Json.parse_print, Option.bind_some, toRecoverInfo_num, toInt64_natCast h]
  rfl

/-- What becomes of the two texts of a signed authorisation: the SDK reads the web app's, it refuses
the CLI's, and the CLI reads its own. -/
structure Exchanged (bot : Key) (signature payload : Vector UInt8 64) (deadline : ℕ) : Prop where
  charge : (chargeText signature payload deadline).bind (Sdk.serde bot).parseRecoverInfo =
    some ⟨signature, payload, Int64.ofNat deadline⟩
  signed : (Sdk.serde bot).parseRecoverInfo (signedText signature payload deadline) = none
  readBack : readRecoverInfo (toBase64 (signedText signature payload deadline)) =
    some ⟨signature, payload, Int64.ofNat deadline⟩

theorem recover_info_exchanged (bot : Key) (signature payload : Vector UInt8 64) {deadline : ℕ}
    (h : deadline < 2 ^ 53) : Exchanged bot signature payload deadline :=
  ⟨parseRecoverInfo_chargeText bot h, parseRecoverInfo_signedText bot, readRecoverInfo_signedText h⟩

namespace Sample

def zeros : Vector UInt8 64 := Vector.replicate 64 0

end Sample

theorem recover_info_exchanged_sample :
    Exchanged BalancePayment.Sample.bot Sample.zeros Sample.zeros 1735689600 :=
  recover_info_exchanged _ _ _ (by decide)

/-- An authorisation that the CLI has printed does not come back from the SDK. -/
theorem signed_text_refused : (Sdk.serde BalancePayment.Sample.bot).parseRecoverInfo
    (signedText Sample.zeros Sample.zeros 1735689600) ≠
      some ⟨Sample.zeros, Sample.zeros, 1735689600⟩ := by
  rw [parseRecoverInfo_signedText]
  nofun

end DsProxy.App
