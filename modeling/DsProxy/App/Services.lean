import DsProxy.Lib.Blocks
import DsProxy.Lib.Json
import DsProxy.Lib.Utf8
import Mathlib.Data.List.TakeWhile

/-!
# `addMessage` of the web app

`services/index.ts`: the request, and the loop that takes the events off the response as it arrives.
A text is a list of characters where the source counts UTF-16 units; nothing here tells the two
apart. The handler is taken to return.
-/

namespace DsProxy.App

/-! ### Texts -/

/-- What `trim` takes away and `\s` matches. -/
def isWhitespace (c : Char) : Bool :=
  [0x9, 0xA, 0xB, 0xC, 0xD, 0x20, 0xA0, 0x1680, 0x2028, 0x2029, 0x202F, 0x205F, 0x3000,
    0xFEFF].contains c.toNat || 0x2000 ≤ c.toNat && c.toNat ≤ 0x200A

/-- What `.` does not match. -/
def isLineTerminator (c : Char) : Bool :=
  ['\n', '\r', Char.ofNat 0x2028, Char.ofNat 0x2029].contains c

def trim (text : List Char) : List Char :=
  ((text.dropWhile isWhitespace).reverse.dropWhile isWhitespace).reverse

def startsWith (text : List Char) (start : String) : Bool := start.toList.isPrefixOf text

/-- The match of `.*}`, which is greedy. -/
def matchBraced (text : List Char) : Option (List Char) :=
  match (text.takeWhile fun c => !isLineTerminator c).reverse.dropWhile (· ≠ '}') with
  | [] => none
  | matched => some matched.reverse

/-- The group of a match of `/data:\s*({.*})/` where the text starts. -/
def matchData (text : List Char) : Option (List Char) :=
  if startsWith text "data:" then
    match (text.drop 5).dropWhile isWhitespace with
    | '{' :: rest => (matchBraced rest).map ('{' :: ·)
    | _ => none
  else none

/-- The group of the leftmost match. -/
def dataMatch : List Char → Option (List Char)
  | [] => none
  | c :: rest => (matchData (c :: rest)).or (dataMatch rest)

/-! ### Values -/

/-- A property of a parsed object; a missing one is undefined. -/
def property (name : String) (v : Json) : Option Json := (v.values name).getLast?

def truthy : Json → Bool
  | .null => false
  | .bool b => b
  | .num n => n ≠ 0
  | .str text => text ≠ ""
  | _ => true

inductive ApiResponse
  | data (value : Json)
  | error (value : Json)
  /-- An error with the message of what was thrown. -/
  | thrown

/-- `data.error || fallback`. -/
def errorOr (data : Json) (fallback : String) : ApiResponse :=
  match data with
  | .null => .thrown
  | data =>
    match property "error" data with
    | some value => .error (if truthy value then value else .str fallback)
    | none => .error (.str fallback)

/-! ### Reading the stream -/

/-- What the handler has been called with, and the message of the last event. -/
structure Reading where
  handled : List (Option Json)
  doneMessage : Option Json

/-- One event; the round ends at a done event, and a text that is no JSON throws. -/
def onEvent (s : Reading) (block : List Char) : Except Reading (Reading × Bool) :=
  let event := trim block
  if startsWith event "event:done" then
    match dataMatch event with
    | none => .ok (s, true)
    | some data =>
      match Json.parse (String.ofList data) with
      | none => .error s
      | some message => .ok ({ s with doneMessage := some message }, true)
  else if startsWith event "event:message" then
    match dataMatch event with
    | none => .ok (s, false)
    | some data =>
      match Json.parse (String.ofList data) with
      | none => .error s
      | some sseMsg => .ok ({ s with handled := s.handled ++ [property "content" sseMsg] }, false)
  else .ok (s, false)

/-- The loop over the chunks; events are divided by blank lines. -/
def readStream : Utf8.TextDecoder → Reading → List Char → List (List UInt8) →
    Except Reading (Reading × List Char)
  | _, s, buffer, [] => .ok (s, buffer)
  | decoder, s, buffer, value :: rest =>
    let (decoder', text) := decoder.decode value
    match Blocks.drain '\n' onEvent s (buffer ++ text) with
    | .error s' => .error s'
    | .ok (s', buffer') => readStream decoder' s' buffer' rest

/-! ### `addMessage` -/

structure Request where
  authorization : String
  body : String

/-- The chunks that arrive, and whether the connection breaks off after them. -/
structure Body where
  chunks : List (List UInt8)
  broken : Bool

/-- What `fetch` resolves to; `json` is the body read as a whole. -/
structure Response where
  ok : Bool
  json : Option Json
  body : Option Body

/-- The contents passed to the handler, and the result. -/
def addMessage (authData : Option String) (fetch : Request → Option Response)
    (conversationId content model : String) : List (Option Json) × ApiResponse :=
  match authData with
  | none => ([], .error (.str "No valid authentication data found, please login again"))
  | some token =>
    let body := Json.object [
      ("conversation_id", .str conversationId), ("content", .str content), ("model", .str model)]
    match fetch ⟨"Bearer " ++ token, body.print⟩ with
    | none => ([], .thrown)
    | some response =>
      if response.ok then
        match response.body with
        | none => ([], .error (.str "Failed to read stream"))
        | some body =>
          match readStream .new ⟨[], none⟩ [] body.chunks with
          | .error s => (s.handled, .thrown)
          | .ok (s, _) =>
            if body.broken then (s.handled, .thrown)
            else match s.doneMessage with
              | none => (s.handled, .error (.str "No message returned"))
              | some message => (s.handled, .data message)
      else match response.json with
        | none => ([], .thrown)
        | some data => ([], errorOr data "Failed to add message")

/-! ### Events on the stream -/

/-- Decoding first and reading then is the same. -/
theorem readStream_eq (decoder : Utf8.TextDecoder) (s : Reading) (buffer : List Char)
    (chunks : List (List UInt8)) :
    readStream decoder s buffer chunks =
      Blocks.feed '\n' onEvent s buffer (decoder.decodeAll chunks) := by
  induction chunks generalizing decoder s buffer with
  | nil => rfl
  | cons value rest ih =>
      rw [readStream, Utf8.TextDecoder.decodeAll]
      obtain ⟨decoder', text⟩ := decoder.decode value
      rw [Blocks.feed]
      dsimp only
      cases Blocks.drain '\n' onEvent s (buffer ++ text) with
      | error s' => rfl
      | ok left => exact ih _ _ _

theorem trim_eq {c d : Char} {inner : List Char} (hc : isWhitespace c = false)
    (hd : isWhitespace d = false) : trim (c :: (inner ++ [d])) = c :: (inner ++ [d]) := by
  have hstart : (c :: (inner ++ [d])).dropWhile isWhitespace = c :: (inner ++ [d]) :=
    List.dropWhile_cons_of_neg (by simp [hc])
  have hend : (c :: (inner ++ [d])).reverse = d :: (c :: inner).reverse := by simp
  rw [trim, hstart, hend, List.dropWhile_cons_of_neg (by simp [hd])]
  simp

theorem matchBraced_eq {inner : List Char} (h : ∀ c ∈ inner, isLineTerminator c = false) :
    matchBraced (inner ++ ['}']) = some (inner ++ ['}']) := by
  have hline : (inner ++ ['}']).takeWhile (fun c => !isLineTerminator c) = inner ++ ['}'] := by
    apply List.takeWhile_eq_self_iff.mpr
    intro c hc
    rcases List.mem_append.mp hc with hc | hc
    · rw [h c hc, Bool.not_false]
    · rw [List.mem_singleton.mp hc]
      decide
  rw [matchBraced, hline, List.reverse_append, List.reverse_singleton, List.singleton_append,
    List.dropWhile_cons_of_neg (by decide)]
  simp

section Line

variable {inner : List Char} (h : ∀ c ∈ inner, isLineTerminator c = false)
include h

theorem matchData_eq : matchData ("data:".toList ++ '{' :: (inner ++ ['}'])) =
    some ('{' :: (inner ++ ['}'])) := by
  have hbraced := matchBraced_eq h
  have hbrace : isWhitespace '{' = false := by decide
  simp [matchData, startsWith, hbrace, hbraced]

theorem dataMatch_eq : dataMatch ("data:".toList ++ '{' :: (inner ++ ['}'])) =
    some ('{' :: (inner ++ ['}'])) := by
  have hdata := matchData_eq h
  change (matchData ("data:".toList ++ '{' :: (inner ++ ['}']))).or _ = _
  rw [hdata, Option.some_or]

end Line

theorem dataMatch_cons {c : Char} {text : List Char} (h : startsWith (c :: text) "data:" = false) :
    dataMatch (c :: text) = dataMatch text := by
  rw [dataMatch, matchData, if_neg (by simp [h]), Option.none_or]

end DsProxy.App
