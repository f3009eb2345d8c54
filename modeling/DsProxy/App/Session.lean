import DsProxy.App.Chat
import DsProxy.Lib.Base64

/-!
# The session of the web app

`services/index.ts` keeps what a login was answered with in the local storage, under one key for all
wallets, and `balance-payment-feature.tsx` logs in and out. Moments are counted in milliseconds.
-/

namespace DsProxy.App

/-! ### The local storage -/

inductive AuthData
  | data (value : Json)
  | null
  | thrown

/-- `getAuthData` with what is stored after it; `date` is the time that `new Date` makes of a value,
if it is one. -/
def getAuthData (date : Option Json → Option ℤ) (now : ℤ) : Option String → AuthData × Option String
  | none => (.null, none)
  | some authData =>
    if authData = "" then (.null, some authData)
    else match Json.parse authData with
      | none | some .null => (.thrown, some authData)
      | some data =>
        match date (property "expire_at" data) with
        | none => (.null, none)
        | some expireAt => if expireAt ≤ now then (.null, none) else (.data data, some authData)

/-- What is stored for a session. -/
def setAuthData (data : Json) : Option String := some data.print

/-- The authorisation of a request. -/
def authorization (coerce : Option Json → String) (authData : Json) : String :=
  appendText coerce "Bearer " (property "token" authData)

def loginBody (publicKey message signature : String) : String :=
  (Json.object [("user_pubkey", .str publicKey), ("message", .str message),
    ("signature", .str signature)]).print

/-- `login` with what is stored after it. -/
def login (fetch : Request → Option Response) (publicKey message signature : String)
    (stored : Option String) : ApiResponse × Option String :=
  match fetch ⟨"", loginBody publicKey message signature⟩ with
  | none => (.thrown, stored)
  | some response =>
    match response.json with
    | none => (.thrown, stored)
    | some data =>
      if response.ok then (.data data, setAuthData data)
      else (errorOr data "Failed to login", stored)

/-! ### The page -/

/-- The local storage, the wallet that is connected, and what the login button goes by. -/
structure Page where
  authData : Option String
  publicKey : Option String
  isLogined : Option Bool

namespace Page

/-- The effect of a change of the wallet. -/
def onPublicKey (date : Option Json → Option ℤ) (now : ℤ) (publicKey : Option String)
    (s : Page) : Page :=
  if publicKey = none then { s with publicKey := publicKey }
  else match getAuthData date now s.authData with
    | (.data _, stored) => ⟨stored, publicKey, some true⟩
    | (.null, stored) => ⟨stored, publicKey, some false⟩
    | (.thrown, stored) => ⟨stored, publicKey, s.isLogined⟩

/-- The page is loaded again; the local storage stays. -/
def reload (s : Page) : Page := { s with publicKey := none, isLogined := none }

def loginMessage : String := "DePhy request to sign in"

/-- `handleLogin` once the wallet has signed; what the login is answered with is not looked at. -/
def onSigned (fetch : Request → Option Response) (publicKey : String) (signature : List UInt8)
    (s : Page) : Page :=
  { s with
    authData := (login fetch publicKey loginMessage (String.ofList (Base64.encode signature))
      s.authData).2
    isLogined := some true }

/-- `handleLogin` of a page that takes itself for logged in. -/
def logout (s : Page) : Option Page :=
  if s.publicKey.isSome ∧ s.isLogined = some true then
    some { s with authData := none, isLogined := some false }
  else none

/-- A request reads the local storage. -/
def onRequest (date : Option Json → Option ℤ) (now : ℤ) (s : Page) : Page :=
  { s with authData := (getAuthData date now s.authData).2 }

/-- The authorisation of a request, if one is sent. -/
def presented (date : Option Json → Option ℤ) (coerce : Option Json → String) (now : ℤ)
    (s : Page) : Option String :=
  match (getAuthData date now s.authData).1 with
  | .data authData => some (authorization coerce authData)
  | _ => none

end Page

section Storage

variable {date : Option Json → Option ℤ} {now : ℤ} {stored : Option String} {text : String}

theorem getAuthData_left : (getAuthData date now stored).2 = some text ↔
    stored = some text ∧ (getAuthData date now (some text)).2 ≠ none := by
  have hsame : ∀ old, (getAuthData date now (some old)).2 = none ∨
      (getAuthData date now (some old)).2 = some old := by
    intro old
    unfold getAuthData
    dsimp only
    split_ifs
    · exact Or.inr rfl
    · split
      · exact Or.inr rfl
      · exact Or.inr rfl
      · split
        · exact Or.inl rfl
        · split_ifs
          · exact Or.inl rfl
          · exact Or.inr rfl
  cases stored with
  | none => exact iff_of_false nofun fun h => nomatch h.1
  | some old =>
      constructor
      · intro h
        rcases hsame old with hnone | hold
        · cases h.symm.trans hnone
        · obtain rfl := Option.some.inj (hold.symm.trans h)
          exact ⟨rfl, fun hnone => nomatch h.symm.trans hnone⟩
      · rintro ⟨⟨⟩, hleft⟩
        exact (hsame text).resolve_left hleft

theorem getAuthData_data {data : Json} {expireAt : ℤ} (hdata : data ≠ .null)
    (hdate : date (property "expire_at" data) = some expireAt) :
    getAuthData date now (setAuthData data) =
      if expireAt ≤ now then (.null, none) else (.data data, setAuthData data) := by
  have hprinted : data.print ≠ "" := fun h => by
    have hparse := Json.parse_print data
    rw [h] at hparse
    cases hparse
  rw [setAuthData, getAuthData, if_neg hprinted, Json.parse_print]
  cases data with
  | null => exact absurd rfl hdata
  | _ =>
      dsimp only
      rw [hdate]

/-- What is stored for a response. -/
def kept (response : Response) : Option String :=
  if response.ok then response.json.bind setAuthData else none

/-- A login stores what it is answered with, or leaves what is there. -/
theorem login_stored {fetch : Request → Option Response} {publicKey message signature : String} :
    (login fetch publicKey message signature stored).2 =
      ((fetch ⟨"", loginBody publicKey message signature⟩).bind kept).or stored := by
  unfold login
  cases fetch ⟨"", loginBody publicKey message signature⟩ with
  | none => rfl
  | some response =>
      rw [Option.bind_some, kept]
      dsimp only
      cases response.json with
      | none => split_ifs <;> rfl
      | some data => split_ifs <;> rfl

theorem onPublicKey_authData {publicKey : Option String} {s : Page} :
    (s.onPublicKey date now publicKey).authData =
      if publicKey = none then s.authData else (getAuthData date now s.authData).2 := by
  unfold Page.onPublicKey
  split_ifs
  · rfl
  · generalize getAuthData date now s.authData = read
    obtain ⟨value, left⟩ := read
    cases value <;> rfl

end Storage

end DsProxy.App
