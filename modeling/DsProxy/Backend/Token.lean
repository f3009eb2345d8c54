import DsProxy.Backend.Authentic
import DsProxy.Backend.GoJson
import DsProxy.Backend.Streaming

/-!
# Tokens on the clock

`generateJWT` of `logic/user.go` reads the clock twice. The end of a session is told to the client
by the first reading and signed into the token by the second, in whole seconds. Moments are counted
in nanoseconds.
-/

namespace DsProxy.Backend

/-- `time.Duration(ExpHour) * time.Hour`. -/
def lifetime (expHour : Int64) : Int64 := expHour * 3600000000000

/-- The two readings of `time.Now`. -/
structure Clock where
  now : ℤ
  later : ℤ
  ordered : now ≤ later

/-- The texts of `jwt-go` under the configured secret: a token of a key and an `exp` in seconds, and
the claims of a token that is valid in a second. -/
structure Jwt where
  signedString : String → ℤ → Option String
  parse : ℤ → String → Option Json

def jwtClaims (userPubkey : String) (exp : ℤ) : Json :=
  Json.object [("exp", .num exp), ("user_pubkey", .str userPubkey)]

/-- A token is valid until the second of its `exp` is over. -/
def Jwt.Lawful (jwt : Jwt) : Prop :=
  ∀ {userPubkey exp token}, jwt.signedString userPubkey exp = some token →
    ∀ {now}, now ≤ exp → jwt.parse now token = some (jwtClaims userPubkey exp)

def Clock.expireAt (clock : Clock) (expHour : Int64) : ℤ := clock.now + (lifetime expHour).toInt

/-- The `exp` claim. -/
def Clock.exp (clock : Clock) (expHour : Int64) : ℤ :=
  (clock.later + (lifetime expHour).toInt) / 1000000000

def generateJWT (jwt : Jwt) (expHour : Int64) (clock : Clock) (userPubkey : String) :
    Option (String × ℤ) := do
  let token ← jwt.signedString userPubkey (clock.exp expHour)
  return (token, clock.expireAt expHour)

/-- While a login is dealt with. -/
def Config.signingAt (cfg : Config) (jwt : Jwt) (expHour : Int64) (clock : Clock) : Config :=
  { cfg with signJWT := fun userPubkey => (generateJWT jwt expHour clock userPubkey).map Prod.fst }

/-- While the middleware looks at a token. -/
def Config.checkingAt (cfg : Config) (jwt : Jwt) (now : ℤ) : Config :=
  { cfg with parseJWT := jwt.parse (now / 1000000000) }

/-! ### `POST /user/login` -/

/-- `ShouldBindJSON` of the login. -/
def bindLogin (body : String) : Option (String × String × String) := do
  let v ← Json.parse body
  let userPubkey ← GoJson.textField "user_pubkey" v
  let message ← GoJson.textField "message" v
  let signature ← GoJson.textField "signature" v
  return (userPubkey, message, signature)

/-- The columns of a user that nothing here looks at. -/
structure Columns where
  id : UInt64
  createdAt : String
  updatedAt : String

def userData (columns : Columns) (user : User) : Json := Json.object [
  ("id", .num columns.id.toNat), ("public_key", .str user.publicKey),
  ("tokens", .num user.tokens.toNat), ("tokens_consumed", .num user.tokensConsumed.toNat),
  ("created_at", .str columns.createdAt), ("updated_at", .str columns.updatedAt)]

def sessionData (columns : Columns) (expireAt : String) (user : User) (token : String) : Json :=
  Json.object [("expire_at", .str expireAt), ("token", .str token),
    ("user", userData columns user)]

/-- `UserController.Login`, whose three fields are required. -/
def loginRoute (cfg : Config) (userPubkey message signature : String) :
    Async (Except Failure (User × String)) :=
  if userPubkey = "" ∨ message = "" ∨ signature = "" then return .error .bind
  else login cfg userPubkey message signature

def postUserLogin (cfg : Config) (body : String) : Async (Except Failure (User × String)) :=
  match bindLogin body with
  | none => return .error .bind
  | some (userPubkey, message, signature) => loginRoute cfg userPubkey message signature

/-- `ctx.JSON` of the result. A time whose year has not four digits has no text, and then nothing
is written behind the header. -/
def loginResponse (format : Format) (columns : Columns) (expireAt : Option String) :
    Except Failure (User × String) → HttpResponse
  | .error .bind => ⟨400, failureBody format .bind⟩
  | .error e => ⟨401, failureBody format e⟩
  | .ok (user, token) =>
    match expireAt with
    | none => ⟨200, []⟩
    | some expireAt =>
      ⟨200, (GoJson.print (sessionData columns expireAt user token)).toList⟩

section Login

variable {cfg : Config} {jwt : Jwt} {expHour : Int64} {clock : Clock}
  {userPubkey message signature token : String}

theorem bindLogin_print : bindLogin (Json.object [("user_pubkey", .str userPubkey),
    ("message", .str message), ("signature", .str signature)]).print =
      some (userPubkey, message, signature) := by
  rw [bindLogin, Json.parse_print]
  simp [GoJson.textField, GoJson.field, Json.object, Json.Members.ofList, Json.values,
    Json.Members.values, Json.text?]

/-- A session is for a key that is not empty and has signed, and its token is a signed one. -/
theorem loginRoute_session {outcome : Call → Outcome} {w : World} {user : User}
    (h : (run cfg outcome (loginRoute cfg userPubkey message signature) w).1 = .ok (user, token)) :
    userPubkey ≠ "" ∧ verifySignature cfg.crypto userPubkey message signature = some true ∧
      cfg.signJWT userPubkey = some token := by
  unfold loginRoute at h
  split_ifs at h with hempty
  · cases h
  · refine ⟨fun hkey => hempty (Or.inl hkey), ?_⟩
    exact (returns_login userPubkey message signature).exec user token h

theorem signJWT_signingAt (h : (cfg.signingAt jwt expHour clock).signJWT userPubkey = some token) :
    jwt.signedString userPubkey (clock.exp expHour) = some token := by
  simp only [Config.signingAt, generateJWT, Option.map_eq_some_iff, Option.bind_eq_bind,
    Option.pure_def, Option.bind_eq_some_iff] at h
  obtain ⟨_, ⟨_, hsigned, hpair⟩, rfl⟩ := h
  cases hpair
  exact hsigned

/-- What the client is told is over before the token is. -/
theorem Clock.expireAt_le_exp (clock : Clock) (expHour : Int64) {now : ℤ}
    (h : now < clock.expireAt expHour) : now / 1000000000 ≤ clock.exp expHour := by
  have hordered := clock.ordered
  unfold Clock.expireAt at h
  unfold Clock.exp
  exact Int.ediv_le_ediv (by decide) (by omega)

/-- Until its end a token is taken for its key. -/
theorem caller_checkingAt (hjwt : jwt.Lawful) {exp now : ℤ} (hkey : userPubkey ≠ "")
    (hsigned : jwt.signedString userPubkey exp = some token) (hnow : now / 1000000000 ≤ exp)
    {ctx : GinContext} (hctx : ctx.authorization = "Bearer " ++ token) :
    caller (cfg.checkingAt jwt now) ctx = .ok userPubkey := by
  have hheader : ctx.authorization ≠ "" := by simp [hctx]
  have htoken : trimPrefix ctx.authorization "Bearer " = token := hctx ▸ trimPrefix_append _ _
  have hparse : (cfg.checkingAt jwt now).parseJWT token = some (jwtClaims userPubkey exp) :=
    hjwt hsigned hnow
  have hclaimed : ((jwtClaims userPubkey exp).values "user_pubkey").getLast? =
      some (.str userPubkey) := by
    simp [jwtClaims, Json.object, Json.Members.ofList, Json.values, Json.Members.values]
  rw [caller, auth, if_neg hheader, htoken, hparse]
  show extractUserPubkey { ctx with user := some (jwtClaims userPubkey exp) } = .ok userPubkey
  simp only [extractUserPubkey, hclaimed, Option.bind_some, Json.text?]
  exact if_neg hkey

end Login

end DsProxy.Backend
