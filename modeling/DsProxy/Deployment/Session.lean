import DsProxy.App.Session
import DsProxy.Backend.Token
import DsProxy.Deployment.Streaming

/-!
# Whom the web app acts for

One browser logs in, logs out, changes its wallet, is loaded again and makes requests, while the
backend goes on with whatever else it does. Every request it makes is taken for the key of the last
login, whichever wallet is connected, until the end of that session.
-/

namespace DsProxy.Deployment

open Backend Runs

structure Visit where
  page : App.Page
  world : World

/-- One step. A login or a request may have begun before the steps that come first here: with
another wallet, or before a logout. -/
inductive VisitOp
  | reload
  | connect (publicKey : Option String) (now : ℤ)
  | login (publicKey : String) (signature : List UInt8) (clock : Clock) (outcome : Call → Outcome)
      (columns : Columns) (delivered : Bool)
  | logout
  | request (now : ℤ)
  | others (world : World)

section Visits

variable (cfg : Backend.Config) (jwt : Jwt) (expHour : Int64) (format : Format)
  (rfc3339 : ℤ → Option String) (date : Option Json → Option ℤ)

/-- A login as the backend deals with it. -/
def signIn (clock : Clock) (outcome : Call → Outcome) (body : String) (w : World) :
    Except Failure (User × String) × World :=
  run (cfg.signingAt jwt expHour clock) outcome
    (postUserLogin (cfg.signingAt jwt expHour clock) body) w

/-- What the page gets of it. -/
def signInFetched (clock : Clock) (outcome : Call → Outcome) (columns : Columns)
    (delivered : Bool) (w : World) (request : App.Request) : Option App.Response :=
  let response := loginResponse format columns (rfc3339 (clock.expireAt expHour))
    (signIn cfg jwt expHour clock outcome request.body w).1
  if delivered then some (fetched response [Utf8.encode response.body]) else none

def signInBody (publicKey : String) (signature : List UInt8) : String :=
  App.loginBody publicKey App.Page.loginMessage (String.ofList (Base64.encode signature))

def visits : System Visit VisitOp where
  step s op :=
    match op with
    | .reload => some { s with page := s.page.reload }
    | .connect publicKey now =>
      some { s with page := s.page.onPublicKey date (now / 1000000) publicKey }
    | .login publicKey signature clock outcome columns delivered =>
      some ⟨s.page.onSigned
          (signInFetched cfg jwt expHour format rfc3339 clock outcome columns delivered s.world)
          publicKey signature,
        (signIn cfg jwt expHour clock outcome (signInBody publicKey signature) s.world).2⟩
    | .logout => s.page.logout.map fun page => { s with page := page }
    | .request now => some { s with page := s.page.onRequest date (now / 1000000) }
    | .others world => some { s with world := world }

/-- A login for `p` whose answer arrives and opens a session that ends at `expireAt`. -/
def Opens (p : String) (expireAt : ℤ) (s : Visit) : VisitOp → Prop
  | .login publicKey signature clock outcome _ delivered =>
    publicKey = p ∧ clock.expireAt expHour = expireAt ∧ delivered = true ∧
      (rfc3339 expireAt).isSome = true ∧
      (signIn cfg jwt expHour clock outcome (signInBody publicKey signature) s.world).1.isOk = true
  | _ => False

/-- A session that ends at `expireAt` is given up, or found to be over. -/
def Closes (expireAt : ℤ) : VisitOp → Prop
  | .logout => True
  | .connect publicKey now => publicKey ≠ none ∧ expireAt / 1000000 ≤ now / 1000000
  | .request now => expireAt / 1000000 ≤ now / 1000000
  | _ => False

/-- In a run the last session that was opened is one of `p` that ends at `expireAt`, and it was not
closed since. -/
def Lasts (s₀ : Visit) (ops : List VisitOp) (p : String) (expireAt : ℤ) : Prop :=
  let M := visits cfg jwt expHour format rfc3339 date
  ∃ i op s s', M.StepAt s₀ ops i op s s' ∧ Opens cfg jwt expHour rfc3339 p expireAt s op ∧
    ∀ j b t t', i < j → M.StepAt s₀ ops j b t t' →
      (∀ p' expireAt', ¬ Opens cfg jwt expHour rfc3339 p' expireAt' t b) ∧ ¬ Closes expireAt b

/-- A request that is made now is taken for `p`. -/
def ActsFor (coerce : Option Json → String) (p : String) (now : ℤ) (s : Visit) : Prop :=
  ∃ authorization, s.page.presented date coerce (now / 1000000) = some authorization ∧
    ∀ ctx, ctx.authorization = authorization → caller (cfg.checkingAt jwt now) ctx = .ok p

/-- `new Date` reads the texts of times, to the millisecond. -/
def ReadsTimes : Prop :=
  ∀ {t text}, rfc3339 t = some text → date (some (.str text)) = some (t / 1000000)

/-- The text that a session of `p` is stored as. -/
def Session (p : String) (expireAt : ℤ) (text : String) : Prop :=
  ∃ (clock : Clock) (columns : Columns) (expireText : String) (user : User) (token : String),
    p ≠ "" ∧ clock.expireAt expHour = expireAt ∧ rfc3339 expireAt = some expireText ∧
    jwt.signedString p (clock.exp expHour) = some token ∧
    App.setAuthData (sessionData columns expireText user token) = some text

/-- What a step stores. -/
def stores (s : Visit) : VisitOp → Option String
  | .login publicKey signature clock outcome columns delivered =>
    (signInFetched cfg jwt expHour format rfc3339 clock outcome columns delivered s.world
      ⟨"", signInBody publicKey signature⟩).bind App.kept
  | _ => none

/-- A step that does not leave a text in the local storage. -/
def removes (text : String) : VisitOp → Prop
  | .logout => True
  | .connect publicKey now =>
    publicKey ≠ none ∧ (App.getAuthData date (now / 1000000) (some text)).2 = none
  | .request now => (App.getAuthData date (now / 1000000) (some text)).2 = none
  | _ => False

end Visits

section Session

variable {cfg : Backend.Config} {jwt : Jwt} {expHour : Int64} {format : Format}
  {rfc3339 : ℤ → Option String} {date : Option Json → Option ℤ} {coerce : Option Json → String}
  {s s' : Visit} {op : VisitOp} {p : String} {expireAt now : ℤ} {text : String}

/-! ### The local storage along a run -/

theorem authData_stored (hstep : (visits cfg jwt expHour format rfc3339 date).step s op = some s')
    (hstores : stores cfg jwt expHour format rfc3339 s op = some text) :
    s'.page.authData = some text := by
  cases op with
  | login publicKey signature clock outcome columns delivered =>
      cases hstep
      simp only [App.Page.onSigned]
      rw [App.login_stored, ← signInBody]
      exact congrArg (Option.or · _) hstores
  | _ => cases hstores

theorem authData_left (hstep : (visits cfg jwt expHour format rfc3339 date).step s op = some s')
    (hstores : stores cfg jwt expHour format rfc3339 s op = none) :
    s'.page.authData = some text ↔ s.page.authData = some text ∧ ¬ removes date text op := by
  cases op with
  | reload =>
      cases hstep
      exact (and_iff_left not_false).symm
  | connect publicKey now =>
      cases hstep
      simp only [App.onPublicKey_authData, removes]
      split_ifs with hkey
      · simp [hkey]
      · simp [hkey, App.getAuthData_left]
  | login publicKey signature clock outcome columns delivered =>
      cases hstep
      simp only [App.Page.onSigned]
      rw [App.login_stored, ← signInBody]
      refine (Iff.of_eq (congrArg (fun o => Option.or o _ = some text) hstores)).trans ?_
      exact (and_iff_left not_false).symm
  | logout =>
      obtain ⟨page, hpage, rfl⟩ := Option.map_eq_some_iff.mp hstep
      unfold App.Page.logout at hpage
      split_ifs at hpage
      cases hpage
      exact iff_of_false nofun fun h => h.2 trivial
  | request now =>
      cases hstep
      exact App.getAuthData_left
  | others world =>
      cases hstep
      exact (and_iff_left not_false).symm

/-! ### Logging in -/

section Login

variable {publicKey : String} {signature : List UInt8} {clock : Clock} {outcome : Call → Outcome}
  {columns : Columns} {delivered : Bool} {user : User} {token : String}

theorem signIn_eq {w : World} :
    signIn cfg jwt expHour clock outcome (signInBody publicKey signature) w =
      run (cfg.signingAt jwt expHour clock) outcome (loginRoute (cfg.signingAt jwt expHour clock)
        publicKey App.Page.loginMessage (String.ofList (Base64.encode signature))) w := by
  rw [signIn, postUserLogin, signInBody, App.loginBody, bindLogin_print]

theorem signIn_session {w : World}
    (h : (signIn cfg jwt expHour clock outcome (signInBody publicKey signature) w).1 =
      .ok (user, token)) :
    publicKey ≠ "" ∧
    verifySignature cfg.crypto publicKey App.Page.loginMessage
      (String.ofList (Base64.encode signature)) = some true ∧
    jwt.signedString publicKey (clock.exp expHour) = some token := by
  rw [signIn_eq] at h
  obtain ⟨hkey, hverified, hsigned⟩ := loginRoute_session h
  exact ⟨hkey, hverified, signJWT_signingAt hsigned⟩

theorem kept_loginResponse {expireText : Option String}
    {result : Except Failure (User × String)} {chunks : List (List UInt8)} :
    App.kept (fetched (loginResponse format columns expireText result) chunks) = some text ↔
      ∃ user token expireAt, result = .ok (user, token) ∧ expireText = some expireAt ∧
        App.setAuthData (sessionData columns expireAt user token) = some text := by
  cases result with
  | error e =>
      have hok : (fetched (loginResponse format columns expireText (.error e)) chunks).ok =
        false := by cases e <;> rfl
      rw [App.kept, hok, if_neg Bool.false_ne_true]
      constructor
      · intro h
        cases h
      · rintro ⟨user, token, expireAt, h, -⟩
        cases h
  | ok session =>
      obtain ⟨user, token⟩ := session
      have hok : (fetched (loginResponse format columns expireText (.ok (user, token)))
        chunks).ok = true := by cases expireText <;> rfl
      rw [App.kept, hok, if_pos rfl]
      cases expireText with
      | none =>
          have hjson : (fetched (loginResponse format columns none (.ok (user, token)))
            chunks).json = none := rfl
          rw [hjson, Option.bind_none]
          constructor
          · intro h
            cases h
          · rintro ⟨_, _, expireAt, -, h, -⟩
            cases h
      | some expireAt =>
          rw [loginResponse, json_fetched, Option.bind_some]
          constructor
          · exact fun h => ⟨user, token, expireAt, rfl, rfl, h⟩
          · rintro ⟨_, _, _, ⟨⟩, ⟨⟩, h⟩
            exact h

theorem stores_login :
    stores cfg jwt expHour format rfc3339 s
        (.login publicKey signature clock outcome columns delivered) = some text ↔
      delivered = true ∧ ∃ user token expireText,
        (signIn cfg jwt expHour clock outcome (signInBody publicKey signature) s.world).1 =
          .ok (user, token) ∧
        rfc3339 (clock.expireAt expHour) = some expireText ∧
        App.setAuthData (sessionData columns expireText user token) = some text := by
  rw [stores, signInFetched]
  cases delivered with
  | false => exact iff_of_false nofun fun h => nomatch h.1
  | true =>
      rw [if_pos rfl, Option.bind_some, kept_loginResponse]
      exact (and_iff_right rfl).symm

end Login

theorem opens_of_stores (h : stores cfg jwt expHour format rfc3339 s op = some text) :
    ∃ p expireAt, Opens cfg jwt expHour rfc3339 p expireAt s op ∧
      Session jwt expHour rfc3339 p expireAt text := by
  cases op with
  | login publicKey signature clock outcome columns delivered =>
      obtain ⟨harrived, user, token, expireText, hresult, htext, hstored⟩ := stores_login.mp h
      obtain ⟨hkey, -, hsigned⟩ := signIn_session hresult
      refine ⟨publicKey, clock.expireAt expHour, ⟨rfl, rfl, harrived, ?_, ?_⟩,
        clock, columns, expireText, user, token, hkey, rfl, htext, hsigned, hstored⟩
      · rw [htext, Option.isSome_some]
      · rw [hresult]
        rfl
  | _ => cases h

theorem login_of_opens (h : Opens cfg jwt expHour rfc3339 p expireAt s op) :
    ∃ signature clock outcome columns user token expireText,
      op = .login p signature clock outcome columns true ∧ clock.expireAt expHour = expireAt ∧
        rfc3339 expireAt = some expireText ∧
        (signIn cfg jwt expHour clock outcome (signInBody p signature) s.world).1 =
          .ok (user, token) := by
  cases op with
  | login publicKey signature clock outcome columns delivered =>
      obtain ⟨rfl, hend, rfl, htext, hok⟩ := h
      obtain ⟨expireText, htext⟩ := Option.isSome_iff_exists.mp htext
      cases hresult : (signIn cfg jwt expHour clock outcome (signInBody publicKey signature)
          s.world).1 with
      | error e =>
          rw [hresult] at hok
          cases hok
      | ok session =>
          exact ⟨signature, clock, outcome, columns, session.1, session.2, expireText, rfl, hend,
            htext, hresult⟩
  | _ => exact h.elim

theorem stores_of_opens (h : Opens cfg jwt expHour rfc3339 p expireAt s op) :
    ∃ text, stores cfg jwt expHour format rfc3339 s op = some text ∧
      Session jwt expHour rfc3339 p expireAt text := by
  obtain ⟨signature, clock, outcome, columns, user, token, expireText, rfl, rfl, htext, hresult⟩ :=
    login_of_opens h
  obtain ⟨hkey, -, hsigned⟩ := signIn_session hresult
  refine ⟨_, stores_login.mpr ⟨rfl, user, token, expireText, hresult, htext, rfl⟩, ?_⟩
  exact ⟨clock, columns, expireText, user, token, hkey, rfl, htext, hsigned, rfl⟩

theorem signed_of_opens (h : Opens cfg jwt expHour rfc3339 p expireAt s op) :
    ∃ signature clock outcome columns delivered,
      op = .login p signature clock outcome columns delivered ∧
        verifySignature cfg.crypto p App.Page.loginMessage
          (String.ofList (Base64.encode signature)) = some true := by
  obtain ⟨signature, clock, outcome, columns, user, token, expireText, rfl, -, -, hresult⟩ :=
    login_of_opens h
  exact ⟨signature, clock, outcome, columns, true, rfl, (signIn_session hresult).2.1⟩

/-! ### Reading a session -/

section Reading

variable (hdate : ReadsTimes rfc3339 date) (h : Session jwt expHour rfc3339 p expireAt text)
include hdate h

theorem getAuthData_session : ∃ data token, App.property "token" data = some (.str token) ∧
    (∀ now, now < expireAt → ∀ {cfg : Backend.Config} {ctx : GinContext}, jwt.Lawful →
      ctx.authorization = "Bearer " ++ token → caller (cfg.checkingAt jwt now) ctx = .ok p) ∧
    ∀ now, App.getAuthData date now (some text) =
      if expireAt / 1000000 ≤ now then (.null, none) else (.data data, some text) := by
  obtain ⟨clock, columns, expireText, user, token, hkey, rfl, htext, hsigned, hstored⟩ := h
  refine ⟨sessionData columns expireText user token, token, rfl, ?_, ?_⟩
  · intro now hnow cfg ctx hjwt hctx
    exact caller_checkingAt hjwt hkey hsigned (clock.expireAt_le_exp expHour hnow) hctx
  · intro now
    rw [← hstored]
    exact App.getAuthData_data nofun (hdate htext)

theorem removes_iff : removes date text op ↔ Closes expireAt op := by
  obtain ⟨data, token, -, -, hread⟩ := getAuthData_session hdate h
  have hleft : ∀ now, (App.getAuthData date (now / 1000000) (some text)).2 = none ↔
      expireAt / 1000000 ≤ now / 1000000 := by
    intro now
    rw [hread]
    split_ifs with hover
    · exact iff_of_true rfl hover
    · exact iff_of_false nofun hover
  cases op with
  | connect publicKey now => exact and_congr_right fun _ => hleft now
  | request now => exact hleft now
  | _ => exact Iff.rfl

variable (cfg coerce) in
theorem presented_session (hjwt : jwt.Lawful) (hstored : s.page.authData = some text) (now : ℤ) :
    if expireAt / 1000000 ≤ now / 1000000 then s.page.presented date coerce (now / 1000000) = none
    else ActsFor cfg jwt date coerce p now s := by
  obtain ⟨data, token, htoken, htaken, hread⟩ := getAuthData_session hdate h
  split_ifs with hover
  · rw [App.Page.presented, hstored, hread, if_pos hover]
  · refine ⟨"Bearer " ++ token, ?_, fun ctx hctx => htaken now (by omega) hjwt hctx⟩
    rw [App.Page.presented, hstored, hread, if_neg hover]
    dsimp only
    rw [App.authorization, htoken, App.appendText]

end Reading

theorem presented_none (h : s.page.authData = none) :
    s.page.presented date coerce now = none := by
  rw [App.Page.presented, h]
  rfl

theorem ActsFor.unique {p' : String} (h : ActsFor cfg jwt date coerce p now s)
    (h' : ActsFor cfg jwt date coerce p' now s) : p = p' := by
  obtain ⟨authorization, hpresented, htaken⟩ := h
  obtain ⟨_, hpresented', htaken'⟩ := h'
  obtain rfl := Option.some.inj (hpresented.symm.trans hpresented')
  exact Except.ok.inj ((htaken ⟨authorization, "", none, none⟩ rfl).symm.trans (htaken' _ rfl))

theorem not_opens_iff : stores cfg jwt expHour format rfc3339 s op = none ↔
    ∀ p expireAt, ¬ Opens cfg jwt expHour rfc3339 p expireAt s op := by
  constructor
  · intro hnone p expireAt hopens
    obtain ⟨text, htext, -⟩ := stores_of_opens hopens
    cases hnone.symm.trans htext
  · intro hno
    cases hstores : stores cfg jwt expHour format rfc3339 s op with
    | none => rfl
    | some text =>
        obtain ⟨p, expireAt, hopens, -⟩ := opens_of_stores hstores
        exact absurd hopens (hno p expireAt)

/-! ### Along a run -/

section Run

variable {s₀ : Visit} {ops : List VisitOp}

/-- What is stored is what the last login stored, if nothing has removed it. -/
theorem authData_run (hstart : s₀.page.authData = none) :
    let M := visits cfg jwt expHour format rfc3339 date
    (M.run s₀ ops).page.authData = some text ↔ ∃ i op t t', M.StepAt s₀ ops i op t t' ∧
      stores cfg jwt expHour format rfc3339 t op = some text ∧
      ∀ j b u u', i < j → M.StepAt s₀ ops j b u u' →
        stores cfg jwt expHour format rfc3339 u b = none ∧ ¬ removes date text b :=
  System.put_iff (fun s : Visit => s.page.authData) hstart authData_stored authData_left

theorem lasts_of_stored (hdate : ReadsTimes rfc3339 date) (hstart : s₀.page.authData = none)
    (h : ((visits cfg jwt expHour format rfc3339 date).run s₀ ops).page.authData = some text) :
    ∃ p expireAt, Session jwt expHour rfc3339 p expireAt text ∧
      Lasts cfg jwt expHour format rfc3339 date s₀ ops p expireAt := by
  obtain ⟨i, op, t, t', hop, hstores, hsince⟩ := (authData_run hstart).mp h
  obtain ⟨p, expireAt, hopens, hsession⟩ := opens_of_stores hstores
  refine ⟨p, expireAt, hsession, i, op, t, t', hop, hopens, fun j b u u' hj hb => ?_⟩
  obtain ⟨hnone, hkept⟩ := hsince j b u u' hj hb
  exact ⟨not_opens_iff.mp hnone, fun hcloses => hkept ((removes_iff hdate hsession).mpr hcloses)⟩

theorem stored_of_lasts (hdate : ReadsTimes rfc3339 date) (hstart : s₀.page.authData = none)
    (h : Lasts cfg jwt expHour format rfc3339 date s₀ ops p expireAt) :
    ∃ text, ((visits cfg jwt expHour format rfc3339 date).run s₀ ops).page.authData = some text ∧
      Session jwt expHour rfc3339 p expireAt text := by
  obtain ⟨i, op, t, t', hop, hopens, hsince⟩ := h
  obtain ⟨text, hstores, hsession⟩ := stores_of_opens hopens
  refine ⟨text, (authData_run hstart).mpr ⟨i, op, t, t', hop, hstores, fun j b u u' hj hb => ?_⟩,
    hsession⟩
  obtain ⟨hno, hopen⟩ := hsince j b u u' hj hb
  exact ⟨not_opens_iff.mpr hno, fun hremoves => hopen ((removes_iff hdate hsession).mp hremoves)⟩

/-- A request is taken for the key of the session that lasts, whichever wallet is connected, until
the session is over. Nothing that is sent is refused, and who it is taken for has signed a login. -/
theorem acts_for_last_login (hjwt : jwt.Lawful) (hdate : ReadsTimes rfc3339 date)
    (hstart : s₀.page.authData = none) (now : ℤ) :
    let s := (visits cfg jwt expHour format rfc3339 date).run s₀ ops
    (∀ p, ActsFor cfg jwt date coerce p now s ↔ ∃ expireAt,
      Lasts cfg jwt expHour format rfc3339 date s₀ ops p expireAt ∧
        now / 1000000 < expireAt / 1000000) ∧
    (s.page.presented date coerce (now / 1000000) = none ∨
      ∃ p, ActsFor cfg jwt date coerce p now s ∧
        ∃ (i : ℕ) (signature : _) (clock : _) (outcome : _) (columns : _) (delivered : _),
          ops[i]? = some (VisitOp.login p signature clock outcome columns delivered) ∧
            verifySignature cfg.crypto p App.Page.loginMessage
              (String.ofList (Base64.encode signature)) = some true) := by
  intro s
  have hacts : ∀ {p expireAt}, Lasts cfg jwt expHour format rfc3339 date s₀ ops p expireAt →
      now / 1000000 < expireAt / 1000000 → ActsFor cfg jwt date coerce p now s := by
    intro p expireAt hlasts hbefore
    obtain ⟨text, hstored, hsession⟩ := stored_of_lasts hdate hstart hlasts
    have hpresented := presented_session cfg coerce hdate hsession hjwt hstored now
    rwa [if_neg (Int.not_le.mpr hbefore)] at hpresented
  cases hstored : s.page.authData with
  | none =>
      have hnone : s.page.presented date coerce (now / 1000000) = none := presented_none hstored
      refine ⟨fun p => ⟨?_, fun ⟨_, hlasts, hbefore⟩ => hacts hlasts hbefore⟩, Or.inl hnone⟩
      rintro ⟨authorization, hpresented, -⟩
      cases hnone.symm.trans hpresented
  | some text =>
      obtain ⟨p, expireAt, hsession, hlasts⟩ := lasts_of_stored hdate hstart hstored
      have hpresented := presented_session cfg coerce hdate hsession hjwt hstored now
      refine ⟨fun p' => ⟨fun hp' => ?_, fun ⟨_, hlasts, hbefore⟩ => hacts hlasts hbefore⟩, ?_⟩
      · split_ifs at hpresented with hover
        · obtain ⟨authorization, hauthorization, -⟩ := hp'
          cases hpresented.symm.trans hauthorization
        · obtain rfl := hpresented.unique hp'
          exact ⟨expireAt, hlasts, Int.not_le.mp hover⟩
      · split_ifs at hpresented with hover
        · exact Or.inl hpresented
        · obtain ⟨i, op, t, t', hop, hopens, -⟩ := hlasts
          obtain ⟨signature, clock, outcome, columns, delivered, rfl, hsigned⟩ :=
            signed_of_opens hopens
          exact Or.inr ⟨p, hpresented, i, signature, clock, outcome, columns, delivered, hop.op,
            hsigned⟩

end Run

end Session

namespace Visiting

open BalancePayment (Crypto Signature signatureR edwardsBasePoint)
open BalancePayment.Sample (user pinned keccak)

/-- The user's signature of the login message. -/
def signature : Signature := Bytes.toLE 64 <|
  47660707606036561663380754533828328754784641861423354494411035115901921091630 +
  2 ^ 256 * 5480342443221360762565348349855812320596466044943093092598784630155787534655

/-- The base point, the user, and the signature's `R`, `S * B` and `H * A`. -/
def points : List (ℕ × ℕ) :=
  [(1, Bytes.ofLE edwardsBasePoint.toList),
    (7196903412274038802701538263280187907152860435200743670699908441353638128764,
      11903303657706407974989296177215005343713679411332034699907763981919547054807),
    (914988249197659724875504566991977024326211445144620570133551065091918576733,
      47660707606036561663380754533828328754784641861423354494411035115901921091630),
    (5480342443221360762565348349855812320596466044943093092598784630155787534655,
      81786479177429559629558431640773291448442883321115922304185549097687991861275),
    (4565354194023701037689843782863835296270254599798472522465233565063868957922,
      111634199308653318800341793880789952436952447454452309223516458626868766229694)]

/-- SHA-512 of the challenge. -/
def sha512 (bytes : List UInt8) : Vector UInt8 64 := Bytes.toLE 64 <|
  if bytes = (signatureR signature).toList ++ user.toList ++
      Bytes.ascii "DePhy request to sign in" then
    77583569753141494861402075998064929693609108319629218659812186229301790917657 +
      2 ^ 256 * 77054626047508662118855817900957108351913568672656142093332093469668298416160
  else 0

def cfg : Backend.Config :=
  { Backend.Sample.cfg with crypto := BalancePayment.Cyclic.crypto (pinned points) keccak sha512 }

def publicKey : String := BalancePayment.Sdk.keyText user

def token : String :=
  "eyJhbGciOiJIUzI1NiIsInR5cCI6IkpXVCJ9." ++
  "eyJleHAiOjE3Mzc2MDAwMDAsInVzZXJfcHVia2V5IjoiRl" ++
  "ZlbjNYNjY5eEx6c2k2TjJWOTFEb2l5ekh6ZzF1QWdxaVQ4alo5blM5NloifQ." ++
  "cT3F1nQ772Jz5znf1kaVmSriPt2FLTY_NpG_PtgQ0pQ"

/-- The one token that is signed and read here. -/
def jwt : Jwt where
  signedString userPubkey exp :=
    if userPubkey = publicKey ∧ exp = 1737600000 then some token else none
  parse now text :=
    if text = token ∧ now ≤ 1737600000 then some (jwtClaims publicKey 1737600000) else none

/-- The one time that is written and read here. -/
def rfc3339 (t : ℤ) : Option String :=
  if t = 1737600000000000000 then some "2025-01-23T02:40:00Z" else none

def date : Option Json → Option ℤ
  | some (.str text) => if text = "2025-01-23T02:40:00Z" then some 1737600000000 else none
  | _ => none

/-- 720 hours before the token's end. -/
def clock : Clock := ⟨1735008000000000000, 1735008000000000000, Int.le_refl _⟩

def ops : List VisitOp :=
  [.connect (some publicKey) 1735007999000000000,
    .login publicKey signature.toList clock (fun _ => Backend.Sample.available)
      ⟨1, "2024-12-24T02:40:00Z", "2024-12-24T02:40:00Z"⟩ true,
    .connect (some "11111111111111111111111111111111") 1735008060000000000]

def start : Visit := ⟨⟨none, none, none⟩, ⟨Backend.Sample.empty, []⟩⟩

theorem lawful : jwt.Lawful := by
  intro userPubkey exp text hsigned now hnow
  simp only [jwt] at hsigned ⊢
  split_ifs at hsigned with hclaims
  obtain ⟨rfl, rfl⟩ := hclaims
  rw [← Option.some.inj hsigned, if_pos ⟨rfl, hnow⟩]

theorem reads : ReadsTimes rfc3339 date := by
  intro t text htext
  unfold rfc3339 at htext
  split_ifs at htext with ht
  subst ht
  rw [← Option.some.inj htext]
  rfl

theorem verifySignature_login : verifySignature cfg.crypto publicKey App.Page.loginMessage
    (signatureText signature) = some true := by
  have hvalid : ed25519Verify cfg.crypto user (goBytes App.Page.loginMessage)
      signature.toList = true := by decide +kernel
  rw [verifySignature, publicKey, decodePublicKey_keyText, decode_signatureText]
  exact congrArg some hvalid

theorem loginVerified_new {cfg : Backend.Config} {p : String}
    (hsigned : cfg.signJWT p = some token) :
    (run cfg (fun _ => Backend.Sample.available) (loginVerified cfg p) start.world).1.isOk =
      true := by
  have hread : run cfg (fun _ => Backend.Sample.available) (getUserByPublicKey p) start.world =
    (.error .recordNotFound, start.world) := rfl
  have hcreated : run cfg (fun _ => Backend.Sample.available) (createUser p) start.world =
    (.ok ⟨p, 0, 0⟩, _) := rfl
  have hsaved : ∀ w, ∃ w', run cfg (fun _ => Backend.Sample.available)
      (saveUser ⟨p, 0, 0⟩) w = (.ok (), w') := by
    intro w
    have hrow : w.db.saveUser ⟨p, 0, 0⟩ = .ok _ := if_pos (by simp [InBigint])
    have hok : (respond cfg Backend.Sample.available (.saveUser ⟨p, 0, 0⟩) w).1 = .ok () := by
      simp only [respond, hrow]
      rfl
    have hrun : run cfg (fun _ => Backend.Sample.available) (saveUser ⟨p, 0, 0⟩) w =
      ((respond cfg Backend.Sample.available (.saveUser ⟨p, 0, 0⟩) w).1,
        (respond cfg Backend.Sample.available (.saveUser ⟨p, 0, 0⟩) w).2) := rfl
    rw [hok] at hrun
    exact ⟨_, hrun⟩
  rw [loginVerified, run_bind hread]
  dsimp only
  rw [run_bind hcreated]
  dsimp only
  obtain ⟨w', hw'⟩ := hsaved _
  rw [hsigned]
  dsimp only
  rw [run_attempt_ok hw']
  rfl

theorem signIn_ok : (signIn cfg jwt 720 clock (fun _ => Backend.Sample.available)
    (signInBody publicKey signature.toList) start.world).1.isOk = true := by
  have hfilled : ¬ (publicKey = "" ∨ App.Page.loginMessage = "" ∨
      signatureText signature = "") := by
    decide +kernel
  have hsigned : (cfg.signingAt jwt 720 clock).signJWT publicKey = some token := by
    decide +kernel
  have hvalid : verifySignature (cfg.signingAt jwt 720 clock).crypto publicKey
      App.Page.loginMessage (signatureText signature) = some true := verifySignature_login
  rw [signIn_eq, ← signatureText, loginRoute, if_neg hfilled, login, if_pos hvalid]
  exact loginVerified_new hsigned

theorem lasts (format : Format) :
    Lasts cfg jwt 720 format rfc3339 date start ops publicKey 1737600000000000000 := by
  refine ⟨1, _, _, _, ⟨rfl, rfl, rfl⟩, ⟨rfl, by decide, rfl, rfl, signIn_ok⟩, ?_⟩
  intro j b t t' hj hb
  obtain rfl : j = 2 := by
    have hlength := hb.lt_length
    simp only [ops, List.length_cons, List.length_nil] at hlength
    omega
  obtain rfl := Option.some.inj hb.op
  exact ⟨fun _ _ => not_false, fun hcloses => absurd hcloses.2 (by decide)⟩

def format : Format := ⟨fun _ => "2025-01-01T00:00:00Z", fun _ => "failed"⟩

end Visiting

/-- The user has logged in, and has then changed the wallet. -/
theorem acts_for_last_login_sample :
    ActsFor Visiting.cfg Visiting.jwt Visiting.date (fun _ => "undefined") Visiting.publicKey
      1735008120000000000
      ((visits Visiting.cfg Visiting.jwt 720 Visiting.format Visiting.rfc3339 Visiting.date).run
        Visiting.start Visiting.ops) :=
  ((acts_for_last_login Visiting.lawful Visiting.reads rfl _).1 _).mpr
    ⟨_, Visiting.lasts Visiting.format, by decide⟩

end DsProxy.Deployment
