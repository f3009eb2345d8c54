import DsProxy.Backend.Service

/-!
# Whom a request acts for

A login is answered with a token only when its signature is valid, and the middleware believes what
a token says. So as long as the tokens that are presented are tokens that were handed out, nobody
acts for a key but after a message was signed with it.
-/

namespace DsProxy.Backend

open Runs Program

/-- What a request presents to the middleware. -/
def HttpRequest.ctx? : HttpRequest → Option GinContext
  | .login _ _ _ => none
  | .getUser ctx | .createConversation ctx _ | .getConversations ctx | .addMessage ctx
  | .getMessages ctx => some ctx

def bearer (ctx : GinContext) : String := trimPrefix ctx.authorization "Bearer "

/-- A login for `p` with a valid signature. -/
def HttpRequest.Proves (cfg : Config) (p : String) : HttpRequest → Prop
  | .login userPubkey message signature =>
    userPubkey = p ∧ verifySignature cfg.crypto p message signature = some true
  | _ => False

/-- A token in the answer to a request is one for a key that the request proves to hold. -/
def Earned (cfg : Config) (request : HttpRequest) (result : Result) : Prop :=
  ∀ user token, result = .ok (.session user token) →
    ∃ p, request.Proves cfg p ∧ cfg.signJWT p = some token

section Routes

variable {cfg : Config} {request : HttpRequest} {α : Type}

theorem returns_serving {Q : α → Prop} {program : Async α} (h : program.Returns Q) :
    (serving program).Returns Q := by
  induction program with
  | ret a => exact h
  | call c next ih => exact fun answer => ih answer (h answer)

theorem earned_error {e : Failure} : Earned cfg request (.error e) := fun _ _ h => by cases h

theorem earned_of_map {result : Except Failure α} {f : α → Reply}
    (hf : ∀ a user token, f a ≠ .session user token) : Earned cfg request (result.map f) := by
  intro user token h
  cases result with
  | error e => cases h
  | ok a => exact absurd (Except.ok.inj h) (hf a user token)

theorem returns_authorised {ctx : GinContext} {handler : GinContext → Serving Result}
    (h : ∀ ctx, (handler ctx).Returns (Earned cfg request)) :
    (authorised cfg ctx handler).Returns (Earned cfg request) := by
  unfold authorised
  cases auth cfg ctx with
  | error e => exact returns_pure earned_error
  | ok ctx' => exact h ctx'

theorem returns_login (userPubkey message signature : String) :
    (login cfg userPubkey message signature).Returns fun result => ∀ user token,
      result = .ok (user, token) →
        verifySignature cfg.crypto userPubkey message signature = some true ∧
          cfg.signJWT userPubkey = some token := by
  unfold login
  split_ifs with hvalid
  · unfold loginVerified
    refine returns_bind fun found => ?_
    extract_lets rest
    suffices hrest : ∀ result, (rest result).Returns _ by
      split
      · exact returns_bind hrest
      · exact hrest _
    intro result
    cases result with
    | error e => exact returns_pure fun _ _ h => by cases h
    | ok user =>
        simp only [rest]
        cases hsigned : cfg.signJWT userPubkey with
        | none => exact returns_pure fun _ _ h => by cases h
        | some token =>
            refine returns_bind fun saved => ?_
            cases saved with
            | error e => exact returns_pure fun _ _ h => by cases h
            | ok _ =>
                refine returns_pure fun _ _ h => ?_
                cases h
                exact ⟨hvalid, rfl⟩
  · exact returns_pure fun _ _ h => by cases h

/-- A token that a request is answered with is one for a key that it proves to hold. -/
theorem returns_serve (request : HttpRequest) :
    (serve cfg request).Returns (Earned cfg request) := by
  cases request with
  | login userPubkey message signature =>
      rw [serve, postLogin]
      split_ifs
      · exact returns_pure earned_error
      · refine (returns_serving (returns_login userPubkey message signature)).bind
          fun result hresult => returns_pure fun user token h => ?_
        cases result with
        | error e => cases h
        | ok session =>
            cases h
            obtain ⟨hvalid, hsigned⟩ := hresult _ _ rfl
            exact ⟨userPubkey, ⟨rfl, hvalid⟩, hsigned⟩
  | getUser ctx =>
      refine returns_authorised fun ctx => ?_
      unfold getUser
      cases extractUserPubkey ctx with
      | error e => exact returns_pure earned_error
      | ok userPubkey =>
          refine returns_bind fun result => ?_
          cases result with
          | error e => exact returns_pure earned_error
          | ok user => exact returns_pure fun _ _ h => by cases h
  | createConversation ctx id =>
      refine returns_authorised fun ctx => ?_
      unfold createConversation
      cases extractUserPubkey ctx with
      | error e => exact returns_pure earned_error
      | ok userPubkey =>
          refine returns_bind fun result => ?_
          cases result with
          | error e => exact returns_pure earned_error
          | ok conversation => exact returns_pure fun _ _ h => by cases h
  | getConversations ctx =>
      refine returns_authorised fun ctx => ?_
      unfold getConversations
      cases extractUserPubkey ctx with
      | error e => exact returns_pure earned_error
      | ok userPubkey =>
          refine returns_bind fun result => ?_
          split
          · exact returns_pure fun _ _ h => by cases h
          · exact returns_pure earned_error
          · refine returns_bind fun result => ?_
            cases result with
            | error e => exact returns_pure earned_error
            | ok conversations => exact returns_pure fun _ _ h => by cases h
  | addMessage ctx =>
      refine returns_authorised fun ctx => ?_
      exact returns_bind fun result => returns_pure (earned_of_map fun _ _ _ h => by cases h)
  | getMessages ctx =>
      refine returns_authorised fun ctx => ?_
      exact returns_bind fun result => returns_pure (earned_of_map fun _ _ _ h => by cases h)

end Routes

/-! ### Along a run -/

section Serving

variable {cfg : Config} {s₀ : Service} {ops : List ServiceOp}

/-- Each session is what is left of a request that was made. -/
def Traced (cfg : Config) (ops : List ServiceOp) (k : ℕ) (s : Service) : Prop :=
  ∀ n program, s.sessions n = some program →
    ∃ i < k, ∃ request, ops[i]? = some (.request n request) ∧
      program.Returns (Earned cfg request)

theorem traced_step {k : ℕ} {op : ServiceOp} {s s' : Service} (hop : ops[k]? = some op)
    (h : Traced cfg ops k s) (hstep : (service cfg).step s op = some s') :
    Traced cfg ops (k + 1) s' := by
  have hnext := System.next_of_step hstep
  have hkeep : Traced cfg ops (k + 1) s := fun n program hn => by
    obtain ⟨i, hi, hrest⟩ := h n program hn
    exact ⟨i, Nat.lt_succ_of_lt hi, hrest⟩
  cases op with
  | request n request =>
      cases hn : s.sessions n with
      | some program =>
          rw [next_request_taken hn] at hnext
          exact hnext ▸ hkeep
      | none =>
          rw [next_request hn] at hnext
          subst hnext
          intro m program hm
          by_cases hmn : m = n
          · subst hmn
            simp only [Function.update_self, Option.some.injEq] at hm
            subst hm
            exact ⟨k, Nat.lt_succ_self k, request, hop, returns_serve request⟩
          · exact hkeep m program ((Function.update_of_ne hmn _ _).symm.trans hm)
  | query n outcome =>
      cases hn : s.sessions n with
      | none =>
          rw [next_query_idle (Or.inl hn)] at hnext
          exact hnext ▸ hkeep
      | some program =>
          cases program with
          | ret result =>
              rw [next_query_idle (Or.inr ⟨_, hn⟩)] at hnext
              exact hnext ▸ hkeep
          | call q next =>
              rw [next_query hn] at hnext
              subst hnext
              intro m program hm
              by_cases hmn : m = n
              · subst hmn
                simp only [Function.update_self, Option.some.injEq] at hm
                subst hm
                obtain ⟨i, hi, request, hrequest, hreturns⟩ := hkeep m _ hn
                exact ⟨i, hi, request, hrequest, hreturns _⟩
              · exact hkeep m program ((Function.update_of_ne hmn _ _).symm.trans hm)
  | heard event outcomes => exact hnext ▸ hkeep

theorem traced_run (hstart : ∀ n, s₀.sessions n = none) (k : ℕ) :
    Traced cfg ops k ((service cfg).run s₀ (ops.take k)) := by
  induction k with
  | zero =>
      intro n program hn
      rw [List.take_zero, System.run_nil, hstart n] at hn
      cases hn
  | succ k ih =>
      rcases System.step_at_or_unchanged (M := service cfg) s₀ ops k with ⟨op, h⟩ | ⟨h, -⟩
      · exact traced_step h.op ih h.step
      · rw [h]
        intro n program hn
        obtain ⟨i, hi, hrest⟩ := ih n program hn
        exact ⟨i, Nat.lt_succ_of_lt hi, hrest⟩

theorem session_of_reply {s : Service} {n : ℕ} {result : Result} (h : s.reply n = some result) :
    s.sessions n = some (.ret result) := by
  unfold Service.reply at h
  split at h
  · rename_i result' hsession
    rw [hsession, Option.some.inj h]
  · cases h

theorem claims_of_caller {ctx : GinContext} {p : String} (h : caller cfg ctx = .ok p) :
    (auth cfg ctx).isOk = true ∧ ∃ claims, cfg.parseJWT (bearer ctx) = some claims ∧
      (claims.values "user_pubkey").getLast?.bind Json.text? = some p := by
  unfold caller auth at h
  unfold auth
  split_ifs at h ⊢ with hheader
  · cases h
  · unfold bearer
    cases hparse : cfg.parseJWT (trimPrefix ctx.authorization "Bearer ") with
    | none =>
        rw [hparse] at h
        cases h
    | some claims =>
        rw [hparse] at h
        refine ⟨rfl, claims, rfl, ?_⟩
        change extractUserPubkey { ctx with user := some claims } = .ok p at h
        unfold extractUserPubkey at h
        dsimp only at h
        split at h
        · cases h
        · rename_i userPubkey hkey
          split_ifs at h
          rw [hkey, Except.ok.inj h]

/-- The middleware accepts no token but those that the service has handed out. -/
def Unforged (cfg : Config) (s₀ : Service) (ops : List ServiceOp) : Prop :=
  ∀ k n request ctx, ops[k]? = some (.request n request) → request.ctx? = some ctx →
    (auth cfg ctx).isOk = true →
    ∃ m user, ((service cfg).run s₀ (ops.take k)).reply m = some (.ok (.session user (bearer ctx)))

/-- Whoever's token a request presents has logged in before it, with a valid signature under that
key. -/
theorem acts_after_login (hstart : ∀ n, s₀.sessions n = none)
    (hjwt : ∀ p token claims, cfg.signJWT p = some token → cfg.parseJWT token = some claims →
      (claims.values "user_pubkey").getLast? = some (.str p))
    (hunforged : Unforged cfg s₀ ops) {k n : ℕ} {request : HttpRequest} {ctx : GinContext}
    {p : String} (hk : ops[k]? = some (.request n request)) (hctx : request.ctx? = some ctx)
    (hcaller : caller cfg ctx = .ok p) :
    ∃ i < k, ∃ m message signature, ops[i]? = some (.request m (.login p message signature)) ∧
      verifySignature cfg.crypto p message signature = some true := by
  obtain ⟨haccepted, claims, hparse, hclaims⟩ := claims_of_caller hcaller
  obtain ⟨m, user, hreply⟩ := hunforged k n request ctx hk hctx haccepted
  obtain ⟨i, hi, login, hlogin, hreturns⟩ := traced_run hstart k m _ (session_of_reply hreply)
  obtain ⟨p', hproves, hsigned⟩ := hreturns user (bearer ctx) rfl
  have hp : some (Json.str p') = (claims.values "user_pubkey").getLast? :=
    (hjwt p' _ claims hsigned hparse).symm
  rw [← hp] at hclaims
  obtain rfl : p' = p := Option.some.inj hclaims
  cases login with
  | login userPubkey message signature =>
      obtain ⟨rfl, hvalid⟩ := hproves
      exact ⟨i, hi, m, message, signature, hlogin, hvalid⟩
  | _ => exact hproves.elim

end Serving

namespace Sample

open BalancePayment.Sample (first)

def signedKey : String := BalancePayment.Sdk.keyText BalancePayment.Sample.user

/-- Only the one user gets tokens. -/
def signing : Config := { cfg with
  parseJWT := fun text => if text = token then
      some (Json.object [("exp", .num 1737600000), ("user_pubkey", .str signedKey)])
    else none
  signJWT := fun userPubkey => if userPubkey = signedKey then some token else none }

def signedLogin : HttpRequest :=
  .login signedKey (digestText cfg.crypto first.payload 0 first.deadline)
    (signatureText first.signature)

def bearing : GinContext := ⟨"Bearer " ++ token, "", none, none⟩

def beforeLogin : Service := ⟨⟨⟨empty, []⟩, []⟩, fun _ => none⟩

/-- A new user logs in, and asks for the row with the token. -/
def signedIn : List ServiceOp :=
  [.request 0 signedLogin, .query 0 available, .query 0 available, .query 0 available,
    .request 1 (.getUser bearing)]

theorem serve_signedLogin : serve signing signedLogin = (do
    let result ← serving (loginVerified signing signedKey)
    return result.map fun session => .session session.1 session.2) := by
  have hfilled : ¬ (signedKey = "" ∨
      digestText cfg.crypto first.payload 0 first.deadline = "" ∨
        signatureText first.signature = "") := by
    decide +kernel
  have hvalid : verifySignature signing.crypto signedKey
      (digestText cfg.crypto first.payload 0 first.deadline) (signatureText first.signature) =
        some true := verifySignature_first
  rw [signedLogin, serve, postLogin, if_neg hfilled, login, if_pos hvalid]

theorem query_answered {f : ℕ → Option (Serving Result)} {q : Query}
    {next : q.Answer → Serving Result} {a : q.Answer} {w w' : Tables}
    (h : Backend.answer signing available q w = (a, w')) :
    (service signing).next ⟨w, Function.update f 0 (some (.call q next))⟩ (.query 0 available) =
      ⟨w', Function.update f 0 (some (next a))⟩ := by
  have hself : (⟨w, Function.update f 0 (some (.call q next))⟩ : Service).sessions 0 =
      some (.call q next) := by simp only [Function.update_self]
  rw [next_query hself, h, Function.update_idem]

theorem signedIn_reply : ((service signing).run beforeLogin (signedIn.take 4)).reply 0 =
    some (.ok (.session ⟨signedKey, 0, 0⟩ token)) := by
  have hsign : signing.signJWT signedKey = some token := by
    show (if signedKey = signedKey then some token else none) = some token
    exact if_pos rfl
  have hread : Backend.answer signing available (.call (.getUserByPublicKey signedKey))
      beforeLogin.toTables = (.error .recordNotFound, beforeLogin.toTables) := rfl
  have hcreated : Backend.answer signing available (.call (.createUser signedKey))
      beforeLogin.toTables = (.ok ⟨signedKey, 0, 0⟩, _) := rfl
  have hsaved : ∀ w, (Backend.answer signing available (.call (.saveUser ⟨signedKey, 0, 0⟩)) w) =
      (.ok (), (Backend.answer signing available (.call (.saveUser ⟨signedKey, 0, 0⟩)) w).2) := by
    intro w
    have hrow : w.db.saveUser ⟨signedKey, 0, 0⟩ = .ok _ := if_pos (by simp [InBigint])
    simp only [Backend.answer, respond, hrow]
    rfl
  simp only [signedIn, List.take_succ_cons, List.take_zero, System.run_cons, System.run_nil]
  rw [next_request rfl, serve_signedLogin]
  refine (congrArg (fun t => ((service signing).next ((service signing).next t
    (.query 0 available)) (.query 0 available)).reply 0) (query_answered hread)).trans ?_
  refine (congrArg (fun t => ((service signing).next t (.query 0 available)).reply 0)
    (query_answered hcreated)).trans ?_
  dsimp only [Program.bind]
  rw [hsign]
  refine (congrArg (Service.reply · 0) (query_answered (hsaved _))).trans ?_
  rfl

theorem bearer_bearing : bearer bearing = token := trimPrefix_append "Bearer " token

theorem parseJWT_token : signing.parseJWT token =
    some (Json.object [("exp", .num 1737600000), ("user_pubkey", .str signedKey)]) := by
  simp [signing]

theorem signedKey_claimed :
    ((Json.object [("exp", .num 1737600000), ("user_pubkey", .str signedKey)]).values
      "user_pubkey").getLast? = some (.str signedKey) := by
  simp [Json.object, Json.Members.ofList, Json.values, Json.Members.values]

theorem signing_claims {p text : String} {claims : Json} (hsigned : signing.signJWT p = some text)
    (hparse : signing.parseJWT text = some claims) :
    (claims.values "user_pubkey").getLast? = some (.str p) := by
  change (if p = signedKey then some token else none) = some text at hsigned
  split_ifs at hsigned with hp
  cases hsigned
  cases parseJWT_token.symm.trans hparse
  rw [hp, signedKey_claimed]

theorem caller_bearing : caller signing bearing = .ok signedKey := by
  have hheader : bearing.authorization ≠ "" := by simp [bearing]
  have htoken : trimPrefix bearing.authorization "Bearer " = token := bearer_bearing
  have hkey : signedKey ≠ "" := by decide +kernel
  rw [caller, auth, if_neg hheader, htoken, parseJWT_token]
  show extractUserPubkey { bearing with
    user := some (Json.object [("exp", .num 1737600000), ("user_pubkey", .str signedKey)]) } = _
  simp only [extractUserPubkey, signedKey_claimed, Option.bind_some, Json.text?]
  exact if_neg hkey

theorem signedIn_unforged : Unforged signing beforeLogin signedIn := by
  intro k n request ctx hk hctx _
  have hlast : k = 4 ∧ request = .getUser bearing := by
    rcases k with _ | _ | _ | _ | _ | k
    · cases hk
      cases hctx
    · cases hk
    · cases hk
    · cases hk
    · cases hk
      exact ⟨rfl, rfl⟩
    · cases hk
  obtain ⟨rfl, rfl⟩ := hlast
  cases hctx
  exact ⟨0, _, bearer_bearing ▸ signedIn_reply⟩

end Sample

theorem acts_after_login_sample : ∃ i < 4, ∃ m message signature,
    Sample.signedIn[i]? = some (.request m (.login Sample.signedKey message signature)) ∧
      verifySignature Sample.signing.crypto Sample.signedKey message signature = some true :=
  acts_after_login (k := 4) (n := 1) (fun _ => rfl)
    (fun _ _ _ hsigned hparse => Sample.signing_claims hsigned hparse) Sample.signedIn_unforged
    rfl rfl Sample.caller_bearing

end DsProxy.Backend
