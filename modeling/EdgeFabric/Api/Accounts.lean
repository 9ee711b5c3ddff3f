/-
The handlers of sessions, API keys and users (`internal/api/v1/auth.go`,
`user.go`). All other handlers change no account, by their type.
-/
import EdgeFabric.Api.Middleware

namespace EdgeFabric

/-! ## Sessions and API keys -/

namespace AuthHandler

structure LoginRequest where
  email : String
  password : String
  deriving DecidableEq, Repr

structure CodeRequest where
  code : String
  deriving DecidableEq, Repr

structure CreateAPIKeyRequest where
  name : String
  role : Role
  deriving DecidableEq, Repr

/-- `Login`. Who has a second factor gets a token in the body that is good for nothing but
the second factor; everybody else gets a session. -/
def login (ts : TokenService) (remoteAddr : String) (body : Decoded LoginRequest) : Web Response := do
  let req ← decode body
  match ← (AuthService.authenticatePassword req.email req.password).tried with
  | .error _ =>
    auditLog none none "login_failed" "session" (some [("email", req.email)]) remoteAddr
    return { reply := .unauthorized "invalid credentials" }
  | .ok u =>
    if u.totpEnabled then
      let token ← (ts.issue { u.claims with mfaPending := true }).answering (failing "failed to issue token")
      return { reply := .ok (.login true), token := some token }
    else
      let token ← (ts.issue u.claims).answering (failing "failed to issue token")
      auditLog u.tenantID (some u.id) "login" "session" none remoteAddr
      return { reply := .ok (.login false), session := some token }

/-- `Logout` clears the cookie. -/
def logout : Response := { reply := .noContent, session := some "" }

def me (c : Caller) : Viewer Reply := do
  let u ← (UserService.get c.claims.userID).answering (failing "failed to fetch user profile")
  return .ok (.user u.json)

/-- `VerifyTOTP`. The new session has the role and the tenant of the caller's claims. -/
def verifyTOTP (ts : TokenService) (c : Caller) (body : Decoded CodeRequest) : Handler Response := do
  let req ← decode body
  match ← (AuthService.authenticateTOTP c.claims.userID req.code).tried with
  | .error _ =>
    c.logPlain "totp_verify_failed" "session"
    return { reply := .unauthorized "invalid TOTP code" }
  | .ok _ =>
    let token ← (ts.issue
      { userID := c.claims.userID, tenantID := c.claims.tenantID, role := c.claims.role }).answering
      (failing "failed to issue token")
    c.logPlain "totp_verify" "session"
    return { reply := .ok (.status "ok"), session := some token }

def enrollTOTP (issuer : String) (c : Caller) : Web Reply := do
  let (secret, uri) ← (AuthService.enrollTOTP issuer c.claims.userID).answering (failing "failed to enroll TOTP")
  c.logPlain "totp_enroll" "user"
  return .ok (.totpEnrollment secret uri)

def confirmTOTP (c : Caller) (body : Decoded CodeRequest) : Web Reply := do
  let req ← decode body
  (AuthService.confirmTOTP c.claims.userID req.code).answering fun _ => .badRequest "invalid TOTP code"
  c.logPlain "totp_enable" "user"
  return .ok (.status "totp_enabled")

def keyTenant (c : Caller) : Except Reply ID :=
  match c.claims.tenantID with
  | some tenantID => .ok tenantID
  | none => .error (.badRequest "API keys require a tenant-scoped user")

def checkKeyRole (claims : Claims) (role : Role) : Except Reply Unit :=
  if role = .readOnly then .ok ()
  else if role = .admin then
    require (claims.role ≠ .readOnly) (.forbidden "cannot create API key with higher privileges than your own role")
  else .error (.badRequest "invalid API key role: must be 'readonly' or 'admin'")

def createAPIKey (c : Caller) (body : Decoded CreateAPIKeyRequest) : Web Reply := do
  let tenantID ← keyTenant c
  let req ← decode body
  require (req.name ≠ "") (.badRequest "name is required")
  checkKeyRole c.claims req.role
  let (rawKey, apiKey) ← (AuthService.generateAPIKey tenantID c.claims.userID req.name req.role).answering
    (failing "failed to create API key")
  c.log "create" "api_key" [("api_key_id", apiKey.id.text), ("name", apiKey.name)]
  return .created (.newAPIKey rawKey apiKey.json)

def listAPIKeys (c : Caller) (q : ListQuery) : Viewer Reply := do
  let tenantID ← keyTenant c
  listResources "API keys" (fun p => read (Store.listAPIKeys tenantID p)) (fun k => .apiKey k.json) q

def deleteAPIKey (c : Caller) (raw : String) : Web Reply := do
  let id ← parseID "id" raw
  (write fun _ => Store.deleteAPIKey id).answering (failing "failed to delete API key")
  c.log "delete" "api_key" [("api_key_id", id.text)]
  return .noContent

end AuthHandler

/-! ## Users -/

namespace UserHandler

def create (c : Caller) (body : Decoded UserService.CreateRequest) : Web Reply := do
  let req ← decode body
  let u ← (UserService.create req).answering (takenOrBad "email already in use")
  auditLog u.tenantID (some c.claims.userID) "create" "user" (some [("email", u.email), ("user_id", u.id.text)])
    c.remoteAddr
  return .created (.user u.json)

def get : String → Viewer Reply := getResource "user" UserService.get fun u => .user u.json

def list (c : Caller) : ListQuery → Viewer Reply :=
  listResources "users" (UserService.list c.claims.tenantID) fun u => .user u.json

def update (c : Caller) (raw : String) (body : Decoded UserService.UpdateRequest) : Web Reply := do
  let id ← parseID "id" raw
  let req ← decode body
  let u ← (UserService.update id req).answering (missingOrBad "user")
  auditLog u.tenantID (some c.claims.userID) "update" "user" (some [("user_id", u.id.text)]) c.remoteAddr
  return .ok (.user u.json)

def delete (c : Caller) (raw : String) : Web Reply := do
  let id ← parseID "id" raw
  (UserService.delete id).answering (missing "user" "failed to delete user")
  c.logGlobal "delete" "user" [("user_id", id.text)]
  return .noContent

end UserHandler

/-! ## Requests -/

/-- A request to the endpoints of this module, apart from `login` and `logout`. -/
inductive AccountRequest where
  | me
  | verifyTOTP (body : Decoded AuthHandler.CodeRequest)
  | enrollTOTP
  | confirmTOTP (body : Decoded AuthHandler.CodeRequest)
  | createAPIKey (body : Decoded AuthHandler.CreateAPIKeyRequest)
  | listAPIKeys (query : ListQuery)
  | deleteAPIKey (id : String)
  | user (req : ResourceRequest Unit UserService.CreateRequest UserService.UpdateRequest)

namespace AccountRequest

/-- The paths that a session without its second factor gets to. -/
def openPath : AccountRequest → Bool
  | .me | .verifyTOTP _ | .confirmTOTP _ => true
  | _ => false

def permission : AccountRequest → Option Permission
  | .me | .verifyTOTP _ | .enrollTOTP | .confirmTOTP _ => none
  | .createAPIKey _ => some { action := .create, resource := .apiKey }
  | .listAPIKeys _ => some { action := .list, resource := .apiKey }
  | .deleteAPIKey _ => some { action := .delete, resource := .apiKey }
  | .user req => some { action := req.action, resource := .user }

def handle (ts : TokenService) (issuer : String) (c : Caller) : AccountRequest → Web Response
  | .me => do return { reply := ← AuthHandler.me c }
  | .verifyTOTP body => AuthHandler.verifyTOTP ts c body
  | .enrollTOTP => do return { reply := ← AuthHandler.enrollTOTP issuer c }
  | .confirmTOTP body => do return { reply := ← AuthHandler.confirmTOTP c body }
  | .createAPIKey body => do return { reply := ← AuthHandler.createAPIKey c body }
  | .listAPIKeys q => do return { reply := ← AuthHandler.listAPIKeys c q }
  | .deleteAPIKey id => do return { reply := ← AuthHandler.deleteAPIKey c id }
  | .user (.create _ body) => do return { reply := ← UserHandler.create c body }
  | .user (.list _ q) => do return { reply := ← UserHandler.list c q }
  | .user (.get id) => do return { reply := ← UserHandler.get id }
  | .user (.update id body) => do return { reply := ← UserHandler.update c id body }
  | .user (.delete id) => do return { reply := ← UserHandler.delete c id }

end AccountRequest

/-! ## What is handed out -/

/-- The row of the same user: nothing but the times of the last login and of the last
update differ. -/
def User.SameBut (u u' : User) : Prop := u' = { u with lastLoginAt := u'.lastLoginAt, updatedAt := u'.updatedAt }

/-- No user of the new store is more than a user of the old one with other times. -/
def Store.TouchesUsers (s s' : Store) : Prop := ∀ u' ∈ s'.users, ∃ u ∈ s.users, u.SameBut u'

/-- What a login hands out goes to a user who is active: a session if they have no second
factor, and else a token for the second factor. -/
structure SignedIn (ts : TokenService) (v : Env) (s : Store) (resp : Response) : Prop where
  session : ∀ token, resp.session = some token →
    ∃ u ∈ s.users, u.status = .active ∧ u.totpEnabled = false ∧ ∃ t, token = ts.token v u.claims t
  token : ∀ token, resp.token = some token →
    ∃ u ∈ s.users, u.status = .active ∧ ∃ t, token = ts.token v { u.claims with mfaPending := true } t

/-- What comes of a code that is sent to the world `w`: no session, or one that has the
claims of the caller, for a code of the stored user's secret at the time it is looked at. -/
structure Verified (ts : TokenService) (v : Env) (c : Caller) (body : Decoded AuthHandler.CodeRequest) (w : World)
    (resp : Response) (s' : Store) : Prop where
  users : s'.users = w.store.users
  token : resp.token = none
  session : ∀ token, resp.session = some token →
    (∃ req u secret, body = .ok req ∧ w.store.users.find c.claims.userID = some u ∧
      v.decrypt u.totpSecret = .ok secret ∧ v.totpValidate (w.tick + 2) req.code secret = true) ∧
    ∃ t, token = ts.token v { userID := c.claims.userID, tenantID := c.claims.tenantID, role := c.claims.role } t

section
variable {ts : TokenService} {v : Env} {s s' : Store}

theorem User.SameBut.refl (u : User) : u.SameBut u := rfl

theorem User.SameBut.claims {u u' : User} (h : u.SameBut u') : u'.claims = u.claims := by
  rw [h]
  rfl

theorem Store.TouchesUsers.of_eq (h : s'.users = s.users) : s.TouchesUsers s' :=
  fun u hu => ⟨u, h ▸ hu, .refl u⟩

theorem SignedIn.reply (r : Reply) : SignedIn ts v s { reply := r } := ⟨nofun, nofun⟩

namespace AuthHandler

theorem login_row {u u₀ : User} (hmem : u₀ ∈ s.users) (hu : u = { u₀ with lastLoginAt := u.lastLoginAt })
    (h : s' = s ∨ Store.OnlyUsers s s' ∧ ∃ t, s.users.set { u with updatedAt := t } = some s'.users) :
    s.TouchesUsers s' ∧ ∃ u' ∈ s'.users, u₀.SameBut u' := by
  rcases h with rfl | ⟨_, t, hset⟩
  · exact ⟨.of_eq rfl, u₀, hmem, .refl u₀⟩
  · have hsame : u₀.SameBut { u with updatedAt := t } := by
      rw [hu]
      rfl
    refine ⟨fun b hb => ?_, _, (Table.mem_set hset).mpr (.inr rfl), hsame⟩
    rcases (Table.mem_set hset).mp hb with ⟨hb, _⟩ | rfl
    · exact ⟨b, hb, .refl b⟩
    · exact ⟨u₀, hmem, hsame⟩

theorem login_ends (remoteAddr : String) (body : Decoded LoginRequest) :
    Ends v s (login ts remoteAddr body) (fun resp s' => s.TouchesUsers s' ∧ SignedIn ts v s' resp)
      fun _ s' => s.TouchesUsers s' := by
  refine .bind (.ofExcept (fun req _ => ?_) fun _ _ => .of_eq rfl)
  refine .bind (.mapError (.attempt ((AuthService.authenticatePassword_ends req.email req.password).mono ?_ ?_)))
  · intro u s' h
    obtain ⟨u₀, hmem, hactive, _, _, hu, hwritten⟩ := h
    obtain ⟨htouched, u', hmem', hsame⟩ := login_row hmem hu hwritten
    have hclaims : u.claims = u'.claims := by
      rw [hsame.claims, hu]
      rfl
    have hactive' : u'.status = .active := by
      rw [hsame]
      exact hactive
    dsimp only
    split
    · refine .bind (.mapError (TokenService.issue_ends fun t => ?_))
      refine .pure ⟨htouched, nofun, fun token htoken => ⟨u', hmem', hactive', t, ?_⟩⟩
      rw [← hclaims]
      exact (Option.some.inj htoken).symm
    · next hoff =>
      have hoff' : u'.totpEnabled = false := by
        rw [hsame, ← Bool.not_eq_true]
        rw [hu] at hoff
        exact hoff
      refine .bind (.mapError (TokenService.issue_ends fun t => ?_))
      refine .bind (auditLog_ends fun auditEvents => ?_)
      refine .pure ⟨htouched, fun token htoken => ⟨u', hmem', hactive', hoff', t, ?_⟩, nofun⟩
      rw [← hclaims]
      exact (Option.some.inj htoken).symm
  · intro e s' h
    subst h
    exact .bind (auditLog_ends fun auditEvents => .pure ⟨.of_eq rfl, .reply _⟩)

theorem verifyTOTP_whole (w : World) (c : Caller) (body : Decoded CodeRequest) :
    (verifyTOTP ts c body).1.Ensures id v w (fun resp w' => Verified ts v c body w resp w'.store)
      fun _ w' => w'.store.users = w.store.users := by
  refine .bind (.ofExcept (fun req hreq => ?_) fun _ _ => rfl)
  have hbody : body = .ok req := decode_ok.mp hreq
  refine .bind (.mapError (.attempt (.of_exec fun w₁ hw r w' h => ?_)))
  obtain rfl : w = w₁ := hw.symm
  have husers : w'.store.users = w.store.users := congrArg Store.users (Reads.exec_store h)
  cases r with
  | error e =>
    refine Ends.whole (Q := Verified ts v c body w) (E := fun _ s' => s'.users = w.store.users) ?_
    exact .bind (auditLog_ends fun auditEvents => .pure ⟨husers, rfl, nofun⟩)
  | ok u =>
    obtain ⟨u, secret, hu, hsecret, hvalid⟩ := AuthService.authenticateTOTP_exec h
    refine Ends.whole (Q := Verified ts v c body w) (E := fun _ s' => s'.users = w.store.users) ?_
    refine .bind (.mapError (TokenService.issue_ends fun t =>
      .bind (auditLog_ends fun auditEvents => .pure ⟨husers, rfl, ?_⟩)))
    intro token htoken
    exact ⟨⟨req, u, secret, hbody, hu, hsecret, hvalid⟩, t, (Option.some.inj htoken).symm⟩

theorem verifyTOTP_ends (c : Caller) (body : Decoded CodeRequest) :
    Ends v s (verifyTOTP ts c body).1
      (fun resp s' => s'.users = s.users ∧ resp.token = none ∧ ∀ token, resp.session = some token →
        ∃ t, token = ts.token v { userID := c.claims.userID, tenantID := c.claims.tenantID, role := c.claims.role } t)
      fun _ s' => s'.users = s.users := by
  refine .of_whole fun w hw => ?_
  subst hw
  refine (verifyTOTP_whole w c body).mono (fun resp w' h => ?_) fun _ _ h => h
  exact ⟨h.users, h.token, fun token htoken => (h.session token htoken).2⟩

end AuthHandler

end

end EdgeFabric
