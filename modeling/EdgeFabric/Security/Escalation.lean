/-
What an administrator of a tenant can come to be. Their requests go by their own
sessions and API keys, and by what they get out of requests: tokens in responses,
new API keys, and the accounts of users whose password they chose.

The handlers of users look at no tenant and at no role: an administrator can create
a superuser, or a user in another tenant, or set the password of either, and log in
(`admin_becomes_superuser`). If they only create users of their own tenant, promote
nobody to superuser, set no password outside of it and enroll no node but their
tenant's, they stay inside the tenant (`admin_contained`).
-/
import EdgeFabric.Api.Router
import EdgeFabric.Security.TokenIntegrity

namespace EdgeFabric

/-- The claims are for the tenant, and not for a superuser. -/
def Claims.Inside (tenantID : ID) (claims : Claims) : Prop :=
  claims.tenantID = some tenantID ∧ claims.role ≠ .superUser

/-! ## What a party has -/

/-- The answer shows an API key that was created, with the identifier of its row. -/
def Request.CreatesKey (r : Request) (answer : Except Reply Response) (rawKey : String) (id : ID) : Prop :=
  ∃ body resp k, r.endpoint = .account (.createAPIKey body) ∧ answer = .ok resp ∧
    resp.reply = .created (.newAPIKey rawKey k) ∧ k.id = id

/-- The request chooses the password of the user: it creates them, or sets a new password. -/
def Request.ChoosesPassword (r : Request) (answer : Except Reply Response) (id : ID) : Prop :=
  (∃ body resp u, r.endpoint = .account (.user (.create () body)) ∧ answer = .ok resp ∧
    resp.reply = .created (.user u) ∧ u.id = id) ∨
  ∃ raw req, r.endpoint = .account (.user (.update raw (.ok req))) ∧ req.password ≠ none ∧ parseID "id" raw = .ok id

/-- A request of a party that has credentials of the tenant, and otherwise what it got from
earlier requests. The service alone can sign, a key opens the row it was made for, and
nobody knows a password but who chose it. -/
structure Insider (ts : TokenService) (v : Env) (tenantID : ID) (past : List Server.Exchange) (r : Request)
    (w : World) : Prop where
  apiKey : ∀ raw, r.presented.token = .ok ("ef_" ++ raw) → ∀ k ∈ w.store.apiKeys, v.bcryptMatches k.keyHash raw = true →
    k.claims.Inside tenantID ∨ ∃ y ∈ past, y.call.CreatesKey y.answer ("ef_" ++ raw) k.id
  session : ∀ token payloadB64 sigB64, r.presented.token = .ok token →
    Text.cut '.' token.toList = some (payloadB64, sigB64) → Base64.decode sigB64 = some (ts.sign v payloadB64) →
    ∃ claims t, payloadB64 = ts.payload claims t ∧
      (claims.Inside tenantID ∨ ∃ y ∈ past, ts.token v claims t ∈ (Response.of y.answer).tokens)
  password : ∀ req, r.endpoint = .login (.ok req) → ∀ u ∈ w.store.users, u.email = req.email →
    v.bcryptMatches u.passwordHash req.password = true →
    u.claims.Inside tenantID ∨ ∃ y ∈ past, y.call.ChoosesPassword y.answer u.id

/-- The request stays inside the tenant: it creates users of the tenant only, makes nobody
a superuser, sets no password of a superuser or of a user outside, and enrolls no node
outside. -/
structure Request.Modest (tenantID : ID) (r : Request) (s : Store) : Prop where
  create : ∀ req, r.endpoint = .account (.user (.create () (.ok req))) →
    req.tenantID = some tenantID ∧ req.role ≠ .superUser
  promote : ∀ raw req, r.endpoint = .account (.user (.update raw (.ok req))) → req.role ≠ some .superUser
  password : ∀ raw req, r.endpoint = .account (.user (.update raw (.ok req))) → req.password ≠ none →
    ∀ u ∈ s.users, parseID "id" raw = .ok u.id → u.claims.Inside tenantID
  enroll : ∀ req, r.endpoint = .enroll (.ok req) → ∀ n ∈ s.nodes, s.EnrollmentFor req.token n.id →
    n.tenantID = some tenantID

/-! ## What the accounts become -/

/-- Every account is of the tenant, or it was there before, in the tenant it is in now and
with no less a role. -/
structure Store.Contained (tenantID : ID) (s s' : Store) : Prop where
  users : ∀ u' ∈ s'.users, u'.claims.Inside tenantID ∨ ∃ u ∈ s.users, u.id = u'.id ∧ u.tenantID = u'.tenantID ∧
    (u'.role = .superUser → u.role = .superUser)
  apiKeys : ∀ k' ∈ s'.apiKeys, k'.claims.Inside tenantID ∨ ∃ k ∈ s.apiKeys, k.id = k'.id ∧ k.tenantID = k'.tenantID ∧
    k.role = k'.role

namespace Store.Contained
variable {tenantID : ID} {s s' s'' : Store}

theorem of_rows (husers : ∀ u ∈ s'.users, u.claims.Inside tenantID ∨ u ∈ s.users)
    (hkeys : ∀ k ∈ s'.apiKeys, k.claims.Inside tenantID ∨ k ∈ s.apiKeys) : s.Contained tenantID s' :=
  ⟨fun u hu => (husers u hu).imp_right fun hu => ⟨u, hu, rfl, rfl, id⟩,
    fun k hk => (hkeys k hk).imp_right fun hk => ⟨k, hk, rfl, rfl, rfl⟩⟩

theorem refl (s : Store) : s.Contained tenantID s := .of_rows (fun _ => .inr) fun _ => .inr

theorem user_inside (h : s.Contained tenantID s') {id : ID}
    (hid : ∀ u ∈ s.users, u.id = id → u.claims.Inside tenantID) :
    ∀ u ∈ s'.users, u.id = id → u.claims.Inside tenantID := by
  intro u' hu' hid'
  rcases h.users u' hu' with hin | ⟨u, hu, hsame, htenant, hrole⟩
  · exact hin
  · obtain ⟨hin, hnot⟩ := hid u hu (hsame.trans hid')
    exact ⟨htenant.symm.trans hin, fun hsuper => hnot (hrole hsuper)⟩

theorem key_inside (h : s.Contained tenantID s') {id : ID}
    (hid : ∀ k ∈ s.apiKeys, k.id = id → k.claims.Inside tenantID) :
    ∀ k ∈ s'.apiKeys, k.id = id → k.claims.Inside tenantID := by
  intro k' hk' hid'
  rcases h.apiKeys k' hk' with hin | ⟨k, hk, hsame, htenant, hrole⟩
  · exact hin
  · obtain ⟨hin, hnot⟩ := hid k hk (hsame.trans hid')
    exact ⟨(congrArg some htenant).symm.trans hin, fun hsuper => hnot (hrole.trans hsuper)⟩

theorem trans (h : s.Contained tenantID s') (h' : s'.Contained tenantID s'') : s.Contained tenantID s'' := by
  constructor
  · intro u'' hu''
    rcases h'.users u'' hu'' with hin | ⟨u', hu', hid', htenant', hrole'⟩
    · exact .inl hin
    · rcases h.users u' hu' with ⟨hin, hnot⟩ | ⟨u, hu, hid, htenant, hrole⟩
      · exact .inl ⟨htenant'.symm.trans hin, fun hsuper => hnot (hrole' hsuper)⟩
      · exact .inr ⟨u, hu, hid.trans hid', htenant.trans htenant', fun hsuper => hrole (hrole' hsuper)⟩
  · intro k'' hk''
    rcases h'.apiKeys k'' hk'' with hin | ⟨k', hk', hid', htenant', hrole'⟩
    · exact .inl hin
    · rcases h.apiKeys k' hk' with ⟨hin, hnot⟩ | ⟨k, hk, hid, htenant, hrole⟩
      · exact .inl ⟨(congrArg some htenant').symm.trans hin, fun hsuper => hnot (hrole'.trans hsuper)⟩
      · exact .inr ⟨k, hk, hid.trans hid', htenant.trans htenant', hrole.trans hrole'⟩

theorem of_accounts (h : s'.accounts = s.accounts) : s.Contained tenantID s' := by
  obtain ⟨husers, hkeys⟩ := Prod.mk.inj h
  exact .of_rows (fun _ hu => .inr (husers ▸ hu)) fun _ hk => .inr (hkeys ▸ hk)

theorem setUser {u' : User} (hset : s.users.set u' = some s'.users) (honly : OnlyUsers s s')
    (hu' : u'.claims.Inside tenantID ∨ ∃ u ∈ s.users, u.id = u'.id ∧ u.tenantID = u'.tenantID ∧
      (u'.role = .superUser → u.role = .superUser)) : s.Contained tenantID s' := by
  have hkeys : s'.apiKeys = s.apiKeys := by rw [honly]
  refine ⟨fun b hb => ?_, fun k hk => .inr ⟨k, hkeys ▸ hk, rfl, rfl, rfl⟩⟩
  rcases (Table.mem_set hset).mp hb with ⟨hb, -⟩ | rfl
  · exact .inr ⟨b, hb, rfl, rfl, id⟩
  · exact hu'

end Store.Contained

/-! ## Who comes in -/

/-- What the past has handed out is of the tenant, and so is whoever's password was chosen. -/
structure Origins (ts : TokenService) (v : Env) (tenantID : ID) (past : List Server.Exchange) (s : Store) : Prop where
  tokens : ∀ y ∈ past, ∀ token ∈ (Response.of y.answer).tokens,
    token = "" ∨ ∃ claims t, token = ts.token v claims t ∧ claims.Inside tenantID
  keys : ∀ y ∈ past, ∀ raw id, y.call.CreatesKey y.answer raw id → ∀ k ∈ s.apiKeys, k.id = id → k.claims.Inside tenantID
  passwords : ∀ y ∈ past, ∀ id, y.call.ChoosesPassword y.answer id →
    ∀ u ∈ s.users, u.id = id → u.claims.Inside tenantID

section
variable {ts : TokenService} {v : Env} {tenantID : ID} {s s' : Store} {past : List Server.Exchange}

theorem shows_inside {r : Request} {w : World} (hpast : Origins ts v tenantID past w.store)
    (hr : Insider ts v tenantID past r w) {claims : Claims} (hshows : r.presented.Shows ts v w.store claims) :
    claims.Inside tenantID := by
  obtain ⟨token, htoken, hauth⟩ := hshows
  cases hauth with
  | @apiKey raw k hraw hk hmatch =>
    rcases hr.apiKey raw (hraw ▸ htoken) k hk hmatch with hin | ⟨y, hy, hkey⟩
    · exact hin
    · exact hpast.keys y hy _ _ hkey k hk rfl
  | @session t _ hverify =>
    obtain ⟨payloadB64, sigB64, hcut, hsig, hread⟩ := TokenService.verifyAt_ok hverify
    obtain ⟨claims₀, t₀, hpayload, hfrom⟩ := hr.session token payloadB64 sigB64 htoken hcut hsig
    rw [hpayload] at hread
    rcases hfrom with hin | ⟨y, hy, hout⟩
    · rw [(TokenService.readPayload_ok hread).1]
      exact hin
    · rcases hpast.tokens y hy _ hout with hnil | ⟨claims₁, t₁, heq, hin⟩
      · exact absurd hnil (TokenService.token_ne_empty _ _ _ _)
      · -- the same text is read the same way
        rw [TokenService.readPayload_payload (v := v), heq] at hread
        rw [authenticated_token (s := w.store) (.session hread)]
        exact hin

theorem auth_contained (p : Presented) (openPath : Bool) :
    Ends v s (auth ts p openPath) (fun _ s' => s.Contained tenantID s') fun _ s' => s.Contained tenantID s' := by
  refine .bind (.ofExcept (fun token _ => ?_) fun _ _ => .refl s)
  refine .bind ?_
  unfold authenticate
  split
  · refine .bind (.mapError ((AuthService.authenticateAPIKey_ends token).mono ?_ ?_))
    · rintro k s' ⟨hk, -, hs'⟩
      have hcontained : s.Contained tenantID s' := by
        rcases hs' with rfl | ⟨honly, t, hset⟩
        · exact .refl _
        · have husers : s'.users = s.users := by rw [honly]
          refine ⟨fun u hu => .inr ⟨u, husers ▸ hu, rfl, rfl, id⟩, fun k' hk' => ?_⟩
          rcases (Table.mem_set hset).mp hk' with ⟨hk', -⟩ | rfl
          · exact .inr ⟨k', hk', rfl, rfl, rfl⟩
          · exact .inr ⟨k, hk, rfl, rfl, rfl⟩
      exact .pure (.bind (.ofExcept (fun _ _ => .pure hcontained) fun _ _ => hcontained))
    · rintro e s' rfl
      exact .refl _
  · refine .mapError (Ends.reads (fun claims => ?_) fun _ => .refl s)
    exact .bind (.ofExcept (fun _ _ => .pure (.refl s)) fun _ _ => .refl s)

theorem AccountRequest.middleware_contained (tenantID : ID) (p : Presented) (req : AccountRequest) :
    Ends v s (req.middleware ts p) (fun _ s' => s.Contained tenantID s') fun _ s' => s.Contained tenantID s' := by
  refine .andThen (auth_contained p req.openPath) fun claims s' h => ?_
  cases req.permission with
  | none => exact .pure h
  | some permission => exact .bind (.ofExcept (fun _ _ => .pure h) fun _ _ => h)

theorem ServiceRequest.middleware_contained (tenantID : ID) (p : Presented) (req : ServiceRequest) :
    Ends v s (req.middleware ts p) (fun _ s' => s.Contained tenantID s') fun _ s' => s.Contained tenantID s' := by
  refine .andThen (auth_contained p false) fun claims s' h => ?_
  refine .bind (.ofExcept (fun _ _ => ?_) fun _ _ => h)
  cases req.owner with
  | none => exact .pure h
  | some raw => exact .bind (.ofExcept (fun _ _ => .pure h) fun _ _ => h)

/-! ## What one request does -/

theorem Request.Modest.of_only {r : Request} (h : r.Modest tenantID s) (honly : s.OnlyAPIKeys s') :
    r.Modest tenantID s' := by
  rw [Store.OnlyAPIKeys] at honly
  exact ⟨h.create, h.promote, honly ▸ h.password, honly ▸ h.enroll⟩

theorem Request.Modest.choice {r : Request} (h : r.Modest tenantID s) {reply : Reply} {id : ID}
    (hr : r.ChoosesPassword (.error reply) id) : ∀ u ∈ s.users, u.id = id → u.claims.Inside tenantID := by
  rcases hr with ⟨_, _, _, -, hanswer, -⟩ | ⟨raw, req, hend, hset, hid⟩
  · cases hanswer
  · exact fun u hu hu' => h.password raw req hend hset u hu (hu' ▸ hid)

/-- What a request of the party leaves behind: accounts that are contained, and nothing
handed out or chosen but for the tenant. -/
structure Kept (ts : TokenService) (v : Env) (tenantID : ID) (s : Store) (r : Request) (answer : Except Reply Response)
    (s' : Store) : Prop where
  contained : s.Contained tenantID s'
  tokens : ∀ token ∈ (Response.of answer).tokens,
    token = "" ∨ ∃ claims t, token = ts.token v claims t ∧ claims.Inside tenantID
  keys : ∀ raw id, r.CreatesKey answer raw id → ∀ k ∈ s'.apiKeys, k.id = id → k.claims.Inside tenantID
  passwords : ∀ id, r.ChoosesPassword answer id → ∀ u ∈ s'.users, u.id = id → u.claims.Inside tenantID

/-- The request creates no API key and no user, and updates none. -/
def Endpoint.Plain : Endpoint → Prop
  | .account (.createAPIKey _) | .account (.user (.create _ _)) | .account (.user (.update _ _)) => False
  | _ => True

abbrev KeptBy (ts : TokenService) (v : Env) (tenantID : ID) (s : Store) (r : Request) (p : Web Response) : Prop :=
  Ends v s p (fun resp s' => Kept ts v tenantID s r (.ok resp) s') fun reply s' =>
    Kept ts v tenantID s r (.error reply) s'

abbrev KeptByReply (ts : TokenService) (v : Env) (tenantID : ID) (s : Store) (r : Request) (p : Web Reply) : Prop :=
  Ends v s p (fun reply s' => Kept ts v tenantID s r (.ok { reply }) s')
    fun reply s' => Kept ts v tenantID s r (.error reply) s'

namespace Kept
variable {r : Request} {answer : Except Reply Response}

theorem plain (hr : r.endpoint.Plain) (hs : s.Contained tenantID s')
    (htokens : ∀ token ∈ (Response.of answer).tokens,
      token = "" ∨ ∃ claims t, token = ts.token v claims t ∧ claims.Inside tenantID) :
    Kept ts v tenantID s r answer s' := by
  refine ⟨hs, htokens, fun raw id hkey => ?_, fun id hpass => ?_⟩
  · obtain ⟨body, _, _, hend, -⟩ := hkey
    rw [hend] at hr
    exact hr.elim
  · rcases hpass with ⟨body, _, _, hend, -⟩ | ⟨raw, req, hend, -⟩
    · rw [hend] at hr
      exact hr.elim
    · rw [hend] at hr
      exact hr.elim

theorem error {reply : Reply} (hs : s.Contained tenantID s')
    (hpass : ∀ id, r.ChoosesPassword (.error reply) id → ∀ u ∈ s'.users, u.id = id → u.claims.Inside tenantID) :
    Kept ts v tenantID s r (.error reply) s' := by
  refine ⟨hs, nofun, fun raw id hkey => ?_, hpass⟩
  obtain ⟨_, _, _, _, hanswer, -⟩ := hkey
  cases hanswer

theorem after {s₁ : Store} (h₁ : s.Contained tenantID s₁) (h : Kept ts v tenantID s₁ r answer s') :
    Kept ts v tenantID s r answer s' :=
  ⟨h₁.trans h.contained, h.tokens, h.keys, h.passwords⟩

theorem of_reply {p : Web Reply}
    (h : KeptByReply ts v tenantID s r p) :
    KeptBy ts v tenantID s r (do return { reply := ← p } : Web Response) :=
  .andThen h fun _ _ h => .pure h

theorem of_viewer (hr : r.endpoint.Plain) (q : Viewer Reply) :
    KeptByReply ts v tenantID s r q.1 :=
  Ends.reads (fun _ => .plain hr (.refl s) nofun) fun _ => .plain hr (.refl s) nofun

end Kept

variable {r : Request}

theorem enrollTOTP_kept (hr : r.endpoint.Plain) (issuer : String) (c : Caller) :
    KeptByReply ts v tenantID s r (AuthHandler.enrollTOTP issuer c) := by
  refine .bind (.mapError ((AuthService.enrollTOTP_ends issuer c.claims.userID).mono ?_ ?_))
  · rintro _ s' ⟨u, secret, t, hu, hset, honly⟩
    have hs' : s.Contained tenantID s' := .setUser hset honly (.inr ⟨u, (Table.find_eq_some.mp hu).1, rfl, rfl, id⟩)
    exact .bind (auditLog_ends fun _ => .pure (.plain hr (hs'.trans (.of_accounts rfl)) nofun))
  · rintro e s' rfl
    exact .plain hr (.refl _) nofun

theorem confirmTOTP_kept (hr : r.endpoint.Plain) (c : Caller) (body : Decoded AuthHandler.CodeRequest) :
    KeptByReply ts v tenantID s r (AuthHandler.confirmTOTP c body) := by
  refine .bind (.ofExcept (fun req _ => ?_) fun _ _ => .plain hr (.refl _) nofun)
  refine .bind (.mapError ((AuthService.confirmTOTP_ends c.claims.userID req.code).mono ?_ ?_))
  · rintro _ s' ⟨u, t, hu, -, hset, honly⟩
    have hs' : s.Contained tenantID s' := .setUser hset honly (.inr ⟨u, (Table.find_eq_some.mp hu).1, rfl, rfl, id⟩)
    exact .bind (auditLog_ends fun _ => .pure (.plain hr (hs'.trans (.of_accounts rfl)) nofun))
  · rintro e s' rfl
    exact .plain hr (.refl _) nofun

theorem deleteAPIKey_kept (hr : r.endpoint.Plain) (c : Caller) (raw : String) :
    KeptByReply ts v tenantID s r (AuthHandler.deleteAPIKey c raw) := by
  refine .bind (.ofExcept (fun id _ => ?_) fun _ _ => .plain hr (.refl _) nofun)
  refine .bind (.mapError (Ends.write (fun _ _ s' h => ?_) fun _ => .plain hr (.refl _) nofun))
  obtain ⟨herase, honly⟩ := Store.deleteAPIKey_ok h
  have husers : s'.users = s.users := by rw [honly]
  have hs' : s.Contained tenantID s' :=
    .of_rows (fun _ hu => .inr (husers ▸ hu)) fun _ hk => .inr ((Table.mem_erase herase).mp hk).1
  exact .bind (auditLog_ends fun _ => .pure (.plain hr (hs'.trans (.of_accounts rfl)) nofun))

theorem deleteUser_kept (hr : r.endpoint.Plain) (c : Caller) (raw : String) :
    KeptByReply ts v tenantID s r (UserHandler.delete c raw) := by
  refine .bind (.ofExcept (fun id _ => ?_) fun _ _ => .plain hr (.refl _) nofun)
  refine .bind (.mapError (Ends.write (fun _ _ s' h => ?_) fun _ => .plain hr (.refl _) nofun))
  obtain ⟨herase, honly⟩ := Store.deleteUser_ok h
  have hkeys : s'.apiKeys = s.apiKeys := by rw [honly]
  have hs' : s.Contained tenantID s' :=
    .of_rows (fun _ hu => .inr ((Table.mem_erase herase).mp hu).1) fun _ hk => .inr (hkeys ▸ hk)
  exact .bind (auditLog_ends fun _ => .pure (.plain hr (hs'.trans (.of_accounts rfl)) nofun))

theorem checkKeyRole_ok {claims : Claims} {role : Role} {u : Unit} (h : AuthHandler.checkKeyRole claims role = .ok u) :
    role ≠ .superUser := by
  unfold AuthHandler.checkKeyRole at h
  split at h
  · next hro =>
    rw [hro]
    decide
  · split at h
    · next hadmin =>
      rw [hadmin]
      decide
    · cases h

theorem createAPIKey_kept {body : Decoded AuthHandler.CreateAPIKeyRequest} {c : Caller}
    (hr : r.endpoint = .account (.createAPIKey body)) (hc : c.claims.Inside tenantID) :
    KeptByReply ts v tenantID s r (AuthHandler.createAPIKey c body) := by
  have hpass : ∀ answer id, ¬ r.ChoosesPassword answer id := by
    rintro answer id (⟨_, _, _, hend, -⟩ | ⟨_, _, hend, -⟩)
    · rw [hr] at hend
      cases hend
    · rw [hr] at hend
      cases hend
  have herr : ∀ reply, Kept ts v tenantID s r (.error reply) s := fun reply =>
    .error (.refl s) fun id h => absurd h (hpass _ id)
  refine .bind (.ofExcept (fun own hown => ?_) fun r _ => herr r)
  obtain rfl : own = tenantID := by
    rw [AuthHandler.keyTenant, hc.1] at hown
    exact (Except.ok.inj hown).symm
  refine .bind (.ofExcept (fun req _ => ?_) fun r _ => herr r)
  refine .bind (.ofExcept (fun _ _ => ?_) fun r _ => herr r)
  refine .bind (.ofExcept (fun _ hrole => ?_) fun r _ => herr r)
  refine .bind (.mapError ((AuthService.generateAPIKey_ends own _ req.name req.role).mono ?_ ?_))
  · rintro ⟨rawKey, k⟩ s' ⟨htenant, -, hkrole, -, hins, honly⟩
    have hin : k.claims.Inside own :=
      ⟨congrArg some htenant, fun hsuper => checkKeyRole_ok hrole (hkrole.symm.trans hsuper)⟩
    have husers : s'.users = s.users := by rw [honly]
    have hs' : s.Contained own s' := by
      refine .of_rows (fun _ hu => .inr (husers ▸ hu)) fun k' hk' => ?_
      rcases (Table.mem_insert hins).mp hk' with hk' | rfl
      · exact .inr hk'
      · exact .inl hin
    refine .bind (auditLog_ends fun _ => .pure ⟨hs'.trans (.of_accounts rfl), nofun, ?_,
      fun id h => absurd h (hpass _ id)⟩)
    rintro raw id ⟨_, resp, row, -, hresp, hreply, hid⟩ k' hk' hid'
    obtain rfl := Except.ok.inj hresp
    -- the row that the answer shows is the new one
    obtain ⟨-, rfl⟩ := Datum.newAPIKey.inj (Body.object.inj (Reply.mk.inj hreply).2)
    have hk : k ∈ s'.apiKeys := (Table.mem_insert hins).mpr (.inr rfl)
    rw [Table.key_inj hk' hk (hid'.trans hid.symm)]
    exact hin
  · rintro e s' rfl
    exact herr _

theorem createUser_kept {body : Decoded UserService.CreateRequest} (c : Caller)
    (hr : r.endpoint = .account (.user (.create () body))) (hmodest : r.Modest tenantID s) :
    KeptByReply ts v tenantID s r (UserHandler.create c body) := by
  have herr : ∀ reply, Kept ts v tenantID s r (.error reply) s := fun _ => .error (.refl s) fun _ => hmodest.choice
  refine .bind (.ofExcept (fun req hreq => ?_) fun r _ => herr r)
  obtain ⟨htenant, hrole⟩ := hmodest.create req (decode_ok.mp hreq ▸ hr)
  refine .bind (.mapError ((UserService.create_ends req).mono ?_ ?_))
  · rintro u s' ⟨hurole, hutenant, -, -, -, hins, honly⟩
    have hin : u.claims.Inside tenantID :=
      ⟨hutenant.trans htenant, fun hsuper => hrole (hurole.symm.trans hsuper)⟩
    have hkeys : s'.apiKeys = s.apiKeys := by rw [honly]
    have hs' : s.Contained tenantID s' := by
      refine .of_rows (fun u' hu' => ?_) fun _ hk => .inr (hkeys ▸ hk)
      rcases (Table.mem_insert hins).mp hu' with hu' | rfl
      · exact .inr hu'
      · exact .inl hin
    refine .bind (auditLog_ends fun _ => .pure ⟨hs'.trans (.of_accounts rfl), nofun, ?_, ?_⟩)
    · rintro raw id ⟨_, _, _, hend, -⟩
      rw [hr] at hend
      cases hend
    · rintro id (⟨_, resp, row, -, hresp, hreply, hid⟩ | ⟨_, _, hend, -⟩) u' hu' hid'
      · obtain rfl := Except.ok.inj hresp
        obtain rfl := Datum.user.inj (Body.object.inj (Reply.mk.inj hreply).2)
        have hu : u ∈ s'.users := (Table.mem_insert hins).mpr (.inr rfl)
        rw [Table.key_inj hu' hu (hid'.trans hid.symm)]
        exact hin
      · rw [hr] at hend
        cases hend
  · rintro e s' rfl
    exact herr _

theorem updateUser_kept {raw : String} {body : Decoded UserService.UpdateRequest} (c : Caller)
    (hr : r.endpoint = .account (.user (.update raw body))) (hmodest : r.Modest tenantID s) :
    KeptByReply ts v tenantID s r (UserHandler.update c raw body) := by
  have hkey : ∀ answer raw id, ¬ r.CreatesKey answer raw id := by
    rintro answer raw id ⟨_, _, _, hend, -⟩
    rw [hr] at hend
    cases hend
  -- whose password is chosen is inside before, and so they are after
  have hpass : ∀ answer id s', s.Contained tenantID s' → r.ChoosesPassword answer id →
      ∀ u ∈ s'.users, u.id = id → u.claims.Inside tenantID := by
    rintro answer id s' hs' (⟨_, _, _, hend, -⟩ | ⟨raw', req, hend, hset, hid⟩)
    · rw [hr] at hend
      cases hend
    · exact hs'.user_inside fun u hu hu' => hmodest.password raw' req hend hset u hu (hu' ▸ hid)
  have herr : ∀ reply, Kept ts v tenantID s r (.error reply) s := fun _ => .error (.refl s) fun _ => hmodest.choice
  refine .bind (.ofExcept (fun id _ => ?_) fun r _ => herr r)
  refine .bind (.ofExcept (fun req hreq => ?_) fun r _ => herr r)
  have hpromote := hmodest.promote raw req (decode_ok.mp hreq ▸ hr)
  refine .bind (.mapError ((UserService.update_ends id req).mono ?_ ?_))
  · rintro u' s' ⟨u, hu, hupd, hset, honly⟩
    have hrole : u'.role = .superUser → u.role = .superUser := by
      rw [hupd.role]
      cases hreqrole : req.role with
      | none => exact fun h => h
      | some role => exact fun h => absurd (hreqrole.trans (congrArg some h)) hpromote
    have hs' : s.Contained tenantID s' :=
      .setUser hset honly (.inr ⟨u, (Table.find_eq_some.mp hu).1, hupd.id.symm, hupd.tenantID.symm, hrole⟩)
    refine .bind (auditLog_ends fun _ => .pure ⟨hs'.trans (.of_accounts rfl), nofun, ?_, ?_⟩)
    · exact fun raw id h => absurd h (hkey _ raw id)
    · exact fun id h => hpass _ id _ (hs'.trans (.of_accounts rfl)) h
  · rintro e s' rfl
    exact herr _

theorem AccountRequest.handle_kept {req : AccountRequest} (issuer : String) {c : Caller}
    (hr : r.endpoint = .account req) (hc : c.claims.Inside tenantID) (hmodest : r.Modest tenantID s) :
    KeptBy ts v tenantID s r (req.handle ts issuer c) := by
  have hplain : (Endpoint.account req).Plain → r.endpoint.Plain := fun h => hr ▸ h
  cases req with
  | me => exact Kept.of_reply (Kept.of_viewer (hplain trivial) _)
  | verifyTOTP body =>
    have hverified := (Ends.accounts (v := v) (s := s) (AuthHandler.verifyTOTP ts c body)).and
      (AuthHandler.verifyTOTP_ends c body)
    refine hverified.mono (fun resp s' h => ?_) fun reply s' h => ?_
    · obtain ⟨haccounts, -, htoken, hsession⟩ := h
      refine .plain (hplain trivial) (.of_accounts haccounts) fun token ht => .inr ?_
      rw [Response.of, Response.tokens, htoken, Option.toList_none, List.nil_append] at ht
      obtain ⟨t, rfl⟩ := hsession token (Option.mem_toList.mp ht)
      exact ⟨_, t, rfl, hc⟩
    · exact .plain (hplain trivial) (.of_accounts h.1) nofun
  | enrollTOTP => exact Kept.of_reply (enrollTOTP_kept (hplain trivial) issuer c)
  | confirmTOTP body => exact Kept.of_reply (confirmTOTP_kept (hplain trivial) c body)
  | createAPIKey body => exact Kept.of_reply (createAPIKey_kept hr hc)
  | listAPIKeys q => exact Kept.of_reply (Kept.of_viewer (hplain trivial) _)
  | deleteAPIKey raw => exact Kept.of_reply (deleteAPIKey_kept (hplain trivial) c raw)
  | user req =>
    cases req with
    | create _ body => exact Kept.of_reply (createUser_kept c hr hmodest)
    | list _ q => exact Kept.of_reply (Kept.of_viewer (hplain trivial) _)
    | get raw => exact Kept.of_reply (Kept.of_viewer (hplain trivial) _)
    | update raw body => exact Kept.of_reply (updateUser_kept c hr hmodest)
    | delete raw => exact Kept.of_reply (deleteUser_kept (hplain trivial) c raw)

theorem login_kept {remoteAddr : String} {body : Decoded AuthHandler.LoginRequest}
    (hr : r.endpoint = .login body)
    (hwho : ∀ req, body = .ok req → ∀ u ∈ s.users, u.email = req.email →
      v.bcryptMatches u.passwordHash req.password = true → u.claims.Inside tenantID) :
    KeptBy ts v tenantID s r (AuthHandler.login ts remoteAddr body) := by
  have hplain : r.endpoint.Plain := hr ▸ trivial
  refine .bind (.ofExcept (fun req hreq => ?_) fun _ _ => .plain hplain (.refl s) nofun)
  have hwho := hwho req (decode_ok.mp hreq)
  refine .bind (.mapError (.attempt ((AuthService.authenticatePassword_ends req.email req.password).mono ?_ ?_)))
  · rintro u s' ⟨u₀, hmem, -, hemail, hpass, hu, hwritten⟩
    have hin : u.claims.Inside tenantID := by
      rw [hu]
      exact hwho u₀ hmem hemail hpass
    have hs' : s.Contained tenantID s' := by
      rcases hwritten with rfl | ⟨honly, t, hset⟩
      · exact .refl _
      · exact .setUser hset honly (.inl hin)
    dsimp only
    split
    · refine .bind (.mapError (TokenService.issue_ends fun t => .pure (.plain hplain hs' fun token ht => .inr ?_)))
      exact ⟨_, t, List.mem_singleton.mp ht, hin⟩
    · refine .bind (.mapError (TokenService.issue_ends fun t => .bind (auditLog_ends fun _ => .pure ?_)))
      refine .plain hplain (hs'.trans (.of_accounts rfl)) fun token ht => .inr ?_
      exact ⟨_, t, List.mem_singleton.mp ht, hin⟩
  · rintro e s' rfl
    exact .bind (auditLog_ends fun _ => .pure (.plain hplain (.of_accounts rfl) nofun))

theorem enroll_kept {p : Provisioner} {remoteAddr : String} {body : Decoded EnrollmentHandler.EnrollRequest}
    (hr : r.endpoint = .enroll body) (hmodest : r.Modest tenantID s) :
    KeptBy ts v tenantID s r (EnrollmentHandler.enroll ts p remoteAddr body).1 := by
  have hplain : r.endpoint.Plain := hr ▸ trivial
  refine (EnrollmentHandler.enroll_ends p remoteAddr body).mono (fun resp s' h => ?_)
    fun reply s' h => .plain hplain (.of_accounts h) nofun
  obtain ⟨haccounts, hsession, htokens⟩ := h
  refine .plain hplain (.of_accounts haccounts) fun token ht => .inr ?_
  rw [Response.of, Response.tokens, hsession, Option.toList_none, List.append_nil] at ht
  obtain ⟨n, hn, ⟨req, hbody, hfor⟩, t, rfl⟩ := htokens token (Option.mem_toList.mp ht)
  have hrole : Role.readOnly ≠ .superUser := by decide
  exact ⟨_, t, rfl, hmodest.enroll req (hbody ▸ hr) n hn hfor, hrole⟩

theorem serve_kept {srv : Server} {w : World} (hpast : Origins srv.tokenSvc v tenantID past w.store)
    (hr : Insider srv.tokenSvc v tenantID past r w) (hmodest : r.Modest tenantID w.store) :
    Kept srv.tokenSvc v tenantID w.store r ((srv.serve r).exec v w).1 ((srv.serve r).exec v w).2.store := by
  have hends : Ends v w.store (srv.serve r) (fun resp s' => Kept srv.tokenSvc v tenantID w.store r (.ok resp) s')
      fun reply s' => Kept srv.tokenSvc v tenantID w.store r (.error reply) s' := by
    unfold Server.serve
    split
    · next body hend =>
      refine login_kept hend fun req hbody u hu hemail hpass => ?_
      rcases hr.password req (hbody ▸ hend) u hu hemail hpass with hin | ⟨y, hy, hchose⟩
      · exact hin
      · exact hpast.passwords y hy u.id hchose u hu rfl
    · next hend =>
      refine .pure (.plain (hend ▸ trivial) (.refl _) fun token ht => .inl ?_)
      exact List.mem_singleton.mp ht
    · next body hend => exact enroll_kept hend hmodest
    · next req hend =>
      refine .bind (((AccountRequest.middleware_ends r.presented req).and
        (AccountRequest.middleware_contained tenantID r.presented req)).mono
          (fun claims s' h => ?_) fun reply s' h => ?_)
      · obtain ⟨⟨honly, hshows, -⟩, hs'⟩ := h
        exact (AccountRequest.handle_kept srv.totpIssuer hend (shows_inside hpast hr hshows)
          (hmodest.of_only honly)).mono (fun _ _ h => .after hs' h) fun _ _ h => .after hs' h
      · obtain ⟨honly, hs'⟩ := h
        exact .error hs' fun _ => (hmodest.of_only honly).choice
    · next req hend =>
      have hplain : r.endpoint.Plain := hend ▸ trivial
      refine .bind ((ServiceRequest.middleware_contained tenantID r.presented req).mono
        (fun claims s' hs' => ?_) fun reply s' hs' => ?_)
      · refine .bind ((Ends.accounts (req.handle srv ⟨claims, r.remoteAddr⟩)).mono
          (fun reply s'' h => ?_) fun reply s'' h => ?_)
        · exact .pure (.plain hplain (hs'.trans (.of_accounts h)) nofun)
        · exact .plain hplain (hs'.trans (.of_accounts h)) nofun
      · exact .plain hplain hs' nofun
  rcases hx : (srv.serve r).exec v w with ⟨reply | resp, w'⟩
  · exact hends.error rfl hx
  · exact hends.ok rfl hx

theorem Origins.nil (s : Store) : Origins ts v tenantID [] s :=
  ⟨fun _ hy => absurd hy List.not_mem_nil, fun _ hy => absurd hy List.not_mem_nil,
    fun _ hy => absurd hy List.not_mem_nil⟩

theorem Origins.step {y : Server.Exchange} (h : Origins ts v tenantID past s)
    (hy : Kept ts v tenantID s y.call y.answer s') : Origins ts v tenantID (past ++ [y]) s' := by
  refine ⟨fun x hx => ?_, fun x hx raw id hkey => ?_, fun x hx id hpass => ?_⟩
  all_goals rcases List.mem_append.mp hx with hx | hx
  · exact h.tokens x hx
  · rw [List.mem_singleton.mp hx]
    exact hy.tokens
  · exact hy.contained.key_inside (h.keys x hx raw id hkey)
  · rw [List.mem_singleton.mp hx] at hkey
    exact hy.keys raw id hkey
  · exact hy.contained.user_inside (h.passwords x hx id hpass)
  · rw [List.mem_singleton.mp hx] at hpass
    exact hy.passwords id hpass

theorem claims_inside {srv : Server} {w : World} (hpast : Origins srv.tokenSvc v tenantID past w.store)
    (hr : Insider srv.tokenSvc v tenantID past r w) {claims : Claims} (hclaims : srv.claims v r w = some claims) :
    claims.Inside tenantID := by
  unfold Server.claims at hclaims
  split at hclaims
  · next req _ =>
    obtain ⟨_, _, hshows, -⟩ := (AccountRequest.middleware_ends r.presented req).of_toOption rfl hclaims
    exact shows_inside hpast hr hshows
  · next req _ =>
    obtain ⟨_, _, hshows, -⟩ := (ServiceRequest.middleware_ends r.presented req).of_toOption rfl hclaims
    exact shows_inside hpast hr hshows
  · cases hclaims

end

/-- Whatever an administrator of the tenant sends, with their own credentials and those they
come by, as long as each request stays inside the tenant: nobody becomes a superuser, and
no request acts for a superuser or for another tenant. -/
theorem admin_contained {srv : Server} {v : Env} {tenantID : ID} {w : World} {rs : List Request}
    (hrs : Session.Meets srv.serve v
      (fun past r w => Insider srv.tokenSvc v tenantID past r w ∧ r.Modest tenantID w.store) [] rs w) :
    (∀ u ∈ (Session.final srv.serve v rs w).store.users, u.role = .superUser →
      ∃ u₀ ∈ w.store.users, u₀.id = u.id ∧ u₀.role = .superUser) ∧
    ∀ x ∈ Session.run srv.serve v rs w, ∀ claims, srv.claims v x.call x.before = some claims →
      claims.role ≠ .superUser ∧ claims.tenantID = some tenantID := by
  have hstart : Origins srv.tokenSvc v tenantID [] w.store ∧ w.store.Contained tenantID w.store :=
    ⟨.nil _, .refl _⟩
  have hstep : ∀ (past : List Server.Exchange) r w',
      Origins srv.tokenSvc v tenantID past w'.store ∧ w.store.Contained tenantID w'.store →
      Insider srv.tokenSvc v tenantID past r w' ∧ r.Modest tenantID w'.store →
      Origins srv.tokenSvc v tenantID (past ++ [Session.exchange srv.serve v r w']) ((srv.serve r).exec v w').2.store ∧
        w.store.Contained tenantID ((srv.serve r).exec v w').2.store := by
    rintro past r w' ⟨hpast, hw'⟩ ⟨hr, hmodest⟩
    have hkept := serve_kept hpast hr hmodest
    exact ⟨hpast.step hkept, hw'.trans hkept.contained⟩
  constructor
  · intro u hu hsuper
    obtain ⟨-, hfinal⟩ := Session.final_history (I := fun past w' =>
      Origins srv.tokenSvc v tenantID past w'.store ∧ w.store.Contained tenantID w'.store) hstep hstart hrs
    rcases hfinal.users u hu with hin | ⟨u₀, hu₀, hid, -, hrole⟩
    · exact absurd hsuper hin.2
    · exact ⟨u₀, hu₀, hid, hrole hsuper⟩
  · intro x hx
    obtain ⟨pre, post, hrun⟩ := List.append_of_mem hx
    refine Session.run_history (P := fun _ x => ∀ claims, srv.claims v x.call x.before = some claims →
      claims.role ≠ .superUser ∧ claims.tenantID = some tenantID) hstep ?_ hstart hrs hrun
    intro past r w' hI hr claims hclaims
    exact (claims_inside hI.1 hr.1 hclaims).symm

namespace Sample

def neighbour : User := { user with id := 8, tenantID := some 200, email := "x@y.z" }

def tenancies : Store := account neighbour

def administrator : Claims := { userID := 7, tenantID := some 100, role := .admin }

def newcomer (tenantID : Option ID) (role : Role) : UserService.CreateRequest :=
  { tenantID, email := "new@b.c", name := "new", password := "password", role }

def creating (tenantID : Option ID) (role : Role) : Request :=
  inSession Env.calm administrator (.account (.user (.create () (.ok (newcomer tenantID role)))))

def reset : Request :=
  inSession Env.calm administrator (.account (.user (.update (ID.text 8) (.ok { password := some "password1" }))))

def takeover : Request := { endpoint := .login (.ok { email := "x@y.z", password := "password1" }) }

def impersonating : Request := inSession Env.calm neighbour.claims (.account .me)

theorem administrator_exec (req : ResourceRequest Unit UserService.CreateRequest UserService.UpdateRequest) :
    (server.serve (inSession Env.calm administrator (.account (.user req)))).exec Env.calm ⟨0, tenancies⟩ =
      ((AccountRequest.user req).handle server.tokenSvc server.totpIssuer ⟨administrator, ""⟩).exec Env.calm
        ⟨1, tenancies⟩ := by
  refine serve_account_inSession (by decide) rfl (by decide) ?_
  cases req <;> rfl

def created (tenantID : Option ID) (role : Role) : Store :=
  (((AccountRequest.user (.create () (.ok (newcomer tenantID role)))).handle server.tokenSvc server.totpIssuer
    ⟨administrator, ""⟩).exec Env.calm ⟨1, tenancies⟩).2.store

theorem creating_final (tenantID : Option ID) (role : Role) :
    (Session.final server.serve Env.calm [creating tenantID role] ⟨0, tenancies⟩).store = created tenantID role := by
  rw [Session.final, Session.final, creating, administrator_exec]
  rfl

def resetDone : World :=
  (((AccountRequest.user (.update (ID.text 8) (.ok { password := some "password1" }))).handle server.tokenSvc
    server.totpIssuer ⟨administrator, ""⟩).exec Env.calm ⟨1, tenancies⟩).2

theorem reset_exec : ((server.serve reset).exec Env.calm ⟨0, tenancies⟩).2 = resetDone := by
  rw [reset, administrator_exec]
  rfl

theorem inSession_insider {past : List Server.Exchange} {w : World} {claims : Claims} {endpoint : Endpoint}
    (hlogin : ∀ body, endpoint ≠ .login body)
    (hclaims : claims.Inside 100 ∨ ∃ y ∈ past, server.tokenSvc.token Env.calm claims 0 ∈
      (Response.of y.answer).tokens) :
    Insider server.tokenSvc Env.calm 100 past (inSession Env.calm claims endpoint) w where
  apiKey raw h := by
    have hstrip := TokenService.strip_token server.tokenSvc Env.calm claims 0
    rw [Except.ok.inj ((inSession_token _ _ _).symm.trans h), String.toList_append,
      Text.strip_eq_some.mpr rfl] at hstrip
    cases hstrip
  session token payloadB64 sigB64 h hcut _ := by
    rw [← Except.ok.inj ((inSession_token _ _ _).symm.trans h), TokenService.cut_token] at hcut
    exact ⟨claims, 0, (Prod.mk.inj (Option.some.inj hcut)).1.symm, hclaims⟩
  password req h := absurd h (hlogin _)

theorem administrator_inside : administrator.Inside 100 := ⟨rfl, by decide⟩

theorem takeover_insider {w : World} : Insider server.tokenSvc Env.calm 100
    [Session.exchange server.serve Env.calm reset w] takeover resetDone where
  apiKey raw h := nomatch h
  session token _ _ h := nomatch h
  password req h u hu _ _ := by
    have hall : ∀ u ∈ resetDone.store.users.rows, u.id = 8 := by decide
    have hraw : parseID "id" (ID.text 8) = .ok u.id := by
      rw [hall u hu]
      exact parseID_text "id" 8
    exact .inr ⟨_, List.mem_singleton_self _, .inr ⟨_, _, rfl, Option.some_ne_none _, hraw⟩⟩

theorem takeover_tokens : (Response.of ((server.serve takeover).exec Env.calm resetDone).1).tokens =
    [server.tokenSvc.token Env.calm neighbour.claims 0] := rfl

end Sample

/-- An administrator creates a user of their tenant. -/
theorem admin_contained_creates :
    (∃ u ∈ (Session.final Sample.server.serve Env.calm [Sample.creating (some 100) .admin]
      ⟨0, Sample.tenancies⟩).store.users, u.tenantID = some 100) ∧
    ∀ u ∈ (Session.final Sample.server.serve Env.calm [Sample.creating (some 100) .admin]
      ⟨0, Sample.tenancies⟩).store.users,
      u.role = .superUser → ∃ u₀ ∈ Sample.tenancies.users, u₀.id = u.id ∧ u₀.role = .superUser := by
  have hcreated : ∃ u ∈ (Sample.created (some 100) .admin).users.rows, u.tenantID = some 100 := by decide
  have hmodest : (Sample.creating (some 100) .admin).Modest 100 Sample.tenancies := by
    refine ⟨fun req h => ?_, fun _ _ h => ?_, fun _ _ h => ?_, fun _ h => ?_⟩
    all_goals cases h
    exact ⟨rfl, by decide⟩
  have hrs : Session.Meets Sample.server.serve Env.calm
      (fun past r w => Insider Sample.server.tokenSvc Env.calm 100 past r w ∧ r.Modest 100 w.store) []
      [Sample.creating (some 100) .admin] ⟨0, Sample.tenancies⟩ :=
    ⟨⟨Sample.inSession_insider nofun (.inl Sample.administrator_inside), hmodest⟩, trivial⟩
  refine ⟨?_, (admin_contained hrs).1⟩
  rw [Sample.creating_final]
  exact hcreated

/-- An administrator creates a superuser. They also take over an account of another tenant,
and a request is authorized under that tenant. -/
theorem admin_becomes_superuser :
    (Session.Meets Sample.server.serve Env.calm (Insider Sample.server.tokenSvc Env.calm 100) []
      [Sample.creating none .superUser] ⟨0, Sample.tenancies⟩ ∧
    (∀ u ∈ Sample.tenancies.users, u.role ≠ .superUser) ∧
    ∃ u ∈ (Session.final Sample.server.serve Env.calm
      [Sample.creating none .superUser] ⟨0, Sample.tenancies⟩).store.users, u.role = .superUser) ∧
    Session.Meets Sample.server.serve Env.calm (Insider Sample.server.tokenSvc Env.calm 100) []
      [Sample.reset, Sample.takeover, Sample.impersonating] ⟨0, Sample.tenancies⟩ ∧
    Sample.server.claims Env.calm Sample.impersonating
      (Session.final Sample.server.serve Env.calm [Sample.reset, Sample.takeover] ⟨0, Sample.tenancies⟩) =
      some { userID := 8, tenantID := some 200, role := .admin } := by
  have hcreated : ∃ u ∈ (Sample.created none .superUser).users.rows, u.role = .superUser := by decide
  refine ⟨⟨⟨Sample.inSession_insider nofun (.inl Sample.administrator_inside), trivial⟩, by decide, ?_⟩,
    ⟨Sample.inSession_insider nofun (.inl Sample.administrator_inside), ?_, ?_, trivial⟩, ?_⟩
  · rw [Sample.creating_final]
    exact hcreated
  · rw [Sample.reset_exec]
    exact Sample.takeover_insider
  · rw [Sample.reset_exec]
    refine Sample.inSession_insider nofun (.inr ⟨_, List.mem_append_right _ (List.mem_singleton_self _), ?_⟩)
    exact Sample.takeover_tokens ▸ List.mem_singleton_self _
  · have hin : Time.unix (Env.calm.now ((Sample.server.serve Sample.takeover).exec Env.calm Sample.resetDone).2.tick) ≤
      3600 := by
      decide
    rw [Session.final, Session.final, Session.final, Sample.reset_exec]
    have hrole : '|' ∉ Sample.neighbour.claims.role.toList := by decide
    have hme : AccountRequest.me.checks Sample.neighbour.claims = .ok Sample.neighbour.claims := rfl
    exact congrArg (fun x => x.1.toOption) (Sample.middleware_inSession hrole rfl hin hme)

end EdgeFabric
