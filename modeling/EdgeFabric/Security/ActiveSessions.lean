/-
Sessions are for users who are active, with the role that is stored. A login
checks the status and signs the stored role. `VerifyTOTP` checks neither: it signs
the claims that the caller comes with again, so that a user who is disabled, or
loses a role, between the two gets the session all the same
(`session_of_disabled_user`).

What a response hands out is right if every `VerifyTOTP` comes with a token that an
earlier response handed out to a user who has not changed since
(`session_of_active_user`).
-/
import EdgeFabric.Api.Router

namespace EdgeFabric

/-- What a session should go by: the status, the role and the tenant that are stored for a
user. -/
def Store.standing (s : Store) (id : ID) : Option (UserStatus × Role × Option ID) :=
  (s.users.find id).map fun u => (u.status, u.role, u.tenantID)

/-- The requests to log in, to verify a code and to update a user. The token that comes with
a code is one that an earlier response handed out, and the standing of its user is what
it was then. -/
def SignIn (ts : TokenService) (v : Env) (past : List Server.Exchange) (r : Request) (w : World) : Prop :=
  match r.endpoint with
  | .login _ | .account (.user (.update _ _)) => True
  | .account (.verifyTOTP _) =>
    ∀ token claims, r.presented.token = .ok token → Authenticated ts v w.store token claims →
      ∃ y ∈ past, token ∈ (Response.of y.answer).tokens ∧
        w.store.standing claims.userID = y.after.store.standing claims.userID
  | _ => False

/-- The tokens of the response are for users who are stored as active: a session cookie for
the role and the tenant that are stored, a token in the body for the second factor. -/
structure Granted (ts : TokenService) (v : Env) (resp : Response) (s : Store) : Prop where
  session : ∀ token, resp.session = some token →
    ∃ u ∈ s.users, u.status = .active ∧ ∃ t, token = ts.token v u.claims t
  token : ∀ token, resp.token = some token →
    ∃ u ∈ s.users, u.status = .active ∧ ∃ t, token = ts.token v { u.claims with mfaPending := true } t

section
variable {ts : TokenService} {v : Env} {s : Store} {past : List Server.Exchange}

theorem Granted.reply (r : Reply) : Granted ts v { reply := r } s := ⟨nofun, nofun⟩

theorem Granted.of_signedIn {resp : Response} (h : SignedIn ts v s resp) : Granted ts v resp s := by
  refine ⟨fun token htoken => ?_, h.token⟩
  obtain ⟨u, hu, hactive, _, t, ht⟩ := h.session token htoken
  exact ⟨u, hu, hactive, t, ht⟩

theorem Granted.of_mem {resp : Response} (h : Granted ts v resp s) {token : String} (ht : token ∈ resp.tokens) :
    ∃ u ∈ s.users, u.status = .active ∧ ∃ t pending, token = ts.token v { u.claims with mfaPending := pending } t := by
  rcases List.mem_append.mp ht with ht | ht
  · obtain ⟨u, hu, hactive, t, ht⟩ := h.token token (Option.mem_toList.mp ht)
    exact ⟨u, hu, hactive, t, true, ht⟩
  · obtain ⟨u, hu, hactive, t, ht⟩ := h.session token (Option.mem_toList.mp ht)
    exact ⟨u, hu, hactive, t, false, ht⟩

theorem standing_eq_some {u : User} (hu : u ∈ s.users) : s.standing u.id = some (u.status, u.role, u.tenantID) := by
  rw [Store.standing, Table.find_eq_some.mpr ⟨hu, rfl⟩]
  rfl

theorem claims_stored (hpast : ∀ y ∈ past, Granted ts v (.of y.answer) y.after.store) {token : String} {claims : Claims}
    (hauth : Authenticated ts v s token claims)
    (hsince : ∃ y ∈ past, token ∈ (Response.of y.answer).tokens ∧
      s.standing claims.userID = y.after.store.standing claims.userID) :
    ∃ u ∈ s.users, u.status = .active ∧
      u.claims = { userID := claims.userID, tenantID := claims.tenantID, role := claims.role } := by
  obtain ⟨y, hy, htoken, hstanding⟩ := hsince
  obtain ⟨u, hu, hactive, t, pending, rfl⟩ := (hpast y hy).of_mem htoken
  have hclaims := authenticated_token hauth
  subst hclaims
  have hthen : y.after.store.standing u.id = some (u.status, u.role, u.tenantID) := standing_eq_some hu
  have hnow : s.standing u.id = some (u.status, u.role, u.tenantID) := hstanding.trans hthen
  obtain ⟨u', hfind, heq⟩ := Option.map_eq_some_iff.mp hnow
  obtain ⟨hmem, hid⟩ := Table.find_eq_some.mp hfind
  obtain ⟨hstatus, hrest⟩ := Prod.mk.inj heq
  obtain ⟨hrole, htenant⟩ := Prod.mk.inj hrest
  refine ⟨u', hmem, hstatus.trans hactive, ?_⟩
  simp only [User.claims, hid, hrole, htenant]

theorem verifyTOTP_granted (hpast : ∀ y ∈ past, Granted ts v (.of y.answer) y.after.store) {p : Presented}
    {body : Decoded AuthHandler.CodeRequest} {issuer remoteAddr : String}
    (hsince : ∀ token claims, p.token = .ok token → Authenticated ts v s token claims →
      ∃ y ∈ past, token ∈ (Response.of y.answer).tokens ∧
        s.standing claims.userID = y.after.store.standing claims.userID) :
    Ends v s (do
      let claims ← (AccountRequest.verifyTOTP body).middleware ts p
      (AccountRequest.verifyTOTP body).handle ts issuer ⟨claims, remoteAddr⟩)
      (Granted ts v) fun r s' => Granted ts v { reply := r } s' := by
  refine .bind ((AccountRequest.middleware_ends p _).mono (fun claims s' h => ?_) fun r _ _ => .reply r)
  obtain ⟨honly, ⟨token, htoken, hauth⟩, _⟩ := h
  obtain ⟨u, hu, hactive, hclaims⟩ := claims_stored hpast hauth (hsince token claims htoken hauth)
  refine (AuthHandler.verifyTOTP_ends _ body).mono (fun resp s'' h => ?_) fun r _ _ => .reply r
  obtain ⟨husers, hbody, hsession⟩ := h
  refine ⟨fun token' htoken' => ?_, fun token' htoken' => ?_⟩
  · obtain ⟨t, ht⟩ := hsession token' htoken'
    refine ⟨u, ?_, hactive, t, ht.trans ?_⟩
    · rw [husers, honly.users]
      exact hu
    · rw [hclaims]
  · rw [hbody] at htoken'
    cases htoken'

theorem serve_granted {srv : Server} {r : Request} {w : World}
    (hpast : ∀ y ∈ past, Granted srv.tokenSvc v (.of y.answer) y.after.store)
    (hr : SignIn srv.tokenSvc v past r w) :
    Granted srv.tokenSvc v (.of ((srv.serve r).exec v w).1) ((srv.serve r).exec v w).2.store := by
  refine Response.of_exec ?_
  unfold SignIn at hr
  unfold Server.serve
  split at hr
  · next body hend =>
    rw [hend]
    exact (AuthHandler.login_ends r.remoteAddr body).mono (fun _ _ h => .of_signedIn h.2) fun r _ _ => .reply r
  · next id body hend =>
    rw [hend]
    -- an update hands out nothing
    refine .bind (.of_forall (fun claims _ => ?_) fun r _ => .reply r)
    exact .bind (.of_forall (fun reply _ => .pure (.reply reply)) fun r _ => .reply r)
  · next body hend =>
    rw [hend]
    exact verifyTOTP_granted hpast hr
  · exact hr.elim

end

/-- Along every session of logins, codes and updates of users in which each code comes with
a token that an earlier response handed out and whose user has not changed since: every
session is for a user who is stored as active, with the role and the tenant that are
stored. -/
theorem session_of_active_user {srv : Server} {v : Env} {w : World} {rs : List Request}
    (hrs : Session.Meets srv.serve v (SignIn srv.tokenSvc v) [] rs w) :
    ∀ x ∈ Session.run srv.serve v rs w, Granted srv.tokenSvc v (.of x.answer) x.after.store := by
  intro x hx
  obtain ⟨pre, post, hrun⟩ := List.append_of_mem hx
  refine Session.run_history (I := fun past _ => ∀ y ∈ past, Granted srv.tokenSvc v (.of y.answer) y.after.store)
    (P := fun _ x => Granted srv.tokenSvc v (.of x.answer) x.after.store) ?_ ?_
    (fun _ hy => absurd hy List.not_mem_nil) hrs hrun
  · intro past r w hpast hr
    exact List.forall_mem_concat hpast (serve_granted hpast hr)
  · intro past r w hpast hr
    exact serve_granted hpast hr

namespace Sample

def enterCode : Request := withPassword Env.calm (.account (.verifyTOTP (.ok { code := "123456" })))

def disable : Request :=
  inSession Env.calm { userID := 8, tenantID := none, role := .superUser }
    (.account (.user (.update (ID.text 7) (.ok { status := some .disabled }))))

theorem login_exec :
    (server.serve login).exec Env.calm ⟨0, account guarded⟩ =
      (.ok { reply := .ok (.login true)
             token := some (server.tokenSvc.token Env.calm { guarded.claims with mfaPending := true } 4) }, passed) :=
  rfl

theorem enterCode_exec {w : World} (hin : Time.unix (Env.calm.now w.tick) ≤ 3600) :
    (server.serve enterCode).exec Env.calm w =
      (AuthHandler.verifyTOTP server.tokenSvc ⟨{ guarded.claims with mfaPending := true }, ""⟩
        (.ok { code := "123456" })).1.exec Env.calm w.next :=
  serve_withPassword hin rfl rfl

def shut : World :=
  ((AccountRequest.user (.update (ID.text 7) (.ok { status := some .disabled }))).handle server.tokenSvc
    server.totpIssuer ⟨{ userID := 8, tenantID := none, role := .superUser }, ""⟩ |>.exec Env.calm passed.next).2

theorem disable_exec :
    (server.serve disable).exec Env.calm passed =
      ((AccountRequest.user (.update (ID.text 7) (.ok { status := some .disabled }))).handle server.tokenSvc
        server.totpIssuer ⟨{ userID := 8, tenantID := none, role := .superUser }, ""⟩).exec Env.calm passed.next :=
  serve_account_inSession (by decide) rfl (by decide) rfl

end Sample

/-- The account is used as it is stored: a session is handed out. -/
theorem session_of_active_user_verified :
    ∃ x ∈ Session.run Sample.server.serve Env.calm [Sample.login, Sample.enterCode] ⟨0, Sample.account Sample.guarded⟩,
      (Response.of x.answer).session.isSome = true ∧
        Granted Sample.server.tokenSvc Env.calm (.of x.answer) x.after.store := by
  let w : World := ⟨0, Sample.account Sample.guarded⟩
  have hmeets : Session.Meets Sample.server.serve Env.calm (SignIn Sample.server.tokenSvc Env.calm) []
      [Sample.login, Sample.enterCode] w := by
    refine ⟨trivial, fun token claims htoken _ => ?_, trivial⟩
    obtain rfl := Except.ok.inj ((Sample.withPassword_token _ _).symm.trans htoken)
    refine ⟨_, List.mem_singleton_self _, ?_, rfl⟩
    rw [Session.exchange, Sample.login_exec]
    exact List.mem_singleton_self _
  have hlast : Session.exchange Sample.server.serve Env.calm Sample.enterCode Sample.passed ∈
      Session.run Sample.server.serve Env.calm [Sample.login, Sample.enterCode] w := by
    rw [Session.run, Sample.login_exec]
    exact List.mem_cons_of_mem _ List.mem_cons_self
  refine ⟨_, hlast, ?_, session_of_active_user hmeets _ hlast⟩
  rw [Session.exchange, Sample.enterCode_exec (by decide)]
  rfl

/-- The account is disabled between the password and the code. The code brings a session of
its user all the same. -/
theorem session_of_disabled_user :
    ((Session.run Sample.server.serve Env.calm [Sample.login, Sample.disable, Sample.enterCode]
        ⟨0, Sample.account Sample.guarded⟩).map fun x =>
      ((Response.of x.answer).session, x.after.store.users.rows.map User.status)) =
    [(none, [.active]), (none, [.disabled]),
      (some (Sample.server.tokenSvc.token Env.calm Sample.guarded.claims 16), [.disabled])] := by
  have hin : Time.unix (Env.calm.now Sample.shut.tick) ≤ 3600 := by decide
  rw [Session.run, Sample.login_exec, Session.run, Sample.disable_exec, ← Sample.shut, Session.run,
    Sample.enterCode_exec hin]
  rfl

end EdgeFabric
