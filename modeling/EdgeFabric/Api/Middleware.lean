/-
The middleware of the API (`internal/api/middleware`): for whom a request acts,
and whether they may. Metrics, logging and the headers of the
browser do not change what a handler does and are left out.
-/
import EdgeFabric.Api.Http

namespace EdgeFabric

/-- What a request shows to be let in: the `Authorization` header and the session cookie,
empty if there is none. -/
structure Presented where
  authorization : String := ""
  cookie : String := ""
  deriving DecidableEq, Repr

/-- The token in the header, or in the cookie if there is no header. -/
def Presented.token (p : Presented) : Except Reply String := do
  let token ←
    if p.authorization ≠ "" then
      match Text.strip "Bearer ".toList p.authorization.toList with
      | some token => .ok (String.ofList token)
      | none => .error (.unauthorized "invalid authorization scheme")
    else .ok p.cookie
  if token = "" then .error (.unauthorized "missing authorization") else return token

theorem Presented.token_bearer {token cookie : String} (h : token ≠ "") :
    ({ authorization := "Bearer " ++ token, cookie } : Presented).token = .ok token := by
  have hstrip : Text.strip "Bearer ".toList ("Bearer " ++ token).toList = some token.toList :=
    Text.strip_eq_some.mpr String.toList_append
  have hsome : "Bearer " ++ token ≠ "" := by
    intro hnil
    rw [hnil] at hstrip
    cases hstrip
  simp only [Presented.token, if_pos hsome, hstrip, String.ofList_toList, bind, Except.bind, if_neg h,
    pure, Except.pure]

def APIKey.claims (k : APIKey) : Claims :=
  { userID := k.userID, tenantID := some k.tenantID, role := k.role, apiKeyID := some k.id }

/-- The claims of a token: an API key if it starts with `ef_`, else a session token. -/
def authenticate (ts : TokenService) (token : String) : Web Claims :=
  if (Text.strip "ef_".toList token.toList).isSome then do
    let apiKey ← (AuthService.authenticateAPIKey token).answering fun _ => .unauthorized "invalid API key"
    return apiKey.claims
  else (ts.verify token).answering fun _ => .unauthorized "invalid or expired token"

/-- `Auth`. A session without its second factor gets only to the paths that are `open`. -/
def auth (ts : TokenService) (p : Presented) (openPath : Bool) : Web Claims := do
  let token ← p.token
  let claims ← authenticate ts token
  require (claims.mfaPending = false ∨ openPath) (.error 403 "mfa_required" "MFA verification required")
  return claims

/-- What an endpoint requires: an action on a resource, in the tenant of the caller's claims
(`TenantFromClaims`) or in none. -/
structure Permission where
  action : Action
  resource : Resource
  tenantFromClaims : Bool := true
  deriving DecidableEq, Repr

def requirePermission (claims : Claims) (p : Permission) : Except Reply Unit :=
  match authorize claims p.action p.resource (if p.tenantFromClaims then claims.tenantID else none) with
  | .ok _ => .ok ()
  | .error _ => .error (.forbidden "insufficient permissions")

/-- `RequireResourceOwnerOrAdmin`, for a path parameter. -/
def requireResourceOwnerOrAdmin (claims : Claims) (name raw : String) : Except Reply Unit :=
  if claims.tenantID = none ∨ claims.role = .admin ∨ claims.role = .superUser then .ok ()
  else do
    let pathID ← parseID name raw
    require (claims.userID = pathID) (.forbidden "not authorized for this resource")

/-! ## Who is let in -/

/-- Why a token is good for the claims: it is an API key that is stored, or it is a session
token that is valid at some time. -/
inductive Authenticated (ts : TokenService) (v : Env) (s : Store) (token : String) : Claims → Prop where
  | apiKey {raw : String} {k : APIKey} : token = "ef_" ++ raw → k ∈ s.apiKeys →
      v.bcryptMatches k.keyHash raw = true → Authenticated ts v s token k.claims
  | session {t : Nat} {claims : Claims} : ts.verifyAt v (v.now t) token = .ok claims →
      Authenticated ts v s token claims

def Presented.Shows (ts : TokenService) (v : Env) (s : Store) (p : Presented) (claims : Claims) : Prop :=
  ∃ token, p.token = .ok token ∧ Authenticated ts v s token claims

def Store.OnlyAPIKeys (s s' : Store) : Prop := s' = { s with apiKeys := s'.apiKeys }

section
variable {v : Env} {s : Store} {ts : TokenService}

theorem Store.OnlyAPIKeys.refl : s.OnlyAPIKeys s := rfl

theorem Store.OnlyAPIKeys.users {s' : Store} (h : s.OnlyAPIKeys s') : s'.users = s.users := by rw [h]

theorem authenticated_token {claims claims₀ : Claims} {t : Time}
    (h : Authenticated ts v s (ts.token v claims₀ t) claims) : claims = { claims₀ with apiKeyID := none } := by
  generalize htoken : ts.token v claims₀ t = token at h
  cases h with
  | apiKey hkey =>
    have hstrip := TokenService.strip_token ts v claims₀ t
    rw [htoken, hkey, String.toList_append, Text.strip_eq_some.mpr rfl] at hstrip
    cases hstrip
  | session hverify =>
    rw [← htoken, TokenService.verifyAt_token] at hverify
    split at hverify
    · cases hverify
    · split at hverify
      · cases hverify
      · exact (Except.ok.inj hverify).symm

theorem require_ok {p : Prop} [Decidable p] {r : Reply} {u : Unit} : require p r = .ok u ↔ p := by
  unfold require
  split <;> simp_all

theorem require_error {p : Prop} [Decidable p] {r r' : Reply} (h : require p r = .error r') : r' = r := by
  unfold require at h
  split at h
  · cases h
  · exact (Except.error.inj h).symm

theorem requirePermission_ok {claims : Claims} {p : Permission} {u : Unit} (h : requirePermission claims p = .ok u) :
    authorize claims p.action p.resource (if p.tenantFromClaims then claims.tenantID else none) = .ok () := by
  unfold requirePermission at h
  split at h
  · next hu => exact hu
  · cases h

theorem requirePermission_refuses {claims : Claims} {p : Permission} {r : Reply}
    (h : requirePermission claims p = .error r) : r.Refuses := by
  unfold requirePermission at h
  split at h
  · cases h
  · cases h
    exact Reply.refuses_error (by decide)

theorem requireResourceOwnerOrAdmin_refuses {claims : Claims} {name raw : String} {r : Reply}
    (h : requireResourceOwnerOrAdmin claims name raw = .error r) : r.Refuses := by
  unfold requireResourceOwnerOrAdmin at h
  split at h
  · cases h
  · cases hid : parseID name raw with
    | error r' =>
      rw [hid] at h
      cases h
      exact parseID_refuses hid
    | ok id =>
      rw [hid] at h
      rw [require_error h]
      exact Reply.refuses_error (by decide)

theorem authenticate_ends (token : String) :
    Ends v s (authenticate ts token) (fun claims s' => s.OnlyAPIKeys s' ∧ Authenticated ts v s token claims)
      fun _ s' => s.OnlyAPIKeys s' := by
  unfold authenticate
  split
  · next hkey =>
    obtain ⟨raw, hraw⟩ := Option.isSome_iff_exists.mp hkey
    have hlist := Text.strip_eq_some.mp hraw
    have htoken : token = "ef_" ++ String.ofList raw := by
      rw [← String.toList_inj, String.toList_append, hlist]
      exact congrArg _ String.toList_ofList.symm
    have hrawKey : AuthService.rawKeyOf token = String.ofList raw := by rw [htoken, AuthService.rawKeyOf_append]
    refine .bind (.mapError ((AuthService.authenticateAPIKey_ends token).mono ?_ ?_))
    · intro k s' hk
      obtain ⟨hmem, hmatch, hs⟩ := hk
      rw [hrawKey] at hmatch
      refine .pure ⟨?_, .apiKey htoken hmem hmatch⟩
      rcases hs with rfl | ⟨hs, _⟩
      · exact .refl
      · exact hs
    · intro _ s' hs
      subst hs
      exact .refl
  · refine .mapError (Ends.ask (fun t claims h => ?_) fun _ => .refl)
    exact ⟨.refl, .session h⟩

/-- Who gets past `Auth` has shown a token that is good for their claims; without the second
factor they get to open paths only. -/
theorem auth_ends (p : Presented) (openPath : Bool) :
    Ends v s (auth ts p openPath)
      (fun claims s' => s.OnlyAPIKeys s' ∧ p.Shows ts v s claims ∧ (claims.mfaPending = true → openPath = true))
      fun _ s' => s.OnlyAPIKeys s' := by
  refine .bind (.ofExcept (fun token htoken => ?_) fun _ _ => .refl)
  refine .andThen (authenticate_ends token) ?_
  intro claims s' h
  obtain ⟨honly, hauth⟩ := h
  refine .bind (.ofExcept (fun u hu => ?_) fun _ _ => honly)
  refine .pure ⟨honly, ⟨token, htoken, hauth⟩, fun hpending => ?_⟩
  rcases require_ok.mp hu with hfull | hopen
  · rw [hpending] at hfull
    cases hfull
  · exact hopen

/-- What authentication leaves behind: nothing, or the time of last use of the API key that
the claims are of. -/
def Store.UsedBy (s s' : Store) (claims : Claims) : Prop :=
  s' = s ∨ ∃ k ∈ s.apiKeys, claims = k.claims ∧ s.OnlyAPIKeys s' ∧
    ∃ t, s.apiKeys.set { k with lastUsedAt := some t } = some s'.apiKeys

theorem authenticate_used (token : String) :
    Ends v s (authenticate ts token) (fun claims s' => s.UsedBy s' claims) fun r s' => s' = s ∧ r.Refuses := by
  have hrefuses : ∀ msg, (Reply.unauthorized msg).Refuses := fun msg => Reply.refuses_error (by decide)
  unfold authenticate
  split
  · refine .bind (.mapError ((AuthService.authenticateAPIKey_ends token).mono (fun k s' hk => ?_) fun _ _ h => ?_))
    · obtain ⟨hmem, -, hs⟩ := hk
      refine .pure (hs.imp_right fun hs => ?_)
      exact ⟨k, hmem, rfl, hs⟩
    · exact ⟨h, hrefuses _⟩
  · exact .mapError (Ends.ask (fun _ _ _ => .inl rfl) fun _ => ⟨rfl, hrefuses _⟩)

theorem Presented.token_refuses {p : Presented} {r : Reply} (h : p.token = .error r) : r.Refuses := by
  have hrefuses : ∀ msg, (Reply.unauthorized msg).Refuses := fun msg => Reply.refuses_error (by decide)
  have hempty : ∀ token : String,
      (if token = "" then .error (.unauthorized "missing authorization") else pure token :
        Except Reply String) = .error r → r.Refuses := by
    intro token htoken
    split at htoken
    · cases htoken
      exact hrefuses _
    · cases htoken
  unfold Presented.token at h
  dsimp only [bind, Except.bind] at h
  split at h
  · split at h
    · exact hempty _ h
    · cases h
      exact hrefuses _
  · exact hempty _ h

theorem auth_used (p : Presented) (openPath : Bool) :
    Ends v s (auth ts p openPath) (fun claims s' => s.UsedBy s' claims) fun r s' => s' = s ∧ r.Refuses := by
  refine .bind (.ofExcept (fun token _ => ?_) fun _ hr => ⟨rfl, Presented.token_refuses hr⟩)
  refine .andThen (authenticate_used token) fun claims s' h => ?_
  refine .bind (.ofExcept (fun _ _ => .pure h) fun r hr => ?_)
  rcases h with rfl | ⟨k, -, rfl, -⟩
  · rw [require_error hr]
    exact ⟨rfl, Reply.refuses_error (by decide)⟩
  · rw [require, if_pos (.inl rfl)] at hr
    cases hr

end

/-! ## With the token of a session -/

section
variable {v : Env} {w : World}

theorem authenticate_session_exec {ts : TokenService} {token : String}
    (h : Text.strip "ef_".toList token.toList = none) :
    (authenticate ts token).exec v w =
      ((ts.verifyAt v (v.now w.tick) token).mapError fun _ => .unauthorized "invalid or expired token", w.next) := by
  rw [authenticate, h, if_neg (by decide)]
  exact Prog.exec_mapError v w _ _

theorem auth_token_exec {ts ts' : TokenService} (hkey : ts'.signingKey = ts.signingKey) {p : Presented}
    {claims : Claims} {t : Time} (hp : p.token = .ok (ts.token v claims t)) (hrole : '|' ∉ claims.role.toList)
    {openPath : Bool} (hopen : claims.mfaPending = false ∨ openPath = true) :
    (auth ts' p openPath).exec v w =
      (if ts.expiry t < Time.unix (v.now w.tick) then .error (.unauthorized "invalid or expired token")
        else .ok { claims with apiKeyID := none }, w.next) := by
  have hauth : (authenticate ts' (ts.token v claims t)).exec v w =
      (if ts.expiry t < Time.unix (v.now w.tick) then .error (.unauthorized "invalid or expired token")
        else .ok { claims with apiKeyID := none }, w.next) := by
    rw [authenticate_session_exec (TokenService.strip_token ts v claims t), TokenService.verifyAt_congr hkey,
      TokenService.verifyAt_token, if_neg hrole]
    split <;> rfl
  generalize ts.token v claims t = token at hp hauth
  rw [auth, hp]
  refine (Prog.exec_bind v w _ _).trans ((Prog.exec_bind v w _ _).trans ?_)
  rw [hauth]
  by_cases hlate : ts.expiry t < Time.unix (v.now w.tick)
  · simp only [if_pos hlate]
  · simp only [if_neg hlate]
    rw [require, if_pos hopen]
    rfl

end

end EdgeFabric
