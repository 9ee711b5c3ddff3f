/-
Session tokens say what was said when they were issued. Whatever text `Verify`
accepts, its payload was signed by an earlier `Issue` call, if nobody else can
sign; the payload of an `Issue` call is read back in one way only, so the claims
are those of the call (`token_integrity`). The identifier of an API key is not
part of a token: claims that carry one come back without it
(`token_drops_api_key`).
-/
import EdgeFabric.Auth.Token

namespace EdgeFabric

namespace TokenService

/-- The claims of an encoded payload, whoever signed it. -/
def readPayload (now : Time) (payloadB64 : List Char) : Except Err Claims := do
  let some payloadBytes := Base64.decode payloadB64 | .error (.text "invalid token payload encoding")
  let some payload := Text.ofBytes payloadBytes | .error (.text "invalid token payload")
  claimsOf now (payload.toList.splitOn '|')

section
variable {ts : TokenService} {v : Env} {now : Time} {claims : Claims}

theorem verifyAt_ok {token : String} (h : ts.verifyAt v now token = .ok claims) :
    ∃ payloadB64 sigB64, Text.cut '.' token.toList = some (payloadB64, sigB64) ∧
      Base64.decode sigB64 = some (ts.sign v payloadB64) ∧ readPayload now payloadB64 = .ok claims := by
  unfold verifyAt at h
  split at h
  · next payloadB64 sigB64 hcut =>
    split at h
    · next sig hsig =>
      split at h
      · cases h
      · next heq =>
        obtain rfl := not_not.mp heq
        exact ⟨payloadB64, sigB64, hcut, hsig, h⟩
    · cases h
  · cases h

theorem readPayload_payload (t : Time) :
    readPayload now (ts.payload claims t) = ts.verifyAt v now (ts.token v claims t) := by
  rw [verifyAt_token_eq]
  simp only [readPayload, payload, Base64.decode_encode, Text.ofBytes_bytes, String.toList_ofList]

theorem readPayload_ok {c : Claims} {t : Time} (h : readPayload now (ts.payload claims t) = .ok c) :
    c = { claims with apiKeyID := none } ∧ (Time.unix now : Int) ≤ ts.expiry t := by
  rw [readPayload_payload (v := Env.calm), verifyAt_token] at h
  split at h
  · cases h
  · split at h
    · cases h
    · next hlive =>
      cases h
      exact ⟨rfl, not_lt.mp hlive⟩

end

end TokenService

/-! ## Runs of a token service -/

inductive TokenCall where
  | issue (claims : Claims)
  | verify (token : String)
  deriving DecidableEq, Repr

def TokenCall.run (ts : TokenService) : TokenCall → M (String ⊕ Claims)
  | .issue claims => do return .inl (← ts.issue claims)
  | .verify token => do return .inr (← ts.verify token)

namespace TokenService
variable {ts : TokenService} {v : Env} {w : World}

abbrev Exchange := Session.Exchange TokenCall World Err (String ⊕ Claims)

/-- Nobody but the service signs: a text that comes with the signature of its payload has
the payload of an `Issue` call that was made before. -/
def Unforgeable (ts : TokenService) (v : Env) (xs : List Exchange) : Prop :=
  ∀ pre x post token payloadB64 sigB64, xs = pre ++ x :: post → x.call = .verify token →
    Text.cut '.' token.toList = some (payloadB64, sigB64) → Base64.decode sigB64 = some (ts.sign v payloadB64) →
    ∃ y ∈ pre, ∃ claims, y.call = .issue claims ∧ payloadB64 = ts.payload claims (v.now y.before.tick)

theorem exec_verify (token : String) :
    ((TokenCall.verify token).run ts).exec v w = ((ts.verifyAt v (v.now w.tick) token).map Sum.inr, w.next) := by
  have hverify : (ts.verify token).1.exec v w = (ts.verifyAt v (v.now w.tick) token, w.next) := rfl
  simp only [TokenCall.run, liftM_reads, Prog.exec_bind, hverify]
  cases ts.verifyAt v (v.now w.tick) token <;> rfl

theorem answer_verify {cs : List TokenCall} {x : Exchange} (hx : x ∈ Session.run (TokenCall.run ts) v cs w)
    {token : String} (hcall : x.call = .verify token) :
    x.answer = (ts.verifyAt v (v.now x.before.tick) token).map Sum.inr := by
  induction cs generalizing w with
  | nil => cases hx
  | cons call cs ih =>
    rcases List.mem_cons.mp hx with rfl | hx
    · dsimp only at hcall ⊢
      rw [hcall, exec_verify]
    · exact ih hx

end TokenService

/-- Along every session of `Issue` and `Verify` calls, for every signing key and lifetime:
the claims that `Verify` returns are those of an earlier `Issue` call that has not
expired, and a token whose role holds no bar is read back, without an API key, until it
expires. -/
theorem token_integrity (ts : TokenService) (v : Env) (w : World) (cs : List TokenCall)
    (hmac : TokenService.Unforgeable ts v (Session.run (TokenCall.run ts) v cs w)) :
    (∀ pre x post token c, Session.run (TokenCall.run ts) v cs w = pre ++ x :: post → x.call = .verify token →
      x.answer = .ok (.inr c) →
      ∃ y ∈ pre, ∃ claims, y.call = .issue claims ∧ c.userID = claims.userID ∧ c.tenantID = claims.tenantID ∧
        c.role = claims.role ∧ c.mfaPending = claims.mfaPending ∧
        (Time.unix (v.now x.before.tick) : Int) ≤ ts.expiry (v.now y.before.tick)) ∧
    ∀ claims t now, '|' ∉ claims.role.toList → (Time.unix now : Int) ≤ ts.expiry t →
      ts.verifyAt v now (ts.token v claims t) = .ok { claims with apiKeyID := none } := by
  constructor
  · intro pre x post token c hrun hcall hanswer
    have hx : x ∈ Session.run (TokenCall.run ts) v cs w := by simp [hrun]
    have hverify : ts.verifyAt v (v.now x.before.tick) token = .ok c := by
      rw [TokenService.answer_verify hx hcall] at hanswer
      cases h : ts.verifyAt v (v.now x.before.tick) token with
      | error e => rw [h] at hanswer; cases hanswer
      | ok c' => rw [h] at hanswer; cases hanswer; rfl
    obtain ⟨payloadB64, sigB64, hcut, hsig, hread⟩ := TokenService.verifyAt_ok hverify
    obtain ⟨y, hy, claims, hissue, hpayload⟩ := hmac pre x post token payloadB64 sigB64 hrun hcall hcut hsig
    rw [hpayload] at hread
    obtain ⟨hc, hlive⟩ := TokenService.readPayload_ok hread
    rw [hc]
    exact ⟨y, hy, claims, hissue, rfl, rfl, rfl, rfl, hlive⟩
  · intro claims t now hbar hlive
    rw [TokenService.verifyAt_token, if_neg hbar, if_neg (not_lt.mpr hlive)]

namespace Sample

def tokens : TokenService := { signingKey := [1], ttl := 3600000000000 }

def admin : Claims := { userID := 7, tenantID := some 100, role := .admin }

def tokenSession : List TokenCall := [.issue admin, .verify (tokens.token Env.calm admin 0)]

theorem tokenSession_unforgeable :
    tokens.Unforgeable Env.calm (Session.run (TokenCall.run tokens) Env.calm tokenSession ⟨0, Store.empty⟩) := by
  intro pre x post token payloadB64 sigB64 hrun hcall hcut _
  simp only [tokenSession, Session.run] at hrun
  rcases pre with _ | ⟨y, _ | ⟨z, pre⟩⟩
  · obtain ⟨hx, -⟩ := List.cons.inj hrun
    rw [← hx] at hcall
    cases hcall
  · obtain ⟨hy, hrun⟩ := List.cons.inj hrun
    obtain ⟨hx, -⟩ := List.cons.inj hrun
    rw [← hx] at hcall
    obtain rfl : tokens.token Env.calm admin 0 = token := TokenCall.verify.inj hcall
    rw [TokenService.cut_token] at hcut
    refine ⟨y, List.mem_singleton_self y, admin, by rw [← hy], ?_⟩
    rw [← hy]
    exact (Prod.mk.inj (Option.some.inj hcut)).1.symm
  · have hlen := congrArg List.length hrun
    simp only [List.length_cons, List.length_nil, List.length_append] at hlen
    omega

end Sample

theorem token_integrity_issued :
    ∃ y ∈ (Session.run (TokenCall.run Sample.tokens) Env.calm Sample.tokenSession ⟨0, Store.empty⟩).take 1,
      ∃ claims, y.call = .issue claims ∧ claims.role = .admin := by
  have hread : Sample.tokens.verifyAt Env.calm 1 (Sample.tokens.token Env.calm Sample.admin 0) = .ok Sample.admin := by
    rw [TokenService.verifyAt_token]
    decide
  have hcalls := token_integrity Sample.tokens Env.calm ⟨0, Store.empty⟩ Sample.tokenSession
    Sample.tokenSession_unforgeable
  cases hrun : Session.run (TokenCall.run Sample.tokens) Env.calm Sample.tokenSession ⟨0, Store.empty⟩ with
  | nil => cases hrun
  | cons y xs =>
    cases xs with
    | nil => cases (List.cons.inj hrun).2
    | cons x post =>
      obtain ⟨rfl, hrun'⟩ := List.cons.inj hrun
      obtain ⟨hx, -⟩ := List.cons.inj hrun'
      have hcall : x.call = .verify (Sample.tokens.token Env.calm Sample.admin 0) := by rw [← hx]
      have htick : x.before.tick = 1 := by rw [← hx]; rfl
      have hanswer : x.answer = .ok (.inr Sample.admin) := by
        have hmem : x ∈ Session.run (TokenCall.run Sample.tokens) Env.calm Sample.tokenSession ⟨0, Store.empty⟩ := by
          simp [hrun]
        rw [TokenService.answer_verify hmem hcall, htick]
        exact congrArg (Except.map Sum.inr) hread
      obtain ⟨y, hy, claims, hissue, _, _, hrole, _⟩ := hcalls.1 [_] x post _ Sample.admin hrun hcall hanswer
      exact ⟨y, hy, claims, hissue, hrole.symm⟩

/-- Claims with an API key in them come back without it. -/
theorem token_drops_api_key :
    let claims := { Sample.admin with apiKeyID := some 9 }
    '|' ∉ claims.role.toList ∧ (Time.unix 0 : Int) ≤ Sample.tokens.expiry 0 ∧
      Sample.tokens.verifyAt Env.calm 0 (Sample.tokens.token Env.calm claims 0) ≠ .ok claims := by
  intro claims
  refine ⟨by decide, by decide, ?_⟩
  rw [TokenService.verifyAt_token]
  decide

end EdgeFabric
