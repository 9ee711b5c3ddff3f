/-
Session tokens (`internal/auth/token.go`): the claims as text, joined by bars,
base64-encoded, and signed. `verifyAt_token` says what a token of the service
is worth later: its claims, until it expires, and nothing at all if the role it
was issued for holds a bar.
-/
import EdgeFabric.Rbac
import EdgeFabric.Store.Fleet
import EdgeFabric.Lib.Base64
import EdgeFabric.Lib.Text

namespace EdgeFabric

structure TokenService where
  signingKey : List UInt8
  /-- a `time.Duration` in nanoseconds; nothing keeps it from being negative -/
  ttl : Int
  deriving DecidableEq, Repr

namespace TokenService

def tenantText : Option ID → List Char
  | some t => Uuid.text t
  | none => []

/-- The field that says whether the second factor is still missing. -/
def mfaText (pending : Bool) : List Char := if pending then ['1'] else ['0']

/-- When a token that is issued at `now` expires, in seconds since the epoch. -/
def expiry (ts : TokenService) (now : Time) : Int := ((now : Int) + ts.ttl) / 1000000000

/-- The fields of the payload, the role and the times of issue and expiry among them. -/
def fields (ts : TokenService) (claims : Claims) (now : Time) : List (List Char) :=
  [Uuid.text claims.userID, tenantText claims.tenantID, claims.role.toList, Nat.toDigits 10 (Time.unix now),
    Text.intText (ts.expiry now), mfaText claims.mfaPending]

def payload (ts : TokenService) (claims : Claims) (now : Time) : List Char :=
  Base64.encode (Text.bytes (String.ofList (['|'].intercalate (ts.fields claims now))))

/-- `sign`, of an encoded payload. -/
def sign (ts : TokenService) (v : Env) (payloadB64 : List Char) : List UInt8 :=
  v.hmac ts.signingKey (Text.bytes (String.ofList payloadB64))

/-- The token that `Issue` makes at the time `now`. -/
def token (ts : TokenService) (v : Env) (claims : Claims) (now : Time) : String :=
  String.ofList (ts.payload claims now ++ '.' :: Base64.encode (ts.sign v (ts.payload claims now)))

def issue (ts : TokenService) (claims : Claims) : Reads String :=
  ask .clock fun v t => .ok (ts.token v claims (v.now t))

def parseTenant : List Char → Except Err (Option ID)
  | [] => .ok none
  | cs =>
    match Uuid.parse cs with
    | some t => .ok (some t)
    | none => .error (.text "invalid tenant ID in token")

/-- The claims in the fields of a payload, if it is not expired. A time that a
signed payload holds fits a 64-bit integer. -/
def readClaims (now : Time) (user tenant role issuedAt expiresAt : List Char) (mfaPending : Bool) :
    Except Err Claims := do
  let some userID := Uuid.parse user | .error (.text "invalid user ID in token")
  let tenantID ← parseTenant tenant
  let some _ := Text.scanInt issuedAt | .error (.text "invalid issued time in token")
  let some expiresAt := Text.scanInt expiresAt | .error (.text "invalid expiry time in token")
  if (Time.unix now : Int) > expiresAt then .error (.text "token has expired")
  else return { userID, tenantID, role := String.ofList role, mfaPending }

/-- The claims of a payload: five fields in old tokens, six in new ones. -/
def claimsOf (now : Time) : List (List Char) → Except Err Claims
  | [user, tenant, role, issuedAt, expiresAt] => readClaims now user tenant role issuedAt expiresAt false
  | [user, tenant, role, issuedAt, expiresAt, mfa] => readClaims now user tenant role issuedAt expiresAt (mfa = ['1'])
  | _ => .error (.text "invalid token payload")

/-- What `Verify` answers at the time `now`. No payload is signed that is not UTF-8. -/
def verifyAt (ts : TokenService) (v : Env) (now : Time) (token : String) : Except Err Claims := do
  let some (payloadB64, sigB64) := Text.cut '.' token.toList | .error (.text "invalid token format")
  let some sig := Base64.decode sigB64 | .error (.text "invalid token signature encoding")
  if sig ≠ ts.sign v payloadB64 then .error (.text "invalid token signature")
  else
    let some payloadBytes := Base64.decode payloadB64 | .error (.text "invalid token payload encoding")
    let some payload := Text.ofBytes payloadBytes | .error (.text "invalid token payload")
    claimsOf now (payload.toList.splitOn '|')

def verify (ts : TokenService) (token : String) : Reads Claims :=
  ask .clock fun v t => ts.verifyAt v (v.now t) token

theorem issue_ends {ts : TokenService} {v : Env} {s : Store} {claims : Claims} {Q : String → Store → Prop}
    {E : Err → Store → Prop} (h : ∀ t, Q (ts.token v claims t) s) : Ends v s (ts.issue claims).1 Q E := by
  refine .of_exec fun w hw r w' hx => ?_
  cases hx
  rw [World.next_store, hw]
  exact h _

theorem issue_whole {ts : TokenService} {v : Env} {w : World} {claims : Claims} :
    (ts.issue claims).1.Ensures id v w (fun token w' => token = ts.token v claims (v.now w.tick) ∧ w' = w.next)
      fun _ _ => False := by
  refine .of_exec fun w₁ hw r w' hx => ?_
  cases hw
  cases hx
  exact ⟨rfl, rfl⟩

theorem verifyAt_congr {ts ts' : TokenService} (h : ts'.signingKey = ts.signingKey) (v : Env) (now : Time)
    (token : String) : ts'.verifyAt v now token = ts.verifyAt v now token := by
  unfold verifyAt sign
  rw [h]

/-! ## What a token is worth -/

section
variable (ts : TokenService) (v : Env) (claims : Claims) (t now : Time)

theorem cut_token :
    Text.cut '.' (ts.token v claims t).toList =
      some (ts.payload claims t, Base64.encode (ts.sign v (ts.payload claims t))) := by
  have hdot : '.' ∉ ts.payload claims t := fun h => Base64.ne_of_mem_encode h (d := '.') (by decide) rfl
  rw [token, String.toList_ofList, Text.cut_append hdot]

theorem verifyAt_token_eq :
    ts.verifyAt v now (ts.token v claims t) = claimsOf now ((['|'].intercalate (ts.fields claims t)).splitOn '|') := by
  unfold verifyAt
  simp only [cut_token, Base64.decode_encode, ne_eq, not_true, if_false]
  simp only [payload, Base64.decode_encode, Text.ofBytes_bytes, String.toList_ofList]

theorem bar_not_mem_text (id : ID) : '|' ∉ Uuid.text id := by
  intro h
  rcases Uuid.mem_text h with h | h
  · exact absurd h (by decide)
  · exact absurd h (by decide)

theorem bar_not_mem_digits (n : Nat) : '|' ∉ Nat.toDigits 10 n :=
  Digits.not_mem_toDigits (by decide) (by decide) (by decide)

theorem bar_not_mem_intText (n : Int) : '|' ∉ Text.intText n := by
  cases n with
  | ofNat n => exact bar_not_mem_digits n
  | negSucc n =>
    intro h
    rcases List.mem_cons.mp h with h | h
    · exact absurd h (by decide)
    · exact bar_not_mem_digits _ h

theorem bar_not_mem_tenantText (t : Option ID) : '|' ∉ tenantText t := by
  cases t with
  | none => exact List.not_mem_nil
  | some t => exact bar_not_mem_text t

theorem bar_not_mem_mfaText (b : Bool) : '|' ∉ mfaText b := by
  cases b <;> decide

theorem parseTenant_tenantText (t : Option ID) : parseTenant (tenantText t) = .ok t := by
  cases t with
  | none => rfl
  | some t =>
    have hlen := Uuid.length_text t
    have hparse := Uuid.parse_text t
    simp only [tenantText]
    cases h : Uuid.text t with
    | nil =>
      rw [h] at hlen
      cases hlen
    | cons c cs =>
      rw [h] at hparse
      simp only [parseTenant, hparse]

theorem mfaText_eq (b : Bool) : decide (mfaText b = ['1']) = b := by
  cases b <;> rfl

theorem splitOn_fields :
    (['|'].intercalate (ts.fields claims t)).splitOn '|' =
      Uuid.text claims.userID :: tenantText claims.tenantID :: (claims.role.toList.splitOn '|' ++
        [Nat.toDigits 10 (Time.unix t), Text.intText (ts.expiry t), mfaText claims.mfaPending]) := by
  simp only [fields, Text.intercalate_cons_cons, Text.intercalate_singleton, List.splitOn_append_cons_self]
  rw [List.splitOn_eq_singleton (bar_not_mem_text _), List.splitOn_eq_singleton (bar_not_mem_tenantText _),
    List.splitOn_eq_singleton (bar_not_mem_digits _), List.splitOn_eq_singleton (bar_not_mem_intText _),
    List.splitOn_eq_singleton (bar_not_mem_mfaText _)]
  rfl

theorem claimsOf_long {user tenant : List Char} {roles rest : List (List Char)} (h : 2 ≤ roles.length)
    (hrest : rest.length = 3) : claimsOf now (user :: tenant :: (roles ++ rest)) =
      .error (.text "invalid token payload") := by
  unfold claimsOf
  split
  · next heq =>
    have := congrArg List.length heq
    simp only [List.length_cons, List.length_append, List.length_nil] at this
    omega
  · next heq =>
    have := congrArg List.length heq
    simp only [List.length_cons, List.length_append, List.length_nil] at this
    omega
  · rfl

theorem claimsOf_fields :
    claimsOf now (ts.fields claims t) =
      if ts.expiry t < Time.unix now then .error (.text "token has expired")
      else .ok { claims with apiKeyID := none } := by
  simp only [fields, claimsOf, readClaims, Uuid.parse_text, parseTenant_tenantText, Text.scanInt_toDigits,
    Text.scanInt_intText, mfaText_eq, bind, Except.bind, pure, Except.pure, String.ofList_toList, gt_iff_lt]

theorem verifyAt_token :
    ts.verifyAt v now (ts.token v claims t) =
      if '|' ∈ claims.role.toList then .error (.text "invalid token payload")
      else if ts.expiry t < Time.unix now then .error (.text "token has expired")
      else .ok { claims with apiKeyID := none } := by
  rw [verifyAt_token_eq, splitOn_fields]
  by_cases hbar : '|' ∈ claims.role.toList
  · rw [if_pos hbar]
    -- the role is split in two or more, so that there are more than six fields
    obtain ⟨a, b, hab⟩ := List.append_of_mem hbar
    have ha := List.length_pos_of_ne_nil (List.splitOn_ne_nil '|' a)
    have hb := List.length_pos_of_ne_nil (List.splitOn_ne_nil '|' b)
    refine claimsOf_long now ?_ rfl
    rw [hab, List.splitOn_append_cons_self, List.length_append]
    omega
  · rw [if_neg hbar, List.splitOn_eq_singleton hbar, ← claimsOf_fields]
    rfl

theorem token_ne_empty : ts.token v claims t ≠ "" := by
  intro h
  have hlist := congrArg String.toList h
  rw [token, String.toList_ofList] at hlist
  exact List.append_ne_nil_of_right_ne_nil _ (List.cons_ne_nil _ _) hlist

theorem digit_ne_e {id : ID} {c : Char} (h : c ∈ Uuid.text id) :
    c.toNat < 128 ∧ Base64.digit (c.toNat.toUInt8.toNat / 4) ≠ 'e' := by
  have hchar := Uuid.mem_text h
  have hlt : c.toNat < 128 := by
    rcases hchar with rfl | hv
    · decide
    · exact Digits.toNat_lt_of_value hv
  have hall : ∀ n : Fin 128, (Char.ofNat n = '-' ∨ (Digits.value (Char.ofNat n)).isSome) →
      Base64.digit (n.val.toUInt8.toNat / 4) ≠ 'e' := by decide +kernel
  refine ⟨hlt, hall ⟨c.toNat, hlt⟩ ?_⟩
  rwa [Char.ofNat_toNat]

theorem strip_token : Text.strip "ef_".toList (ts.token v claims t).toList = none := by
  have hlen := Uuid.length_text claims.userID
  cases hu : Uuid.text claims.userID with
  | nil =>
    rw [hu] at hlen
    cases hlen
  | cons c cs =>
    have hc : c ∈ Uuid.text claims.userID := hu ▸ List.mem_cons_self
    obtain ⟨hlt, hne⟩ := digit_ne_e hc
    obtain ⟨rest, hrest⟩ := Base64.encode_head c.toNat.toUInt8 (Text.bytes (String.ofList
      (cs ++ '|' :: ['|'].intercalate (ts.fields claims t).tail)))
    have hpayload : ts.payload claims t = Base64.digit (c.toNat.toUInt8.toNat / 4) :: rest := by
      rw [← hrest, ← Text.bytes_cons hlt, payload, fields, Text.intercalate_cons_cons, hu]
      rfl
    simp only [token, String.toList_ofList, hpayload]
    exact if_neg (Ne.symm hne)

end

end TokenService

end EdgeFabric
