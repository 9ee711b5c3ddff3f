/-
Authentication (`internal/auth/auth.go`): passwords, one-time codes and API
keys, each checked against the user or the key row that is stored.
-/
import EdgeFabric.Store.Tenancy
import EdgeFabric.Lib.Base64

namespace EdgeFabric

def Reads.orText {α : Type} (msg : String) (q : Reads α) : Reads α := q.mapError fun _ => .text msg

/-- `bcrypt.CompareHashAndPassword`. -/
def compareHash (hash password : String) : Reads Bool := ask .library fun v _ => .ok (v.bcryptMatches hash password)

/-- `bcrypt.GenerateFromPassword`. -/
def generateHash (password : String) : Reads String := ask .library fun v t => orErr (v.bcrypt t password)

/-- `totp.Validate`. -/
def validateTOTP (code secret : String) : Reads Bool := ask .clock fun v t => .ok (v.totpValidate t code secret)

section
variable {v : Env} {s : Store} {E : Err → Store → Prop}

theorem Reads.orText_ok {α : Type} {msg : String} {q : Reads α} {a : α} {w w' : World} :
    (q.orText msg).1.exec v w = (.ok a, w') ↔ q.1.exec v w = (.ok a, w') := by
  rw [Reads.orText, Query.mapError, Prog.exec_mapError]
  rcases q.1.exec v w with ⟨e | b, w₁⟩ <;> simp [Except.mapError]

theorem compareHash_ends {hash password : String} {Q : Bool → Store → Prop} (h : Q (v.bcryptMatches hash password) s) :
    Ends v s (compareHash hash password).1 Q E := by
  refine .of_exec fun w hw r w' hx => ?_
  cases hx
  rw [World.next_store, hw]
  exact h

theorem generateHash_ends {password : String} {Q : String → Store → Prop}
    (hok : ∀ t hash, v.bcrypt t password = .ok hash → Q hash s) (herr : ∀ e, E e s) :
    Ends v s (generateHash password).1 Q E :=
  Ends.ask (fun t hash h => hok t hash (orErr_ok.mp h)) herr

end

namespace AuthService

def hashPassword (password : String) : Reads String := (generateHash password).under "hash password"

/-- The check of `AuthenticatePassword`: the user of that email, active, with that
password. -/
def checkPassword (email password : String) : Reads User := do
  let user ← (read (Store.getUserByEmail email)).orText "invalid credentials"
  if user.status ≠ .active then Query.fail (.text "account is disabled")
  else
    if ← compareHash user.passwordHash password then return user
    else Query.fail (.text "invalid credentials")

/-- `AuthenticatePassword`. Recording the login is best-effort. -/
def authenticatePassword (email password : String) : M User := do
  let user ← checkPassword email password
  let t ← now
  let user := { user with lastLoginAt := some t }
  let _ ← (write (Store.updateUser user)).attempt
  return user

def authenticateTOTP (userID : ID) (code : String) : Reads Unit := do
  let user ← (read (Store.getUser userID)).orText "user not found"
  if user.totpEnabled = false ∨ user.totpSecret = "" then Query.fail (.text "TOTP not enabled for this user")
  else
    let secret ← (decryptSecret user.totpSecret).under "failed to decrypt TOTP secret"
    if ← validateTOTP code secret then return ()
    else Query.fail (.text "invalid TOTP code")

/-- The key without the `ef_` in front (`strings.TrimPrefix`). -/
def rawKeyOf (key : String) : String :=
  match Text.strip "ef_".toList key.toList with
  | some raw => String.ofList raw
  | none => key

theorem rawKeyOf_append (raw : String) : rawKeyOf ("ef_" ++ raw) = raw := by
  have h : Text.strip "ef_".toList ("ef_" ++ raw).toList = some raw.toList :=
    Text.strip_eq_some.mpr String.toList_append
  simp only [rawKeyOf, h, String.ofList_toList]

/-- The check of `AuthenticateAPIKey`: the row found by the first eight bytes, not
expired, with the hash of the whole key. -/
def checkAPIKey (key : String) : Reads APIKey := do
  let raw := rawKeyOf key
  if (Text.bytes raw).length < 8 then Query.fail (.text "invalid API key format")
  else
    let apiKey ← (readFirst (Store.getAPIKeyByPrefix ((Text.bytes raw).take 8))).orText "invalid API key"
    let t ← now
    if apiKey.expiresAt.any (· < t) then Query.fail (.text "API key has expired")
    else
      if ← compareHash apiKey.keyHash raw then return apiKey
      else Query.fail (.text "invalid API key")

/-- `AuthenticateAPIKey`. Recording the use is best-effort. -/
def authenticateAPIKey (key : String) : M APIKey := do
  let apiKey ← checkAPIKey key
  let _ ← (write (Store.updateAPIKeyLastUsed apiKey.id)).attempt
  return apiKey

/-- `EnrollTOTP`: the secret is stored, the second factor not yet switched on. -/
def enrollTOTP (issuer : String) (userID : ID) : M (String × String) := do
  let user ← (read (Store.getUser userID)).orText "user not found"
  let (secret, url) ←
    (ask .random fun v t => orErr (v.totpGenerate t issuer user.email) : Reads _).under "generate TOTP key"
  let encrypted ← (encryptSecret secret).under "encrypt TOTP secret"
  let _ ← (write (Store.updateUser { user with totpSecret := encrypted })).under "save TOTP secret"
  return (secret, url)

/-- The check of `ConfirmTOTP`. -/
def checkEnrolledTOTP (userID : ID) (code : String) : Reads User := do
  let user ← (read (Store.getUser userID)).orText "user not found"
  if user.totpSecret = "" then Query.fail (.text "TOTP not enrolled — call EnrollTOTP first")
  else
    let secret ← (decryptSecret user.totpSecret).under "decrypt TOTP secret"
    if ← validateTOTP code secret then return user
    else Query.fail (.text "invalid TOTP code")

def confirmTOTP (userID : ID) (code : String) : M Unit := do
  let user ← checkEnrolledTOTP userID code
  let _ ← (write (Store.updateUser { user with totpEnabled := true })).under "enable TOTP"
  return ()

/-- `GenerateAPIKey`: the key as the caller sees it, once, and the row. -/
def generateAPIKey (tenantID userID : ID) (name : String) (role : Role) : M (String × APIKey) := do
  let keyBytes ← (ask .random fun v t => orErr (v.keyBytes t) : Reads _).under "generate random key"
  let rawKey := Base64.encode keyBytes
  let hash ← (generateHash (String.ofList rawKey)).under "hash API key"
  let id ← newID
  let apiKey ← (write (Store.createAPIKey
    { id, tenantID, userID, name, keyHash := hash, keyPrefix := String.ofList (rawKey.take 8), role
      expiresAt := none, lastUsedAt := none, createdAt := 0 })).under "create API key"
  return ("ef_" ++ String.ofList rawKey, apiKey)

/-! ## What the calls do -/

section
variable {v : Env} {s : Store}

theorem checkPassword_ends (email password : String) :
    Ends v s (checkPassword email password).1
      (fun u s' => s' = s ∧ u ∈ s.users ∧ u.status = .active ∧ u.email = email ∧
        v.bcryptMatches u.passwordHash password = true)
      fun _ s' => s' = s := by
  refine .bind (.mapError (Ends.read (fun u hu => ?_) fun e => rfl))
  obtain ⟨hmem, hemail⟩ := Store.getUserByEmail_ok hu
  dsimp only
  split
  · exact .fail rfl
  · next hactive =>
    refine .bind (compareHash_ends ?_)
    cases hb : v.bcryptMatches u.passwordHash password with
    | true => exact .pure ⟨rfl, hmem, not_not.mp hactive, hemail, hb⟩
    | false => exact .fail rfl

theorem updateUser_writes {u u₁ u' : User} {id : ID} {t : Time} {s' : Store} (hu : s.getUser id = .ok u)
    (h : s.updateUser u₁ t = .ok (u', s')) (hid : u₁.id = u.id) (hcreated : u₁.createdAt = u.createdAt) :
    s.users.set { u₁ with updatedAt := t } = some s'.users ∧ Store.OnlyUsers s s' := by
  obtain ⟨rfl, ⟨old, hold, hset⟩, honly⟩ := Store.updateUser_ok h
  rw [hid] at hold
  obtain rfl := selectRow_unique hu hold
  rw [← hcreated] at hset
  exact ⟨hset, honly⟩

theorem authenticatePassword_ends (email password : String) :
    Ends v s (authenticatePassword email password)
      (fun u s' => ∃ u₀ ∈ s.users, u₀.status = .active ∧ u₀.email = email ∧
        v.bcryptMatches u₀.passwordHash password = true ∧ u = { u₀ with lastLoginAt := u.lastLoginAt } ∧
        (s' = s ∨ Store.OnlyUsers s s' ∧ ∃ t, s.users.set { u with updatedAt := t } = some s'.users))
      fun _ s' => s' = s := by
  refine .andThen (checkPassword_ends email password) ?_
  intro u s' h
  obtain ⟨rfl, hmem, hactive, hemail, hpass⟩ := h
  refine .bind (Ends.now fun t => .bind (.attempt (Ends.write ?_ ?_)))
  · intro t' u' s₁ h
    have hrow : s'.getUser u.id = .ok u := selectRow_ok.mpr (Table.find_eq_some.mpr ⟨hmem, rfl⟩)
    obtain ⟨hset, honly⟩ := updateUser_writes hrow h rfl rfl
    exact .pure ⟨u, hmem, hactive, hemail, hpass, rfl, .inr ⟨honly, t', hset⟩⟩
  · intro e
    exact .pure ⟨u, hmem, hactive, hemail, hpass, rfl, .inl rfl⟩

def CodeAccepted (v : Env) (u : User) (code : String) : Prop :=
  ∃ secret t, v.decrypt u.totpSecret = .ok secret ∧ v.totpValidate t code secret = true

theorem checkCode_ends {α : Type} {u : User} {code context : String} {Q : α → Store → Prop} {a : α}
    (hok : CodeAccepted v u code → Q a s) :
    Ends v s (do
      let secret ← (decryptSecret u.totpSecret).under context
      if ← validateTOTP code secret then return a else Query.fail (.text "invalid TOTP code") : Reads α).1
      Q fun _ s' => s' = s := by
  refine .bind (.mapError (Ends.ask (fun _ secret hsecret => ?_) fun _ => rfl))
  refine .bind (Ends.ask (fun t b hb => ?_) fun _ => rfl)
  cases b with
  | true => exact .pure (hok ⟨secret, t, orErr_ok.mp hsecret, Except.ok.inj hb⟩)
  | false => exact .fail rfl

theorem authenticateTOTP_ends (userID : ID) (code : String) :
    Ends v s (authenticateTOTP userID code).1
      (fun _ s' => s' = s ∧ ∃ u, s.users.find userID = some u ∧ u.totpEnabled = true ∧ CodeAccepted v u code)
      fun _ s' => s' = s := by
  refine .bind (.mapError (Ends.read (fun u hu => ?_) fun e => rfl))
  dsimp only
  split
  · exact .fail rfl
  · next hoff =>
    have hon : u.totpEnabled = true := by
      cases h : u.totpEnabled with
      | true => rfl
      | false => exact absurd (.inl h) hoff
    exact checkCode_ends fun hcode => ⟨rfl, u, selectRow_ok.mp hu, hon, hcode⟩

theorem authenticateTOTP_exec {w w' : World} {userID : ID} {code : String} {u : Unit}
    (h : (authenticateTOTP userID code).1.exec v w = (.ok u, w')) :
    ∃ u secret, w.store.users.find userID = some u ∧ v.decrypt u.totpSecret = .ok secret ∧
      v.totpValidate (w.tick + 2) code secret = true := by
  unfold authenticateTOTP at h
  rw [Query.bind_val, Prog.exec_bind_ok] at h
  obtain ⟨user, w₁, hread, h⟩ := h
  obtain ⟨hget, rfl⟩ := Prod.mk.inj (Reads.orText_ok.mp hread)
  split at h
  · cases h
  · rw [Query.bind_val, Prog.exec_bind_ok] at h
    obtain ⟨secret, w₂, hdecrypt, h⟩ := h
    obtain ⟨hsecret, rfl⟩ := Prod.mk.inj (Reads.under_ok.mp hdecrypt)
    rw [Query.bind_val, Prog.exec_bind_ok] at h
    obtain ⟨valid, w₃, hvalidate, h⟩ := h
    obtain ⟨hvalid, rfl⟩ := Prod.mk.inj hvalidate
    refine ⟨user, secret, selectRow_ok.mp (dbAnswer_ok hget), orErr_ok.mp hsecret, ?_⟩
    split at h
    · next htrue =>
      rw [htrue] at hvalid
      exact Except.ok.inj hvalid
    · cases h

theorem checkAPIKey_ends (key : String) :
    Ends v s (checkAPIKey key).1
      (fun k s' => s' = s ∧ k ∈ s.apiKeys ∧ v.bcryptMatches k.keyHash (rawKeyOf key) = true) fun _ s' => s' = s := by
  unfold checkAPIKey
  dsimp only
  split
  · exact .fail rfl
  · refine .bind (.mapError (Ends.readFirst (fun n k hk => ?_) fun e => rfl))
    have hk := Store.getAPIKeyByPrefix_ok hk
    refine .bind (Ends.now fun t => ?_)
    dsimp only
    split
    · exact .fail rfl
    · refine .bind (compareHash_ends ?_)
      cases hb : v.bcryptMatches k.keyHash (rawKeyOf key) with
      | true => exact .pure ⟨rfl, hk.1, hb⟩
      | false => exact .fail rfl

theorem authenticateAPIKey_ends (key : String) :
    Ends v s (authenticateAPIKey key)
      (fun k s' => k ∈ s.apiKeys ∧ v.bcryptMatches k.keyHash (rawKeyOf key) = true ∧
        (s' = s ∨ s' = { s with apiKeys := s'.apiKeys } ∧
          ∃ t, s.apiKeys.set { k with lastUsedAt := some t } = some s'.apiKeys))
      fun _ s' => s' = s := by
  refine .andThen (checkAPIKey_ends key) ?_
  rintro k s' ⟨rfl, hmem, hmatch⟩
  refine .bind (.attempt (Ends.write ?_ fun e => .pure ⟨hmem, hmatch, .inl rfl⟩))
  intro t u s₁ h
  obtain ⟨⟨k', hk', hset⟩, honly⟩ := Store.updateAPIKeyLastUsed_ok h
  obtain ⟨hmem', hid⟩ := Table.find_eq_some.mp hk'
  cases Table.key_inj hmem' hmem hid
  exact .pure ⟨hmem, hmatch, .inr ⟨honly, t, hset⟩⟩

theorem enrollTOTP_ends (issuer : String) (userID : ID) :
    Ends v s (enrollTOTP issuer userID)
      (fun _ s' => ∃ u encrypted t, s.users.find userID = some u ∧
        s.users.set { u with totpSecret := encrypted, updatedAt := t } = some s'.users ∧ Store.OnlyUsers s s')
      fun _ s' => s' = s := by
  refine .bind (.mapError (Ends.read (fun u hu => ?_) fun e => rfl))
  refine .bind (.mapError (Ends.reads (fun key => ?_) fun e => rfl))
  refine .bind (.mapError (Ends.reads (fun enc => ?_) fun e => rfl))
  refine .bind (.mapError (Ends.write ?_ fun e => rfl))
  intro t u' s₁ h
  obtain ⟨hset, honly⟩ := updateUser_writes hu h rfl rfl
  exact .pure ⟨u, enc, t, selectRow_ok.mp hu, hset, honly⟩

theorem checkEnrolledTOTP_ends (userID : ID) (code : String) :
    Ends v s (checkEnrolledTOTP userID code).1
      (fun u s' => s' = s ∧ s.getUser userID = .ok u ∧ CodeAccepted v u code) fun _ s' => s' = s := by
  refine .bind (.mapError (Ends.read (fun u hu => ?_) fun e => rfl))
  dsimp only
  split
  · exact .fail rfl
  · exact checkCode_ends fun hcode => ⟨rfl, hu, hcode⟩

theorem confirmTOTP_ends (userID : ID) (code : String) :
    Ends v s (confirmTOTP userID code)
      (fun _ s' => ∃ u t, s.users.find userID = some u ∧ CodeAccepted v u code ∧
        s.users.set { u with totpEnabled := true, updatedAt := t } = some s'.users ∧ Store.OnlyUsers s s')
      fun _ s' => s' = s := by
  refine .andThen (checkEnrolledTOTP_ends userID code) ?_
  rintro u s' ⟨rfl, hu, hcode⟩
  refine .bind (.mapError (Ends.write ?_ fun e => rfl))
  intro t u' s₁ h
  obtain ⟨hset, honly⟩ := updateUser_writes hu h rfl rfl
  exact .pure ⟨u, t, selectRow_ok.mp hu, hcode, hset, honly⟩

theorem generateAPIKey_ends (tenantID userID : ID) (name : String) (role : Role) :
    Ends v s (generateAPIKey tenantID userID name role)
      (fun r s' => r.2.tenantID = tenantID ∧ r.2.userID = userID ∧ r.2.role = role ∧
        (∃ t, v.bcrypt t (rawKeyOf r.1) = .ok r.2.keyHash) ∧
        s.apiKeys.insert r.2 = some s'.apiKeys ∧ s' = { s with apiKeys := s'.apiKeys })
      fun _ s' => s' = s := by
  refine .bind (.mapError (Ends.reads (fun kb => ?_) fun e => rfl))
  refine .bind (.mapError (generateHash_ends (fun t hash hhash => ?_) fun e => rfl))
  refine .bind (Ends.newID fun id => .bind (.mapError (Ends.write ?_ fun e => rfl)))
  intro t' k s₁ h
  obtain ⟨rfl, hins, honly⟩ := Store.createAPIKey_ok h
  refine .pure ⟨rfl, rfl, rfl, ⟨t, ?_⟩, hins, honly⟩
  rw [rawKeyOf_append]
  exact hhash

end

end AuthService

end EdgeFabric
