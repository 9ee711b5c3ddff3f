/-
The tables of tenants, users, API keys and audit events
(`internal/storage/sqlite`). Each function is one database call. Emails, tenant
names and slugs are unique by the type of the store.
-/
import EdgeFabric.Store.Rows
import EdgeFabric.Lib.Text

namespace EdgeFabric

namespace Store

/-! ## Tenants -/

def createTenant (t : Tenant) (now : Time) (s : Store) : Except Err (Tenant × Store) :=
  let t := { t with createdAt := now, updatedAt := now, status := if t.status = "" then .active else t.status }
  let dup := Err.detail .alreadyExists "tenant name or slug already exists"
  if hname : ∀ b ∈ s.tenants.rows, b.name ≠ t.name then
    if hslug : ∀ b ∈ s.tenants.rows, b.slug ≠ t.slug then
      match h : s.tenants.insert t with
      | some tenants => .ok (t, { s with
          tenants, tenantNames := s.tenantNames.insert hname h, tenantSlugs := s.tenantSlugs.insert hslug h })
      | none => .error dup
    else .error dup
  else .error dup

def getTenant (id : ID) (s : Store) : Except Err Tenant := selectRow id s.tenants

def listTenants (p : ListParams) (s : Store) : Except Err (List Tenant × Nat) :=
  .ok (p.page (newestFirst Tenant.createdAt s.tenants.rows), s.tenants.rows.length)

/-- Writes every column but the identifier and `created_at`. -/
def updateTenant (t : Tenant) (now : Time) (s : Store) : Except Err (Tenant × Store) :=
  let t := { t with updatedAt := now }
  let dup := Err.detail .alreadyExists "tenant name or slug already exists"
  match s.tenants.find t.id with
  | none => .error .notFound
  | some old =>
    let new := { t with createdAt := old.createdAt }
    if hname : ∀ b ∈ s.tenants.rows, b.id ≠ new.id → b.name ≠ new.name then
      if hslug : ∀ b ∈ s.tenants.rows, b.id ≠ new.id → b.slug ≠ new.slug then
        match h : s.tenants.set new with
        | some tenants => .ok (t, { s with
            tenants, tenantNames := s.tenantNames.set hname h, tenantSlugs := s.tenantSlugs.set hslug h })
        | none => .error .notFound
      else .error dup
    else .error dup

/-! ## Users -/

def createUser (u : User) (now : Time) (s : Store) : Except Err (User × Store) :=
  let u := { u with createdAt := now, updatedAt := now, status := if u.status = "" then .active else u.status }
  let dup := Err.detail .alreadyExists "email already exists"
  if hemail : ∀ b ∈ s.users.rows, b.email ≠ u.email then
    match h : s.users.insert u with
    | some users => do
      requireRow? "insert user" u.tenantID s.tenants
      return (u, { s with users, userEmails := s.userEmails.insert hemail h })
    | none => .error dup
  else .error dup

def getUser (id : ID) (s : Store) : Except Err User := selectRow id s.users

def getUserByEmail (email : String) (s : Store) : Except Err User :=
  match s.users.rows.find? (·.email = email) with
  | some u => .ok u
  | none => .error .notFound

def listUsers (tenantID : Option ID) (p : ListParams) (s : Store) : Except Err (List User × Nat) :=
  let rows := match tenantID with
    | some t => s.users.rows.filter fun u => u.tenantID = some t
    | none => s.users.rows
  .ok (p.page (newestFirst User.createdAt rows), rows.length)

/-- Writes every column but the identifier and `created_at`. -/
def updateUser (u : User) (now : Time) (s : Store) : Except Err (User × Store) :=
  let u := { u with updatedAt := now }
  match s.users.find u.id with
  | none => .error .notFound
  | some old =>
    let new := { u with createdAt := old.createdAt }
    if hemail : ∀ b ∈ s.users.rows, b.id ≠ new.id → b.email ≠ new.email then
      match h : s.users.set new with
      | some users => do
        requireRow? "update user" u.tenantID s.tenants
        return (u, { s with users, userEmails := s.userEmails.set hemail h })
      | none => .error .notFound
    else .error (.detail .alreadyExists "email already exists")

/-- API keys of the user forbid the delete. -/
def deleteUser (id : ID) (s : Store) : Except Err (Unit × Store) :=
  match h : s.users.erase id with
  | some users => do
    forbidRows "delete user" (s.apiKeys.rows.any (·.userID = id))
    return ((), { s with users, userEmails := s.userEmails.erase h })
  | none => .error .notFound

/-! ## API keys -/

def createAPIKey (k : APIKey) (now : Time) (s : Store) : Except Err (APIKey × Store) := do
  let k := { k with createdAt := now }
  let apiKeys ← insertRow (.under "insert api key" (.text "UNIQUE constraint failed")) k s.apiKeys
  requireRow "insert api key" k.tenantID s.tenants
  requireRow "insert api key" k.userID s.users
  return (k, { s with apiKeys })

/-- There is no unique constraint on the prefix and no `ORDER BY`: of several rows
any one may be found. -/
def getAPIKeyByPrefix (pfx : List UInt8) (pick : Nat) (s : Store) : Except Err APIKey :=
  let rows := s.apiKeys.rows.filter fun k => Text.bytes k.keyPrefix = pfx
  match rows[pick % rows.length]? with
  | some k => .ok k
  | none => .error .notFound

def listAPIKeys (tenantID : ID) (p : ListParams) (s : Store) : Except Err (List APIKey × Nat) :=
  let rows := s.apiKeys.rows.filter (·.tenantID = tenantID)
  .ok (p.page (newestFirst APIKey.createdAt rows), rows.length)

def deleteAPIKey (id : ID) (s : Store) : Except Err (Unit × Store) := do
  let apiKeys ← deleteRow id s.apiKeys
  return ((), { s with apiKeys })

def updateAPIKeyLastUsed (id : ID) (now : Time) (s : Store) : Except Err (Unit × Store) := do
  let apiKeys ← updateRow id (fun k => { k with lastUsedAt := some now }) s.apiKeys
  return ((), { s with apiKeys })

/-! ## Audit events -/

def createAuditEvent (e : AuditEvent) (s : Store) : Except Err (Unit × Store) := do
  let auditEvents ← insertRow (.under "insert audit event" (.text "UNIQUE constraint failed")) e s.auditEvents
  return ((), { s with auditEvents })

def listAuditEvents (tenantID : Option ID) (p : ListParams) (s : Store) : Except Err (List AuditEvent × Nat) :=
  let rows := match tenantID with
    | some t => s.auditEvents.rows.filter fun e => e.tenantID = some t
    | none => s.auditEvents.rows
  .ok (p.page (newestFirst AuditEvent.timestamp rows), rows.length)

/-! ## What the calls do -/

section
variable {now : Time} {s s' : Store}

def OnlyTenants (s s' : Store) : Prop :=
  s' = { s with tenants := s'.tenants, tenantNames := s'.tenantNames, tenantSlugs := s'.tenantSlugs }

theorem createTenant_ok {t t' : Tenant} (h : s.createTenant t now = .ok (t', s')) :
    s.tenants.insert t' = some s'.tenants ∧ OnlyTenants s s' := by
  simp only [createTenant] at h
  split at h
  · split at h
    · split at h
      · next tenants hi =>
        cases h
        exact ⟨hi, rfl⟩
      · cases h
    · cases h
  · cases h

theorem updateTenant_ok {t t' : Tenant} (h : s.updateTenant t now = .ok (t', s')) :
    (∃ old, s.tenants.find t.id = some old ∧
      s.tenants.set { t' with createdAt := old.createdAt } = some s'.tenants) ∧ OnlyTenants s s' := by
  simp only [updateTenant] at h
  split at h
  · cases h
  · next old hold =>
    split at h
    · split at h
      · split at h
        · next tenants hset =>
          cases h
          exact ⟨⟨old, hold, hset⟩, rfl⟩
        · cases h
      · cases h
    · cases h

def OnlyUsers (s s' : Store) : Prop := s' = { s with users := s'.users, userEmails := s'.userEmails }

theorem createUser_ok {u u' : User} (h : s.createUser u now = .ok (u', s')) :
    u' = { u with createdAt := now, updatedAt := now, status := if u.status = "" then .active else u.status } ∧
      s.users.insert u' = some s'.users ∧ OnlyUsers s s' := by
  simp only [createUser] at h
  split at h
  · split at h
    · next users hi =>
      obtain ⟨_, _, h⟩ := bind_ok.mp h
      cases h
      exact ⟨rfl, hi, rfl⟩
    · cases h
  · cases h

theorem getUser_ok {id : ID} {u : User} (h : s.getUser id = .ok u) : u ∈ s.users ∧ u.id = id :=
  Table.find_eq_some.mp (selectRow_ok.mp h)

theorem getUserByEmail_ok {email : String} {u : User} (h : s.getUserByEmail email = .ok u) :
    u ∈ s.users ∧ u.email = email := by
  unfold getUserByEmail at h
  split at h
  · next b hb =>
    cases h
    exact ⟨List.mem_of_find?_eq_some hb, by simpa using List.find?_some hb⟩
  · cases h

theorem listUsers_ok {tenantID : Option ID} {p : ListParams} {us : List User} {total : Nat}
    (h : s.listUsers tenantID p = .ok (us, total)) :
    ∀ u ∈ us, u ∈ s.users ∧ ∀ t, tenantID = some t → u.tenantID = some t := by
  simp only [listUsers, Except.ok.injEq, Prod.mk.injEq] at h
  obtain ⟨rfl, rfl⟩ := h
  intro u hu
  have hu := mem_newestFirst.mp (ListParams.mem_of_mem_page hu)
  split at hu
  · next t =>
    obtain ⟨hm, ht⟩ := List.mem_filter.mp hu
    refine ⟨hm, ?_⟩
    rintro t' ⟨⟩
    exact of_decide_eq_true ht
  · exact ⟨hu, by simp⟩

theorem updateUser_ok {u u' : User} (h : s.updateUser u now = .ok (u', s')) :
    u' = { u with updatedAt := now } ∧ (∃ old, s.users.find u.id = some old ∧
      s.users.set { u' with createdAt := old.createdAt } = some s'.users) ∧ OnlyUsers s s' := by
  simp only [updateUser] at h
  split at h
  · cases h
  · next old hold =>
    split at h
    · split at h
      · next users hset =>
        obtain ⟨_, _, h⟩ := bind_ok.mp h
        cases h
        exact ⟨rfl, ⟨old, hold, hset⟩, rfl⟩
      · cases h
    · cases h

theorem deleteUser_ok {id : ID} {u : Unit} (h : s.deleteUser id = .ok (u, s')) :
    s.users.erase id = some s'.users ∧ OnlyUsers s s' := by
  unfold deleteUser at h
  split at h
  · next users he =>
    obtain ⟨_, _, h⟩ := bind_ok.mp h
    cases h
    exact ⟨he, rfl⟩
  · cases h

theorem createAPIKey_ok {k k' : APIKey} (h : s.createAPIKey k now = .ok (k', s')) :
    k' = { k with createdAt := now } ∧ s.apiKeys.insert k' = some s'.apiKeys ∧
      s' = { s with apiKeys := s'.apiKeys } := by
  simp only [createAPIKey, bind_ok, insertRow_ok] at h
  obtain ⟨t, ht, _, _, _, _, h⟩ := h
  cases h
  exact ⟨rfl, ht, rfl⟩

theorem getAPIKeyByPrefix_ok {pfx : List UInt8} {pick : Nat} {k : APIKey}
    (h : s.getAPIKeyByPrefix pfx pick = .ok k) : k ∈ s.apiKeys ∧ Text.bytes k.keyPrefix = pfx := by
  simp only [getAPIKeyByPrefix] at h
  split at h
  · next b hb =>
    cases h
    simpa [Table.mem_def] using List.mem_filter.mp (List.mem_of_getElem? hb)
  · cases h

theorem listAPIKeys_ok {tenantID : ID} {p : ListParams} {page : List APIKey × Nat}
    (h : s.listAPIKeys tenantID p = .ok page) : ∀ k ∈ page.1, k.tenantID = tenantID := by
  cases h
  intro k hk
  have hk := List.mem_filter.mp (mem_newestFirst.mp (ListParams.mem_of_mem_page hk))
  exact of_decide_eq_true hk.2

theorem deleteAPIKey_ok {id : ID} {u : Unit} (h : s.deleteAPIKey id = .ok (u, s')) :
    s.apiKeys.erase id = some s'.apiKeys ∧ s' = { s with apiKeys := s'.apiKeys } := by
  simp only [deleteAPIKey, bind_ok, deleteRow_ok] at h
  obtain ⟨t, ht, h⟩ := h
  cases h
  exact ⟨ht, rfl⟩

theorem updateAPIKeyLastUsed_ok {id : ID} {u : Unit} (h : s.updateAPIKeyLastUsed id now = .ok (u, s')) :
    (∃ k, s.apiKeys.find id = some k ∧ s.apiKeys.set { k with lastUsedAt := some now } = some s'.apiKeys) ∧
      s' = { s with apiKeys := s'.apiKeys } := by
  obtain ⟨t, ht, h⟩ := bind_ok.mp h
  cases h
  exact ⟨updateRow_ok ht, rfl⟩

theorem createAuditEvent_ok {e : AuditEvent} {u : Unit} (h : s.createAuditEvent e = .ok (u, s')) :
    s.auditEvents.insert e = some s'.auditEvents ∧ s' = { s with auditEvents := s'.auditEvents } := by
  simp only [createAuditEvent, bind_ok, insertRow_ok] at h
  obtain ⟨t, ht, h⟩ := h
  cases h
  exact ⟨ht, rfl⟩

/-! ### The accounts -/

instance {t : Tenant} : KeepsAccounts (createTenant t) where
  keeps h := by rw [(createTenant_ok h).2, accounts, accounts]

instance {t : Tenant} : KeepsAccounts (updateTenant t) where
  keeps h := by rw [(updateTenant_ok h).2, accounts, accounts]

instance {e : AuditEvent} : KeepsAccounts fun _ => createAuditEvent e where
  keeps h := by rw [(createAuditEvent_ok h).2, accounts, accounts]

end

end Store

end EdgeFabric
