/-
The user service (`internal/user`). What it lets into the table of users: the
email and the password are checked, the role is any non-empty text.
-/
import EdgeFabric.Auth.Service

namespace EdgeFabric

namespace UserService

structure CreateRequest where
  tenantID : Option ID
  email : String
  name : String
  password : String
  role : Role
  deriving DecidableEq, Repr

structure UpdateRequest where
  name : Option String := none
  password : Option String := none
  role : Option Role := none
  status : Option UserStatus := none
  deriving DecidableEq, Repr

/-- The checks of `Create`, in their order. -/
def checkCreate (req : CreateRequest) (addressAccepted : Bool) : Except Err Unit :=
  if req.email = "" then .error (.text "email is required")
  else if ¬ addressAccepted then .error (.text "invalid email address")
  else if req.name = "" then .error (.text "name is required")
  else if req.password = "" then .error (.text "password is required")
  else if req.password.utf8ByteSize < 8 then .error (.text "password must be at least 8 characters")
  else if req.role = "" then .error (.text "role is required")
  else if req.role = .superUser ∧ req.tenantID ≠ none then .error (.text "superusers cannot be assigned to a tenant")
  else if req.role ≠ .superUser ∧ req.tenantID = none then
    .error (.text "non-superuser users must be assigned to a tenant")
  else .ok ()

def create (req : CreateRequest) : M User := do
  let email ← toLower req.email
  let req := { req with email := Text.trimSpace email, name := Text.trimSpace req.name }
  let accepted ← parseAddress req.email
  Prog.ofExcept (checkCreate req accepted)
  let hash ← (AuthService.hashPassword req.password).under "hash password"
  let id ← newID
  write (Store.createUser
    { id, tenantID := req.tenantID, email := req.email, name := req.name, passwordHash := hash, totpSecret := ""
      totpEnabled := false, role := req.role, status := .active, lastLoginAt := none, createdAt := 0, updatedAt := 0 })

def get (id : ID) : Reads User := read (Store.getUser id)

def list (tenantID : Option ID) (p : ListParams) : Reads (List User × Nat) := read (Store.listUsers tenantID p.clamp)

def setName (u : User) : Option String → Except Err User
  | none => .ok u
  | some name =>
    let name := Text.trimSpace name
    if name = "" then .error (.text "name cannot be empty") else .ok { u with name }

def setPassword (u : User) : Option String → Reads User
  | none => pure u
  | some password =>
    if password.utf8ByteSize < 8 then Query.fail (.text "password must be at least 8 characters")
    else do return { u with passwordHash := ← (AuthService.hashPassword password).under "hash password" }

def update (id : ID) (req : UpdateRequest) : M User := do
  let u ← read (Store.getUser id)
  let u ← Prog.ofExcept (setName u req.name)
  let u ← setPassword u req.password
  let t ← now
  write (Store.updateUser { u with role := req.role.getD u.role, status := req.status.getD u.status, updatedAt := t })

def delete (id : ID) : M Unit := write fun _ => Store.deleteUser id

/-! ## What the calls do -/

section
variable {v : Env} {s : Store}

theorem checkCreate_ok {req : CreateRequest} {accepted : Bool} {u : Unit} (h : checkCreate req accepted = .ok u) :
    req.role = .superUser ↔ req.tenantID = none := by
  unfold checkCreate at h
  split at h; · cases h
  split at h; · cases h
  split at h; · cases h
  split at h; · cases h
  split at h; · cases h
  split at h; · cases h
  split at h; · cases h
  next hsuper =>
  split at h; · cases h
  next hother =>
  constructor
  · intro hr
    by_contra ht
    exact hsuper ⟨hr, ht⟩
  · intro ht
    by_contra hr
    exact hother ⟨hr, ht⟩

theorem create_ends (req : CreateRequest) :
    Ends v s (create req)
      (fun u s' => u.role = req.role ∧ u.tenantID = req.tenantID ∧ (u.role = .superUser ↔ u.tenantID = none) ∧
        (∃ t, v.bcrypt t req.password = .ok u.passwordHash) ∧ (∃ t, u.id = v.newID t) ∧
        s.users.insert u = some s'.users ∧ Store.OnlyUsers s s')
      fun _ s' => s' = s := by
  refine .bind (Ends.reads (fun email => ?_) fun e => rfl)
  refine .bind (Ends.reads (fun accepted => ?_) fun e => rfl)
  refine .bind (.ofExcept (fun u hu => ?_) fun e he => rfl)
  have hroles := checkCreate_ok hu
  refine .bind (.mapError (.mapError (generateHash_ends (fun t hash hhash => ?_) fun e => rfl)))
  refine .bind (Ends.newID fun n => Ends.write (fun t' u' s₁ h => ?_) fun e => rfl)
  obtain ⟨rfl, hins, honly⟩ := Store.createUser_ok h
  exact ⟨rfl, rfl, hroles, ⟨t, hhash⟩, ⟨n, rfl⟩, hins, honly⟩

structure Updated (v : Env) (req : UpdateRequest) (u u' : User) : Prop where
  id : u'.id = u.id
  tenantID : u'.tenantID = u.tenantID
  email : u'.email = u.email
  role : u'.role = req.role.getD u.role
  status : u'.status = req.status.getD u.status
  totpEnabled : u'.totpEnabled = u.totpEnabled
  password : match req.password with
    | none => u'.passwordHash = u.passwordHash
    | some password => ∃ t, v.bcrypt t password = .ok u'.passwordHash

theorem setName_ok {u u' : User} {name : Option String} (h : setName u name = .ok u') :
    ∃ n, u' = { u with name := n } := by
  unfold setName at h
  split at h
  · cases h
    exact ⟨_, rfl⟩
  · dsimp only at h
    split at h
    · cases h
    · cases h
      exact ⟨_, rfl⟩

theorem setPassword_ends (u : User) (password : Option String) :
    Ends v s (setPassword u password).1
      (fun u' s' => s' = s ∧ ∃ hash, u' = { u with passwordHash := hash } ∧
        match password with
        | none => hash = u.passwordHash
        | some password => ∃ t, v.bcrypt t password = .ok hash)
      fun _ s' => s' = s := by
  cases password with
  | none => exact .pure ⟨rfl, u.passwordHash, rfl, rfl⟩
  | some password =>
    unfold setPassword
    dsimp only
    split
    · exact .fail rfl
    · refine .bind (.mapError (.mapError (generateHash_ends (fun t hash hhash => ?_) fun e => rfl)))
      exact .pure ⟨rfl, hash, rfl, t, hhash⟩

theorem update_ends (id : ID) (req : UpdateRequest) :
    Ends v s (update id req)
      (fun u' s' => ∃ u, s.users.find id = some u ∧ Updated v req u u' ∧ s.users.set u' = some s'.users ∧
        Store.OnlyUsers s s')
      fun _ s' => s' = s := by
  simp only [update]
  refine .bind ?_
  refine Ends.read (fun u hu => .bind ?_) fun e => rfl
  have hfind := selectRow_ok.mp hu
  have hid : u.id = id := (Table.find_eq_some.mp hfind).2
  refine .ofExcept (fun u₁ h₁ => .bind ?_) fun e he => rfl
  obtain ⟨n, rfl⟩ := setName_ok h₁
  refine (setPassword_ends _ req.password).mono ?_ fun _ _ h => h
  rintro u₂ s' ⟨rfl, hash, rfl, hpass⟩
  refine .bind ?_
  refine Ends.now fun t => Ends.write (fun t' u' s₁ h => ?_) fun e => rfl
  obtain ⟨rfl, ⟨old, hold, hset⟩, honly⟩ := Store.updateUser_ok h
  have hold : s'.users.find id = some old := by rw [← hid]; exact hold
  rw [hfind] at hold
  cases hold
  refine ⟨u, hfind, ⟨rfl, rfl, rfl, rfl, rfl, rfl, ?_⟩, hset, honly⟩
  split at hpass
  · next hp => simpa only [hp] using hpass
  · next p hp => simpa only [hp] using hpass

end

end UserService

namespace Sample

/-- A user without a second factor; in an environment that is calm, the hash of a password
is the password. -/
def user : User :=
  { id := 7, tenantID := none, email := "a@b.c", name := "a", passwordHash := "password", totpSecret := ""
    totpEnabled := false, role := "admin", status := .active, lastLoginAt := none, createdAt := 0, updatedAt := 0 }

def account (u : User) : Store :=
  { rented with
    users := ⟨[u], List.pairwise_singleton _ _⟩
    userEmails := List.pairwise_singleton _ _ }

end Sample

end EdgeFabric
