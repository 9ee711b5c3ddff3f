/-
Role-based access control (`internal/rbac`): who may do what to which kind of
resource. The authorizer compares role strings with two constants only; every
other string, an unknown role included, is treated like the role admin.
-/
import EdgeFabric.Domain

namespace EdgeFabric

/-- `auth.Claims`: the identity a request acts under. -/
structure Claims where
  userID : ID
  tenantID : Option ID
  role : Role
  apiKeyID : Option ID := none
  mfaPending : Bool := false
  deriving DecidableEq, Repr

def User.claims (u : User) : Claims := { userID := u.id, tenantID := u.tenantID, role := u.role }

inductive Action where
  | create | read | update | delete | list
  deriving DecidableEq, Repr

inductive Resource where
  | tenant | user | node | nodeGroup | gateway | ipAllocation | bgpSession | dnsZone | dnsRecord | cdnSite | cdnOrigin
  | route | sshKey | tlsCert | auditEvent | apiKey | provisioningJob | enrollmentToken
  deriving DecidableEq, Repr

def Action.reads : Action → Bool
  | .read | .list => true
  | .create | .update | .delete => false

/-- Resources that no tenant owns (`ResourceTenant`, `ResourceSSHKey`). -/
def Resource.global : Resource → Bool
  | .tenant | .sshKey => true
  | _ => false

/-- `rbac.ErrForbidden`, the only error of the authorizer. -/
inductive Forbidden where
  | forbidden
  deriving DecidableEq, Repr

def authorize (claims : Claims) (action : Action) (resource : Resource) (tenantID : Option ID) :
    Except Forbidden Unit :=
  if claims.role = .superUser then .ok ()
  else if claims.role = .readOnly ∧ ¬ action.reads then .error .forbidden
  else
    match claims.tenantID with
    | none => .error .forbidden
    | some own =>
      -- a scope that is absent constrains nothing
      if tenantID.any (· ≠ own) then .error .forbidden
      else if resource.global ∧ ¬ action.reads then .error .forbidden
      else .ok ()

section
variable {claims : Claims} {action : Action} {resource : Resource} {tenantID : Option ID}

theorem authorize_ok {u : Unit} (h : authorize claims action resource tenantID = .ok u) :
    claims.role = .superUser ∨
      (claims.role = .readOnly → action.reads = true) ∧ (resource.global = true → action.reads = true) ∧
      ∃ own, claims.tenantID = some own ∧ ∀ t, tenantID = some t → t = own := by
  unfold authorize at h
  split at h
  · next hs => exact .inl hs
  · split at h
    · cases h
    · next hro =>
      split at h
      · cases h
      · next own hown =>
        split at h
        · cases h
        · next hany =>
          split at h
          · cases h
          · next hglobal =>
            refine .inr ⟨by simpa using hro, by simpa using hglobal, own, hown, ?_⟩
            rintro t rfl
            simpa using hany

theorem authorize_readOnly (hrole : claims.role = .readOnly) (ha : action.reads = false) :
    authorize claims action resource tenantID = .error .forbidden := by
  rcases h : authorize claims action resource tenantID with ⟨⟩ | u
  · rfl
  · rcases authorize_ok h with hs | ⟨hro, _⟩
    · rw [hrole] at hs
      exact absurd hs (by decide)
    · rw [hro hrole] at ha
      cases ha

theorem authorize_noTenant (hrole : claims.role ≠ .superUser) (ht : claims.tenantID = none) :
    authorize claims action resource tenantID = .error .forbidden := by
  rcases h : authorize claims action resource tenantID with ⟨⟩ | u
  · rfl
  · rcases authorize_ok h with hs | ⟨_, _, own, hown, _⟩
    · exact absurd hs hrole
    · rw [ht] at hown
      cases hown

end

end EdgeFabric
