/-
Roles that are neither superuser nor admin should not be allowed to change
anything. The user service stores any non-empty text as a role, and the
authorizer restricts the text `readonly` only: a user with another role acts as
an admin of their tenant (`unknown_role_creates`).

In a session whose calls give no such role to a user with a tenant, every
stored user has a known role or no tenant (`EnumeratedRole`), and the authorizer
refuses what it should (`least_privilege`).
-/
import EdgeFabric.Rbac
import EdgeFabric.User

namespace EdgeFabric

inductive UserCall where
  | create (req : UserService.CreateRequest)
  | update (id : ID) (req : UserService.UpdateRequest)
  deriving DecidableEq, Repr

def UserCall.run : UserCall → M User
  | .create req => UserService.create req
  | .update id req => UserService.update id req

/-- A role the authorizer has a rule for, or no tenant to act in. -/
def EnumeratedRole (role : Role) (tenantID : Option ID) : Prop :=
  role ∈ [Role.superUser, Role.admin, Role.readOnly] ∨ tenantID = none

instance (role : Role) (tenantID : Option ID) : Decidable (EnumeratedRole role tenantID) :=
  inferInstanceAs (Decidable (_ ∨ _))

/-- The call gives no role outside the enumeration to a user with a tenant. -/
def UserCall.Enumerated : UserCall → World → Prop
  | .create req, _ => EnumeratedRole req.role req.tenantID
  | .update id req, w => ∀ role ∈ req.role, ∀ u ∈ w.store.users.find id, EnumeratedRole role u.tenantID

instance (c : UserCall) (w : World) : Decidable (c.Enumerated w) := by
  cases c <;> unfold UserCall.Enumerated <;> infer_instance

def RolesEnumerated (s : Store) : Prop := ∀ u ∈ s.users, EnumeratedRole u.role u.tenantID

theorem create_rolesEnumerated {v : Env} {s : Store} {req : UserService.CreateRequest} (hs : RolesEnumerated s)
    (hreq : EnumeratedRole req.role req.tenantID) :
    Ends v s (UserService.create req) (fun _ => RolesEnumerated) fun _ => RolesEnumerated := by
  refine (UserService.create_ends req).mono ?_ ?_
  · rintro u s' ⟨hrole, htenant, _, _, _, hins, _⟩ b hb
    rcases (Table.mem_insert hins).mp hb with hb | rfl
    · exact hs b hb
    · rw [hrole, htenant]
      exact hreq
  · rintro _ s' rfl
    exact hs

theorem update_rolesEnumerated {v : Env} {s : Store} {id : ID} {req : UserService.UpdateRequest}
    (hs : RolesEnumerated s) (hreq : ∀ role ∈ req.role, ∀ u ∈ s.users.find id, EnumeratedRole role u.tenantID) :
    Ends v s (UserService.update id req) (fun _ => RolesEnumerated) fun _ => RolesEnumerated := by
  refine (UserService.update_ends id req).mono ?_ ?_
  · rintro u' s' ⟨u, hu, hupd, hset, _⟩ b hb
    rcases (Table.mem_set hset).mp hb with ⟨hb, _⟩ | rfl
    · exact hs b hb
    · rw [hupd.role, hupd.tenantID]
      cases hrole : req.role with
      | none => exact hs u (Table.find_eq_some.mp hu).1
      | some role => exact hreq role hrole u hu
  · rintro _ s' rfl
    exact hs

theorem UserCall.run_rolesEnumerated {v : Env} (c : UserCall) (w : World) (hw : RolesEnumerated w.store)
    (hc : c.Enumerated w) : Ends v w.store c.run (fun _ => RolesEnumerated) fun _ => RolesEnumerated := by
  cases c with
  | create req => exact create_rolesEnumerated hw hc
  | update id req => exact update_rolesEnumerated hw hc

theorem authorize_enumerated {u : User} (hu : EnumeratedRole u.role u.tenantID) (hsuper : u.role ≠ .superUser)
    (hadmin : u.role ≠ .admin) {action : Action} (ha : action.reads = false) (resource : Resource)
    (tenantID : Option ID) :
    authorize u.claims action resource tenantID = .error .forbidden := by
  rcases hu with hrole | htenant
  · simp only [List.mem_cons, List.not_mem_nil, or_false] at hrole
    rcases hrole with h | h | h
    · exact absurd h hsuper
    · exact absurd h hadmin
    · exact authorize_readOnly h ha
  · exact authorize_noTenant hsuper htenant

/-- From an empty table of users, along any session of `Create` and `Update` calls that
give no unknown role to a user with a tenant: a stored user whose role is neither
superuser nor admin may change nothing. -/
theorem least_privilege {v : Env} {w : World} (cs : List UserCall) (hempty : w.store.users = ∅)
    (hcs : Session.Along UserCall.run v UserCall.Enumerated cs w) :
    ∀ u ∈ (Session.final UserCall.run v cs w).store.users, u.role ≠ .superUser → u.role ≠ .admin →
      ∀ action ∈ [Action.create, .update, .delete], ∀ resource tenantID,
        authorize u.claims action resource tenantID = .error .forbidden := by
  have hinit : RolesEnumerated w.store := by
    intro u hu
    rw [hempty] at hu
    exact absurd hu Table.not_mem_empty
  have hfinal := Session.final_invariant (I := fun w => RolesEnumerated w.store)
    (fun c w hw hc => (c.run_rolesEnumerated w hw hc).exec_view rfl) hinit hcs
  intro u hu hsuper hadmin action ha resource tenantID
  refine authorize_enumerated (hfinal u hu) hsuper hadmin ?_ resource tenantID
  simp only [List.mem_cons, List.not_mem_nil, or_false] at ha
  rcases ha with rfl | rfl | rfl <;> rfl

namespace Sample

def newUser (role : Role) : UserService.CreateRequest :=
  { tenantID := some 100, email := "a@b.c", name := "a", password := "password", role }

end Sample

theorem least_privilege_readOnly :
    let w := Session.final UserCall.run Env.calm [.create (Sample.newUser "readonly")] ⟨0, Sample.rented⟩
    w.store.users.rows.length = 1 ∧
      ∀ u ∈ w.store.users, authorize u.claims .create .dnsZone (some 100) = .error .forbidden := by
  intro w
  refine ⟨by decide, fun u hu => ?_⟩
  have h := least_privilege (v := Env.calm) (w := ⟨0, Sample.rented⟩) [.create (Sample.newUser "readonly")] rfl
    (by decide) u hu
  have hroles : ∀ u ∈ w.store.users, u.role ≠ .superUser ∧ u.role ≠ .admin := by decide
  exact h (hroles u hu).1 (hroles u hu).2 .create (by decide) .dnsZone (some 100)

/-- A user with the role `viewer` is stored, and may create zones in their tenant. -/
theorem unknown_role_creates :
    let w := Session.final UserCall.run Env.calm [.create (Sample.newUser "viewer")] ⟨0, Sample.rented⟩
    Sample.rented.users = ∅ ∧
    ∃ u ∈ w.store.users, u.role ≠ .superUser ∧ u.role ≠ .admin ∧
      authorize u.claims .create .dnsZone (some 100) = .ok () := by
  decide

end EdgeFabric
