/-
The tenant service (`internal/tenant`). Deleting a tenant only marks it.
-/
import EdgeFabric.Store.Tenancy

namespace EdgeFabric
namespace TenantService

structure CreateRequest where
  name : String
  slug : String
  deriving DecidableEq, Repr

structure UpdateRequest where
  name : Option String := none
  status : Option TenantStatus := none
  deriving DecidableEq, Repr

def isSlugEdge (c : Char) : Bool := ('a' ≤ c && c ≤ 'z') || ('0' ≤ c && c ≤ '9')

/-- `slugPattern`: at least two lowercase alphanumerics or hyphens, no hyphen at the ends. -/
def slugPattern (cs : List Char) : Bool :=
  2 ≤ cs.length && cs.all (fun c => isSlugEdge c || c == '-') && cs.head?.any isSlugEdge && cs.getLast?.any isSlugEdge

def checkCreate (req : CreateRequest) : Except Err Unit :=
  if req.name = "" then .error (.text "name is required")
  else if req.slug = "" then .error (.text "slug is required")
  else if ¬ slugPattern req.slug.toList then
    .error (.text "slug must be lowercase alphanumeric with hyphens, at least 2 characters")
  else .ok ()

def create (req : CreateRequest) : Service Tenant := do
  let slug ← toLower req.slug
  let req := { name := Text.trimSpace req.name, slug := Text.trimSpace slug }
  Query.ofExcept (checkCreate req)
  let id ← newID
  save (Store.createTenant
    { id, name := req.name, slug := req.slug, status := .active, settings := none, createdAt := 0, updatedAt := 0 })

def get (id : ID) : Reads Tenant := read (Store.getTenant id)

def list (p : ListParams) : Reads (List Tenant × Nat) := read (Store.listTenants p.clamp)

def setName (t : Tenant) : Option String → Except Err Tenant
  | none => .ok t
  | some name =>
    let name := Text.trimSpace name
    if name = "" then .error (.text "name cannot be empty") else .ok { t with name }

def update (id : ID) (req : UpdateRequest) : Service Tenant := do
  let t ← read (Store.getTenant id)
  let t ← Query.ofExcept (setName t req.name)
  save (Store.updateTenant { t with status := req.status.getD t.status })

def delete (id : ID) : Service Unit := do
  let t ← read (Store.getTenant id)
  let _ ← save (Store.updateTenant { t with status := .deleted })

theorem create_ends {v : Env} {s : Store} (req : CreateRequest) :
    Ends v s (create req).1 (fun t s' => s.tenants.insert t = some s'.tenants ∧ s.OnlyTenants s')
      fun _ s' => s' = s := by
  refine .bind (Ends.reads (fun slug => ?_) fun _ => rfl)
  refine .bind (.ofExcept (fun _ _ => ?_) fun _ _ => rfl)
  refine .bind (Ends.newID fun id => ?_)
  exact Ends.save (fun _ t s' h => Store.createTenant_ok h) fun _ => rfl

end TenantService
end EdgeFabric
