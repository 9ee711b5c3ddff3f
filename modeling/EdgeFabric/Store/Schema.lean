/-
The database (`internal/storage/sqlite/sqlite.go`): one table per entity, with
the primary keys and the unique columns of the schema built into the store's
type. Foreign keys are checked by the operations that insert and delete rows.
-/
import EdgeFabric.Domain
import EdgeFabric.Lib.Table
import Mathlib.Data.List.Sort

namespace EdgeFabric

/-- The rows of every table. Child tables that only hold a list of values of
their parent (allowed IPs, capabilities, domains, announced prefixes) are a field
of the parent row. -/
structure Store where
  tenants : Table Tenant.id
  users : Table User.id
  apiKeys : Table APIKey.id
  sshKeys : Table SSHKey.id
  nodes : Table Node.id
  nodeGroups : Table NodeGroup.id
  /-- pairs of a group and a node -/
  memberships : Table (id : ID × ID → ID × ID)
  gateways : Table Gateway.id
  wireGuardPeers : Table WireGuardPeer.id
  ipAllocations : Table IPAllocation.id
  bgpSessions : Table BGPSession.id
  dnsZones : Table DNSZone.id
  dnsRecords : Table DNSRecord.id
  cdnSites : Table CDNSite.id
  cdnOrigins : Table CDNOrigin.id
  routes : Table Route.id
  auditEvents : Table AuditEvent.id
  enrollmentTokens : Table EnrollmentToken.id
  provisioningJobs : Table ProvisioningJob.id
  tenantNames : tenants.Unique Tenant.name
  tenantSlugs : tenants.Unique Tenant.slug
  userEmails : users.Unique User.email
  tokenTexts : enrollmentTokens.Unique EnrollmentToken.token

namespace Store

def empty : Store :=
  { tenants := ∅, users := ∅, apiKeys := ∅, sshKeys := ∅, nodes := ∅, nodeGroups := ∅, memberships := ∅
    gateways := ∅, wireGuardPeers := ∅, ipAllocations := ∅, bgpSessions := ∅, dnsZones := ∅, dnsRecords := ∅
    cdnSites := ∅, cdnOrigins := ∅, routes := ∅, auditEvents := ∅, enrollmentTokens := ∅, provisioningJobs := ∅
    tenantNames := .empty, tenantSlugs := .empty, userEmails := .empty, tokenTexts := .empty }

instance : Inhabited Store := ⟨empty⟩

end Store

variable {α : Type} {rows : List α} {a : α}

/-! ## Pages of a list -/

/-- The cursor parameter, as `DecodeCursor` reads it. -/
inductive Cursor where
  | absent
  | malformed
  | at (createdAt : Time) (id : String)
  deriving DecidableEq, Repr

/-- `storage.ListParams`; a limit of zero stands for the default. -/
structure ListParams where
  offset : Nat := 0
  limit : Nat := 0
  cursor : Cursor := .absent
  deriving DecidableEq, Repr

def defaultLimit : Nat := 50

def ListParams.effectiveLimit (p : ListParams) : Nat := if p.limit = 0 then defaultLimit else p.limit

/-- The limit as the tenant and user services clamp it: at most 200. -/
def ListParams.clamp (p : ListParams) : ListParams := { p with limit := min p.effectiveLimit 200 }

/-- `LIMIT ? OFFSET ?`. -/
def ListParams.page {α : Type} (p : ListParams) (rows : List α) : List α :=
  (rows.drop p.offset).take p.effectiveLimit

/-- `ORDER BY f DESC`, ties in the order of insertion. -/
def newestFirst {α : Type} (f : α → Time) (rows : List α) : List α :=
  rows.insertionSort fun a b => f b ≤ f a

/-- `ORDER BY f`, on text. -/
def byName {α : Type} (f : α → String) (rows : List α) : List α :=
  rows.insertionSort fun a b => f a ≤ f b

theorem ListParams.mem_of_mem_page {p : ListParams} (h : a ∈ p.page rows) :
    a ∈ rows :=
  List.mem_of_mem_drop (List.mem_of_mem_take h)

theorem ListParams.page_eq_self {p : ListParams} (h0 : p.offset = 0)
    (h : rows.length ≤ p.effectiveLimit) : p.page rows = rows := by
  simp [page, h0, List.take_of_length_le h]

@[simp] theorem mem_newestFirst {f : α → Time} :
    a ∈ newestFirst f rows ↔ a ∈ rows :=
  (List.perm_insertionSort _ rows).mem_iff

@[simp] theorem mem_byName {f : α → String} : a ∈ byName f rows ↔ a ∈ rows :=
  (List.perm_insertionSort _ rows).mem_iff

@[simp] theorem length_newestFirst {f : α → Time} :
    (newestFirst f rows).length = rows.length :=
  List.length_insertionSort _ rows

/-! ## Rows -/

namespace Sample

def tenant (id : ID) (name : String) : Tenant :=
  { id, name, slug := name, status := .active, settings := none, createdAt := 0, updatedAt := 0 }

def rented : Store :=
  { Store.empty with
    tenants := ⟨[tenant 100 "acme", tenant 101 "initech", tenant 200 "globex"], by decide⟩
    tenantNames := by decide
    tenantSlugs := by decide }

def onlineNode (id : ID) : Node :=
  { id, tenantID := some 100, name := "n", hostname := "n", publicIP := "192.0.2.1", wireGuardIP := ""
    wireGuardIPv6 := "", status := .online, region := "", provider := "", sshPort := 22, sshUser := "root"
    sshKeyID := none, binaryVersion := "", lastHeartbeat := none, lastConfigSync := none, capabilities := []
    metadata := none, createdAt := 0, updatedAt := 0 }

def onlineGateway (id : ID) (name wireGuardIP : String) : Gateway :=
  { id, tenantID := 100, name, publicIP := "192.0.2.9", wireGuardIP, status := .online, enrollmentToken := ""
    lastHeartbeat := none, lastConfigSync := none, metadata := none, createdAt := 0, updatedAt := 0 }

def group (id tenantID : ID) (name : String) : NodeGroup :=
  { id, tenantID, name, description := "", createdAt := 0, updatedAt := 0 }

end Sample

end EdgeFabric
