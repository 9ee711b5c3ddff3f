/-
The handlers of zones, sites, routes and the other resources of the services
(`internal/api/v1`: `dns_zone.go`, `dns_record.go`, `cdn_site.go`, `cdn_origin.go`,
`route.go`, `bgp_session.go`, `ip_allocation.go`, `tenant.go`, `tenant_usage.go`,
`audit.go`, `status.go`).

Seven of them are the same five functions over different services; they are one
definition (`Crud`) with seven instances.
-/
import EdgeFabric.Api.Middleware

namespace EdgeFabric

/-! ## Resources with a parent -/

/-- The handler of a resource `α`, created from a `β` and updated by a `γ`. -/
structure Crud (α β γ : Type) where
  what : String
  plural : String
  /-- the path parameter that names the parent -/
  parent : String
  rbac : Resource
  /-- the name of the resource in the audit log, and of its identifier there -/
  resource : String
  key : String
  datum : α → Datum
  create : ID → β → Service α
  createError : Err → Reply
  list : ID → ListParams → Reads (List α × Nat)
  get : ID → Reads α
  update : ID → γ → Service α
  delete : ID → Service Unit
  /-- what the audit log says of a new row, and of a changed one -/
  created : ID → α → List (String × String)
  updated : α → List (String × String)

namespace Crud
variable {α β γ : Type} (h : Crud α β γ)

def handleCreate (c : Caller) (parent : String) (body : Decoded β) : Handler Reply := do
  let parentID ← parseID h.parent parent
  let req ← decode body
  let a ← (h.create parentID req).answering h.createError
  c.log "create" h.resource (h.created parentID a)
  return .created (h.datum a)

def handleGet : String → Viewer Reply := getResource h.what h.get h.datum

def handleList (parent : String) (q : ListQuery) : Viewer Reply := do
  let parentID ← parseID h.parent parent
  listResources h.plural (h.list parentID) h.datum q

def handleUpdate (c : Caller) (raw : String) (body : Decoded γ) : Handler Reply := do
  let id ← parseID "id" raw
  let req ← decode body
  let a ← (h.update id req).answering (missingOrBad h.what)
  c.log "update" h.resource (h.updated a)
  return .ok (h.datum a)

def handleDelete (c : Caller) : String → Handler Reply :=
  deleteResource h.what h.delete fun id => c.log "delete" h.resource [(h.key, id.text)]

/-- Every request needs the permission for its action, in the tenant of the claims. -/
def permission (req : ResourceRequest String β γ) : Permission := { action := req.action, resource := h.rbac }

def handle (c : Caller) : ResourceRequest String β γ → Handler Reply
  | .create parent body => h.handleCreate c parent body
  | .list parent q => h.handleList parent q
  | .get id => h.handleGet id
  | .update id body => h.handleUpdate c id body
  | .delete id => h.handleDelete c id

end Crud

def DNSZoneHandler : Crud DNSZone DNSService.CreateZoneRequest DNSService.UpdateZoneRequest where
  what := "dns zone"
  plural := "dns zones"
  parent := "tenantId"
  rbac := .dnsZone
  resource := "dns_zone"
  key := "zone_id"
  datum := .dnsZone
  create tenantID req := DNSService.createZone { req with tenantID }
  createError := bad
  list := DNSService.listZones
  get := DNSService.getZone
  update := DNSService.updateZone
  delete := DNSService.deleteZone
  created _ z := [("zone_id", z.id.text), ("zone_name", z.name)]
  updated z := [("zone_id", z.id.text), ("zone_name", z.name)]

def DNSRecordHandler : Crud DNSRecord DNSService.CreateRecordRequest DNSService.UpdateRecordRequest where
  what := "dns record"
  plural := "dns records"
  parent := "zoneId"
  rbac := .dnsRecord
  resource := "dns_record"
  key := "record_id"
  datum := .dnsRecord
  create zoneID req := DNSService.createRecord { req with zoneID }
  createError := missingOrBad "dns zone"
  list := DNSService.listRecords
  get := DNSService.getRecord
  update := DNSService.updateRecord
  delete := DNSService.deleteRecord
  created zoneID r := [("name", r.name), ("record_id", r.id.text), ("type", r.type), ("zone_id", zoneID.text)]
  updated r := [("name", r.name), ("record_id", r.id.text), ("type", r.type)]

def CDNSiteHandler : Crud CDNSite CDNService.CreateSiteRequest CDNService.UpdateSiteRequest where
  what := "cdn site"
  plural := "cdn sites"
  parent := "tenantId"
  rbac := .cdnSite
  resource := "cdn_site"
  key := "site_id"
  datum := .cdnSite
  create tenantID req := CDNService.createSite { req with tenantID }
  createError := bad
  list := CDNService.listSites
  get := CDNService.getSite
  update := CDNService.updateSite
  delete := CDNService.deleteSite
  created _ s := [("site_id", s.id.text), ("site_name", s.name)]
  updated s := [("site_id", s.id.text), ("site_name", s.name)]

def CDNSiteHandler.purgeCache (c : Caller) (raw : String) : Handler Reply := do
  let id ← parseID "id" raw
  (CDNService.purgeSiteCache id).answering (missing "cdn site" "failed to purge cache")
  c.log "purge_cache" "cdn_site" [("site_id", id.text)]
  return .noContent

/-- Whether origins may have private addresses is a setting of the CDN service. -/
def CDNOriginHandler (allowPrivateOrigins : Bool) :
    Crud CDNOrigin CDNService.CreateOriginRequest CDNService.UpdateOriginRequest where
  what := "cdn origin"
  plural := "cdn origins"
  parent := "siteId"
  rbac := .cdnOrigin
  resource := "cdn_origin"
  key := "origin_id"
  datum := .cdnOrigin
  create siteID req := CDNService.createOrigin allowPrivateOrigins { req with siteID }
  createError := missingOrBad "cdn site"
  list := CDNService.listOrigins
  get := CDNService.getOrigin
  update := CDNService.updateOrigin allowPrivateOrigins
  delete := CDNService.deleteOrigin
  created siteID o := [("address", o.address), ("origin_id", o.id.text), ("site_id", siteID.text)]
  updated o := [("address", o.address), ("origin_id", o.id.text)]

def RouteHandler : Crud Route RouteService.CreateRouteRequest RouteService.UpdateRouteRequest where
  what := "route"
  plural := "routes"
  parent := "tenantId"
  rbac := .route
  resource := "route"
  key := "route_id"
  datum := .route
  create tenantID req := RouteService.createRoute { req with tenantID }
  createError := bad
  list := RouteService.listRoutes
  get := RouteService.getRoute
  update := RouteService.updateRoute
  delete := RouteService.deleteRoute
  created _ r := [("route_id", r.id.text), ("route_name", r.name)]
  updated r := [("route_id", r.id.text), ("route_name", r.name)]

def BGPSessionHandler :
    Crud BGPSession NetworkingService.CreateBGPSessionRequest NetworkingService.UpdateBGPSessionRequest where
  what := "bgp session"
  plural := "bgp sessions"
  parent := "nodeId"
  rbac := .bgpSession
  resource := "bgp_session"
  key := "session_id"
  datum := .bgpSession
  create nodeID req := NetworkingService.createBGPSession { req with nodeID }
  createError := bad
  list := NetworkingService.listBGPSessions
  get := NetworkingService.getBGPSession
  update := NetworkingService.updateBGPSession
  delete := NetworkingService.deleteBGPSession
  created nodeID b := [("node_id", nodeID.text), ("session_id", b.id.text)]
  updated b := [("session_id", b.id.text)]

def IPAllocationHandler :
    Crud IPAllocation NetworkingService.CreateIPAllocationRequest NetworkingService.UpdateIPAllocationRequest where
  what := "ip allocation"
  plural := "ip allocations"
  parent := "tenantId"
  rbac := .ipAllocation
  resource := "ip_allocation"
  key := "allocation_id"
  datum := .ipAllocation
  create tenantID req := NetworkingService.createIPAllocation { req with tenantID }
  createError := bad
  list := NetworkingService.listIPAllocations
  get := NetworkingService.getIPAllocation
  update := NetworkingService.updateIPAllocation
  delete := NetworkingService.deleteIPAllocation
  created _ a := [("allocation_id", a.id.text), ("prefix", a.pfx)]
  updated a := [("allocation_id", a.id.text)]

/-! ## Tenants -/

namespace TenantHandler

def create (c : Caller) (body : Decoded TenantService.CreateRequest) : Handler Reply := do
  let req ← decode body
  let t ← (TenantService.create req).answering (takenOrBad "tenant slug already exists")
  c.logGlobal "create" "tenant" [("slug", t.slug), ("tenant_id", t.id.text)]
  return .created (.tenant t)

def get : String → Viewer Reply := getResource "tenant" TenantService.get .tenant

def list : ListQuery → Viewer Reply := listResources "tenants" TenantService.list .tenant

def update (c : Caller) (raw : String) (body : Decoded TenantService.UpdateRequest) : Handler Reply := do
  let id ← parseID "id" raw
  let req ← decode body
  let t ← (TenantService.update id req).answering (missingOrBad "tenant")
  c.logGlobal "update" "tenant" [("tenant_id", t.id.text)]
  return .ok (.tenant t)

def delete (c : Caller) : String → Handler Reply :=
  deleteResource "tenant" TenantService.delete fun id => c.logGlobal "delete" "tenant" [("tenant_id", id.text)]

/-- No tenant owns the tenants. -/
def permission (req : ResourceRequest Unit TenantService.CreateRequest TenantService.UpdateRequest) : Permission :=
  { action := req.action, resource := .tenant, tenantFromClaims := false }

def handle (c : Caller) :
    ResourceRequest Unit TenantService.CreateRequest TenantService.UpdateRequest → Handler Reply
  | .create _ body => create c body
  | .list _ q => list q
  | .get id => get id
  | .update id body => update c id body
  | .delete id => delete c id

end TenantHandler

/-- `TenantUsageHandler.GetUsage`: counters that no handler writes. -/
def getUsage (tenantID : String) : Viewer Reply := do
  require (tenantID ≠ "") (.badRequest "tenant id required")
  return .ok (.usage tenantID)

/-! ## The audit log -/

/-- `AuditHandler.List`. -/
def listAuditEvents (c : Caller) : ListQuery → Viewer Reply :=
  listResources "audit events" (fun p => read (Store.listAuditEvents c.claims.tenantID p)) .auditEvent

/-! ## The overview -/

namespace StatusHandler

/-- The rows of a list and their total, or none if it fails. -/
def rowsOf {α : Type} (q : Reads (List α × Nat)) : Viewer (List α × Nat) := do
  match ← q.tried with
  | .ok page => return page
  | .error _ => return ([], 0)

def total {α : Type} (q : Reads (List α × Nat)) : Viewer Nat := do
  let (_, total) ← rowsOf q
  return total

/-- The number of rows in a tenant, or in the first 200 tenants. -/
def countIn {α : Type} (list : ID → ListParams → Reads (List α × Nat)) : Option ID → Viewer Nat
  | some tenantID => total (list tenantID { limit := 1 })
  | none => do
    let (tenants, _) ← rowsOf (TenantService.list { limit := 200 })
    Query.fold (fun n t => do return n + (← total (list t.id { limit := 1 }))) 0 tenants

def countBy {α β : Type} [DecidableEq β] (f : α → β) (rows : List α) : List (β × Nat) :=
  (rows.map f).eraseDups.map fun b => (b, rows.countP fun a => f a = b)

def staleAfter : Nat := 300000000000

def isStale (now : Time) (lastConfigSync : Option Time) : Bool :=
  lastConfigSync.all fun t => t + staleAfter < now

/-- `Status`. What fails is left out of the answer. -/
def status (c : Caller) : Viewer Reply := do
  let tenantFilter := c.claims.tenantID
  let tenantCount ← if tenantFilter = none then total (TenantService.list { limit := 1 }) else pure 0
  let userCount ← total (UserService.list tenantFilter { limit := 1 })
  let t ← now.answering (failing "")
  let (nodes, nodeCount) ← rowsOf (FleetService.listNodes tenantFilter { limit := 200 })
  let (gateways, gatewayCount) ← rowsOf (FleetService.listGateways tenantFilter { limit := 200 })
  let routeCount ← countIn RouteService.listRoutes tenantFilter
  let dnsZoneCount ← countIn DNSService.listZones tenantFilter
  let cdnSiteCount ← countIn CDNService.listSites tenantFilter
  return .ok (.overview
    { tenantCount, userCount, nodeCount, gatewayCount, routeCount, dnsZoneCount, cdnSiteCount
      nodesByStatus := countBy Node.status nodes
      gatewaysByStatus := countBy Gateway.status gateways
      staleNodeCount := nodes.countP fun n => n.status = .online && isStale t n.lastConfigSync
      staleGatewayCount := gateways.countP fun g => g.status = .online && isStale t g.lastConfigSync })

end StatusHandler

end EdgeFabric
