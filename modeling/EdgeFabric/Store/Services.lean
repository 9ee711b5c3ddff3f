/-
The tables of the services: DNS zones and records, CDN sites and origins,
routes, BGP sessions, IP allocations and SSH keys (`internal/storage/sqlite`).
Each function is one database call. An update writes the columns the statement
lists; the tenant of a row is never among them.
-/
import EdgeFabric.Store.Rows

namespace EdgeFabric
namespace Store

/-! ## DNS zones -/

def createDNSZone (z : DNSZone) (now : Time) (s : Store) : Except Err (DNSZone × Store) :=
  let z := { z with
    createdAt := now, updatedAt := now
    serial := if z.serial = 0 then 1 else z.serial
    ttl := if z.ttl = 0 then 3600 else z.ttl
    status := if z.status = "" then .active else z.status }
  insertInto s.dnsZones (fun dnsZones => { s with dnsZones })
    (.detail .alreadyExists "dns zone already exists") z do
    requireRow "insert dns zone" z.tenantID s.tenants
    requireRow? "insert dns zone" z.nodeGroupID s.nodeGroups

def getDNSZone (id : ID) (s : Store) : Except Err DNSZone := selectRow id s.dnsZones

def listDNSZones (tenantID : ID) (p : ListParams) (s : Store) : Except Err (List DNSZone × Nat) :=
  let rows := s.dnsZones.rows.filter (·.tenantID = tenantID)
  .ok (p.page (byName DNSZone.name rows), rows.length)

/-- Writes name, status, TTL, node group and transfer list. -/
def updateDNSZone (z : DNSZone) (now : Time) (s : Store) : Except Err (DNSZone × Store) :=
  updateIn s.dnsZones (fun dnsZones => { s with dnsZones }) z.id (fun old => { old with
    name := z.name, status := z.status, ttl := z.ttl, nodeGroupID := z.nodeGroupID
    transferAllowedIPs := z.transferAllowedIPs, updatedAt := now })
    { z with updatedAt := now } (requireRow? "update dns zone" z.nodeGroupID s.nodeGroups)

/-- The records of the zone go with it. -/
def deleteDNSZone (id : ID) (s : Store) : Except Err (Unit × Store) :=
  deleteFrom s.dnsZones
    (fun dnsZones => { s with dnsZones, dnsRecords := s.dnsRecords.filter fun r => r.zoneID ≠ id }) id (.ok ())

def incrementDNSZoneSerial (id : ID) (now : Time) (s : Store) : Except Err (Unit × Store) :=
  updateIn s.dnsZones (fun dnsZones => { s with dnsZones }) id
    (fun z => { z with serial := z.serial + 1, updatedAt := now }) () (.ok ())

/-! ## DNS records -/

def createDNSRecord (r : DNSRecord) (now : Time) (s : Store) : Except Err (DNSRecord × Store) :=
  let r := { r with createdAt := now, updatedAt := now }
  insertInto s.dnsRecords (fun dnsRecords => { s with dnsRecords })
    (.detail .alreadyExists "dns record already exists") r (requireRow "insert dns record" r.zoneID s.dnsZones)

def getDNSRecord (id : ID) (s : Store) : Except Err DNSRecord := selectRow id s.dnsRecords

/-- Ordered by name and type. -/
def listDNSRecords (zoneID : ID) (p : ListParams) (s : Store) : Except Err (List DNSRecord × Nat) :=
  let rows := s.dnsRecords.rows.filter (·.zoneID = zoneID)
  .ok (p.page (byName DNSRecord.name (byName DNSRecord.type rows)), rows.length)

/-- Writes everything but the zone. -/
def updateDNSRecord (r : DNSRecord) (now : Time) (s : Store) : Except Err (DNSRecord × Store) :=
  updateIn s.dnsRecords (fun dnsRecords => { s with dnsRecords }) r.id
    (fun old => { r with zoneID := old.zoneID, createdAt := old.createdAt, updatedAt := now })
    { r with updatedAt := now } (.ok ())

def deleteDNSRecord (id : ID) (s : Store) : Except Err (Unit × Store) :=
  deleteFrom s.dnsRecords (fun dnsRecords => { s with dnsRecords }) id (.ok ())

/-! ## CDN sites -/

/-- The domains are rows of their own, read back in order. -/
def createCDNSite (c : CDNSite) (now : Time) (s : Store) : Except Err (CDNSite × Store) := do
  let c := { c with
    createdAt := now, updatedAt := now
    status := if c.status = "" then .active else c.status
    cacheTTL := if c.cacheTTL = 0 then 3600 else c.cacheTTL }
  let row ← insertInto s.cdnSites (fun cdnSites => { s with cdnSites })
    (.detail .alreadyExists "cdn site already exists") { c with domains := byName id c.domains } do
    requireRow "insert cdn site" c.tenantID s.tenants
    requireRow? "insert cdn site" c.nodeGroupID s.nodeGroups
    requireUnique (fun d => "insert cdn site domain " ++ quote d) c.domains
  return (c, row.2)

def getCDNSite (id : ID) (s : Store) : Except Err CDNSite := selectRow id s.cdnSites

def listCDNSites (tenantID : ID) (p : ListParams) (s : Store) : Except Err (List CDNSite × Nat) :=
  let rows := s.cdnSites.rows.filter (·.tenantID = tenantID)
  .ok (p.page (byName CDNSite.name rows), rows.length)

/-- Writes everything but the tenant. -/
def updateCDNSite (c : CDNSite) (now : Time) (s : Store) : Except Err (CDNSite × Store) :=
  updateIn s.cdnSites (fun cdnSites => { s with cdnSites }) c.id (fun old => { c with
    tenantID := old.tenantID, domains := byName id c.domains, createdAt := old.createdAt, updatedAt := now })
    { c with updatedAt := now } do
    requireRow? "update cdn site" c.nodeGroupID s.nodeGroups
    requireUnique (fun d => "insert cdn site domain " ++ quote d) c.domains

/-- The origins of the site go with it. -/
def deleteCDNSite (id : ID) (s : Store) : Except Err (Unit × Store) :=
  deleteFrom s.cdnSites
    (fun cdnSites => { s with cdnSites, cdnOrigins := s.cdnOrigins.filter fun o => o.siteID ≠ id }) id (.ok ())

/-! ## CDN origins -/

def createCDNOrigin (o : CDNOrigin) (now : Time) (s : Store) : Except Err (CDNOrigin × Store) :=
  let o := { o with
    createdAt := now, updatedAt := now
    status := if o.status = "" then .unknown else o.status
    weight := if o.weight = 0 then 1 else o.weight
    scheme := if o.scheme = "" then "https" else o.scheme }
  insertInto s.cdnOrigins (fun cdnOrigins => { s with cdnOrigins })
    (.detail .alreadyExists "cdn origin already exists") o (requireRow "insert cdn origin" o.siteID s.cdnSites)

def getCDNOrigin (id : ID) (s : Store) : Except Err CDNOrigin := selectRow id s.cdnOrigins

def listCDNOrigins (siteID : ID) (p : ListParams) (s : Store) : Except Err (List CDNOrigin × Nat) :=
  let rows := s.cdnOrigins.rows.filter (·.siteID = siteID)
  .ok (p.page (byName CDNOrigin.address rows), rows.length)

/-- Writes everything but the site. -/
def updateCDNOrigin (o : CDNOrigin) (now : Time) (s : Store) : Except Err (CDNOrigin × Store) :=
  updateIn s.cdnOrigins (fun cdnOrigins => { s with cdnOrigins }) o.id (fun old => { o with
    siteID := old.siteID, createdAt := old.createdAt, updatedAt := now })
    { o with updatedAt := now } (.ok ())

def deleteCDNOrigin (id : ID) (s : Store) : Except Err (Unit × Store) :=
  deleteFrom s.cdnOrigins (fun cdnOrigins => { s with cdnOrigins }) id (.ok ())

/-! ## Routes -/

def createRoute (r : Route) (now : Time) (s : Store) : Except Err (Route × Store) :=
  let r := { r with createdAt := now, updatedAt := now, status := if r.status = "" then .active else r.status }
  insertInto s.routes (fun routes => { s with routes })
    (.detail .alreadyExists "route already exists") r do
    requireRow "insert route" r.tenantID s.tenants
    requireRow "insert route" r.gatewayID s.gateways
    requireRow? "insert route" r.nodeGroupID s.nodeGroups

def getRoute (id : ID) (s : Store) : Except Err Route := selectRow id s.routes

def listRoutes (tenantID : ID) (p : ListParams) (s : Store) : Except Err (List Route × Nat) :=
  let rows := s.routes.rows.filter (·.tenantID = tenantID)
  .ok (p.page (byName Route.name rows), rows.length)

/-- Writes everything but the tenant. -/
def updateRoute (r : Route) (now : Time) (s : Store) : Except Err (Route × Store) :=
  updateIn s.routes (fun routes => { s with routes }) r.id (fun old => { r with
    tenantID := old.tenantID, createdAt := old.createdAt, updatedAt := now })
    { r with updatedAt := now } do
    requireRow "update route" r.gatewayID s.gateways
    requireRow? "update route" r.nodeGroupID s.nodeGroups

def deleteRoute (id : ID) (s : Store) : Except Err (Unit × Store) :=
  deleteFrom s.routes (fun routes => { s with routes }) id (.ok ())

/-- The active routes through a gateway. -/
def listRoutesByGateway (gatewayID : ID) (s : Store) : Except Err (List Route) :=
  .ok (byName Route.name (s.routes.rows.filter fun r => r.gatewayID = gatewayID ∧ r.status = .active))

/-! ## BGP sessions -/

def createBGPSession (b : BGPSession) (now : Time) (s : Store) : Except Err (BGPSession × Store) :=
  let b := { b with createdAt := now, updatedAt := now, status := if b.status = "" then .configured else b.status }
  insertInto s.bgpSessions (fun bgpSessions => { s with bgpSessions })
    (.detail .alreadyExists "bgp session already exists") b do
    requireRow "insert bgp session" b.nodeID s.nodes
    requireUnique (fun _ => "insert announced prefix") b.announcedPrefixes

def getBGPSession (id : ID) (s : Store) : Except Err BGPSession := selectRow id s.bgpSessions

def listBGPSessions (nodeID : ID) (p : ListParams) (s : Store) : Except Err (List BGPSession × Nat) :=
  let rows := s.bgpSessions.rows.filter (·.nodeID = nodeID)
  .ok (p.page (newestFirst BGPSession.createdAt rows), rows.length)

/-- Writes everything but the node. -/
def updateBGPSession (b : BGPSession) (now : Time) (s : Store) : Except Err (BGPSession × Store) :=
  updateIn s.bgpSessions (fun bgpSessions => { s with bgpSessions }) b.id (fun old => { b with
    nodeID := old.nodeID, createdAt := old.createdAt, updatedAt := now })
    { b with updatedAt := now } (requireUnique (fun _ => "insert announced prefix") b.announcedPrefixes)

def deleteBGPSession (id : ID) (s : Store) : Except Err (Unit × Store) :=
  deleteFrom s.bgpSessions (fun bgpSessions => { s with bgpSessions }) id (.ok ())

/-! ## IP allocations -/

def createIPAllocation (a : IPAllocation) (now : Time) (s : Store) : Except Err (IPAllocation × Store) :=
  let a := { a with createdAt := now, updatedAt := now, status := if a.status = "" then .pending else a.status }
  insertInto s.ipAllocations (fun ipAllocations => { s with ipAllocations })
    (.detail .alreadyExists "ip allocation already exists") a (requireRow "insert ip allocation" a.tenantID s.tenants)

def getIPAllocation (id : ID) (s : Store) : Except Err IPAllocation := selectRow id s.ipAllocations

def listIPAllocations (tenantID : ID) (p : ListParams) (s : Store) : Except Err (List IPAllocation × Nat) :=
  let rows := s.ipAllocations.rows.filter (·.tenantID = tenantID)
  .ok (p.page (newestFirst IPAllocation.createdAt rows), rows.length)

/-- Writes the range, its type, purpose and status. -/
def updateIPAllocation (a : IPAllocation) (now : Time) (s : Store) : Except Err (IPAllocation × Store) :=
  updateIn s.ipAllocations (fun ipAllocations => { s with ipAllocations }) a.id (fun old => { a with
    tenantID := old.tenantID, createdAt := old.createdAt, updatedAt := now })
    { a with updatedAt := now } (.ok ())

def deleteIPAllocation (id : ID) (s : Store) : Except Err (Unit × Store) :=
  deleteFrom s.ipAllocations (fun ipAllocations => { s with ipAllocations }) id (.ok ())

/-! ## SSH keys -/

def createSSHKey (k : SSHKey) (now : Time) (s : Store) : Except Err (SSHKey × Store) :=
  let k := { k with createdAt := now, lastRotatedAt := now }
  insertInto s.sshKeys (fun sshKeys => { s with sshKeys })
    (.detail .alreadyExists "SSH key already exists") k (.ok ())

def listSSHKeys (p : ListParams) (s : Store) : Except Err (List SSHKey × Nat) :=
  .ok (p.page (newestFirst SSHKey.createdAt s.sshKeys.rows), s.sshKeys.rows.length)

def updateSSHKey (k : SSHKey) (s : Store) : Except Err (Unit × Store) :=
  updateIn s.sshKeys (fun sshKeys => { s with sshKeys }) k.id
    (fun old => { k with createdAt := old.createdAt }) () (.ok ())

/-- Nodes that use the key forbid the delete. -/
def deleteSSHKey (id : ID) (s : Store) : Except Err (Unit × Store) :=
  deleteFrom s.sshKeys (fun sshKeys => { s with sshKeys }) id
    (forbidRows "delete ssh key" (s.nodes.rows.any (·.sshKeyID = some id)))

theorem mem_of_page {α κ : Type} {key : α → κ} {t : Table key} {p : ListParams} {f : α → String} {q : α → Bool} {a : α}
    (h : a ∈ p.page (byName f (t.rows.filter q))) : a ∈ t ∧ q a = true :=
  List.mem_filter.mp (mem_byName.mp (ListParams.mem_of_mem_page h))

section
variable {tenantID parent : ID} {p : ListParams} {s : Store}

theorem listDNSZones_ok {page : List DNSZone × Nat} (h : listDNSZones tenantID p s = .ok page) :
    ∀ z ∈ page.1, z ∈ s.dnsZones ∧ z.tenantID = tenantID := by
  cases h
  exact fun z hz => by simpa using mem_of_page hz

theorem listDNSRecords_ok {page : List DNSRecord × Nat} (h : listDNSRecords parent p s = .ok page) :
    ∀ r ∈ page.1, r ∈ s.dnsRecords ∧ r.zoneID = parent := by
  cases h
  intro r hr
  have hr := List.mem_filter.mp (mem_byName.mp (mem_byName.mp (ListParams.mem_of_mem_page hr)))
  exact ⟨hr.1, by simpa using hr.2⟩

theorem listCDNSites_ok {page : List CDNSite × Nat} (h : listCDNSites tenantID p s = .ok page) :
    ∀ c ∈ page.1, c ∈ s.cdnSites ∧ c.tenantID = tenantID := by
  cases h
  exact fun c hc => by simpa using mem_of_page hc

theorem listCDNOrigins_ok {page : List CDNOrigin × Nat} (h : listCDNOrigins parent p s = .ok page) :
    ∀ o ∈ page.1, o ∈ s.cdnOrigins ∧ o.siteID = parent := by
  cases h
  exact fun o ho => by simpa using mem_of_page ho

theorem listRoutes_ok {page : List Route × Nat} (h : listRoutes tenantID p s = .ok page) :
    ∀ r ∈ page.1, r ∈ s.routes ∧ r.tenantID = tenantID := by
  cases h
  exact fun r hr => by simpa using mem_of_page hr

theorem listBGPSessions_ok {page : List BGPSession × Nat} (h : listBGPSessions parent p s = .ok page) :
    ∀ b ∈ page.1, b ∈ s.bgpSessions ∧ b.nodeID = parent := by
  cases h
  intro b hb
  have hb := List.mem_filter.mp (mem_newestFirst.mp (ListParams.mem_of_mem_page hb))
  exact ⟨hb.1, of_decide_eq_true hb.2⟩

end

theorem createCDNSite_ok {c c' : CDNSite} {t : Time} {s s' : Store} (h : createCDNSite c t s = .ok (c', s')) :
    c'.id = c.id ∧ c'.tenantID = c.tenantID ∧
      ∃ sites, s.cdnSites.insert { c' with domains := byName id c'.domains } = some sites ∧
        s' = { s with cdnSites := sites } := by
  simp only [createCDNSite, bind_ok] at h
  obtain ⟨row, hins, h⟩ := h
  cases h
  obtain ⟨_, sites, hsites, hs⟩ := insertInto_ok hins
  exact ⟨rfl, rfl, sites, hsites, hs⟩

/-! ## The accounts -/

section
variable {id : ID}

instance {z : DNSZone} : KeepsAccounts (createDNSZone z) := ⟨fun h => insertInto_keeps h fun _ => rfl⟩
instance {z : DNSZone} : KeepsAccounts (updateDNSZone z) := ⟨fun h => updateIn_keeps h fun _ => rfl⟩
instance : KeepsAccounts fun _ => deleteDNSZone id := ⟨fun h => deleteFrom_keeps h fun _ => rfl⟩
instance : KeepsAccounts (incrementDNSZoneSerial id) := ⟨fun h => updateIn_keeps h fun _ => rfl⟩
instance {r : DNSRecord} : KeepsAccounts (createDNSRecord r) := ⟨fun h => insertInto_keeps h fun _ => rfl⟩
instance {r : DNSRecord} : KeepsAccounts (updateDNSRecord r) := ⟨fun h => updateIn_keeps h fun _ => rfl⟩
instance : KeepsAccounts fun _ => deleteDNSRecord id := ⟨fun h => deleteFrom_keeps h fun _ => rfl⟩

instance {c : CDNSite} : KeepsAccounts (createCDNSite c) where
  keeps h := by
    obtain ⟨_, _, _, _, rfl⟩ := createCDNSite_ok h
    rfl

instance {c : CDNSite} : KeepsAccounts (updateCDNSite c) := ⟨fun h => updateIn_keeps h fun _ => rfl⟩
instance : KeepsAccounts fun _ => deleteCDNSite id := ⟨fun h => deleteFrom_keeps h fun _ => rfl⟩
instance {o : CDNOrigin} : KeepsAccounts (createCDNOrigin o) := ⟨fun h => insertInto_keeps h fun _ => rfl⟩
instance {o : CDNOrigin} : KeepsAccounts (updateCDNOrigin o) := ⟨fun h => updateIn_keeps h fun _ => rfl⟩
instance : KeepsAccounts fun _ => deleteCDNOrigin id := ⟨fun h => deleteFrom_keeps h fun _ => rfl⟩
instance {r : Route} : KeepsAccounts (createRoute r) := ⟨fun h => insertInto_keeps h fun _ => rfl⟩
instance {r : Route} : KeepsAccounts (updateRoute r) := ⟨fun h => updateIn_keeps h fun _ => rfl⟩
instance : KeepsAccounts fun _ => deleteRoute id := ⟨fun h => deleteFrom_keeps h fun _ => rfl⟩
instance {b : BGPSession} : KeepsAccounts (createBGPSession b) := ⟨fun h => insertInto_keeps h fun _ => rfl⟩
instance {b : BGPSession} : KeepsAccounts (updateBGPSession b) := ⟨fun h => updateIn_keeps h fun _ => rfl⟩
instance : KeepsAccounts fun _ => deleteBGPSession id := ⟨fun h => deleteFrom_keeps h fun _ => rfl⟩
instance {a : IPAllocation} : KeepsAccounts (createIPAllocation a) := ⟨fun h => insertInto_keeps h fun _ => rfl⟩
instance {a : IPAllocation} : KeepsAccounts (updateIPAllocation a) := ⟨fun h => updateIn_keeps h fun _ => rfl⟩
instance : KeepsAccounts fun _ => deleteIPAllocation id := ⟨fun h => deleteFrom_keeps h fun _ => rfl⟩
instance {k : SSHKey} : KeepsAccounts (createSSHKey k) := ⟨fun h => insertInto_keeps h fun _ => rfl⟩
instance {k : SSHKey} : KeepsAccounts fun _ => updateSSHKey k := ⟨fun h => updateIn_keeps h fun _ => rfl⟩
instance : KeepsAccounts fun _ => deleteSSHKey id := ⟨fun h => deleteFrom_keeps h fun _ => rfl⟩

end

end Store
end EdgeFabric
