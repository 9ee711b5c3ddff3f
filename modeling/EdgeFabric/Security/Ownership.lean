/-
Whose a row is, and what of it an answer shows.

Most rows name their tenant. A record belongs to the tenant of its zone, an origin to
that of its site, a BGP session to that of its node, a peer record to that of the node
or gateway it is for; users, nodes and jobs may have no tenant. A change of the store
harms nobody else if every row of another tenant is in the new store as it was, and of
that tenant still (`Store.Unharmed`); that is read off the tables (`Store.Spares`). An
answer stays within a tenant if no row in it is another's (`Reply.Within`).
-/
import EdgeFabric.Api.Http

namespace EdgeFabric

/-- The tenant's own, or nobody's. -/
def Mine (own : ID) (tenantID : Option ID) : Prop := ∀ t ∈ tenantID, t = own

@[simp] theorem mine_none {own : ID} : Mine own none := by simp [Mine]

@[simp] theorem mine_some {own t : ID} : Mine own (some t) ↔ t = own := by simp [Mine]

theorem mine_of_eq {own : ID} {tenantID : Option ID} (h : tenantID = some own) : Mine own tenantID := by
  rw [h, mine_some]

theorem Mine.or {own : ID} {a b : Option ID} (ha : Mine own a) (hb : Mine own b) : Mine own (a.or b) := by
  cases a with
  | none => exact hb
  | some t => exact ha

/-! ## In a table -/

section
variable {α : Type} {key : α → ID} {own id : ID} {f : α → Option ID} {t t' : Table key} {a : α}

def tenantIn (t : Table key) (f : α → Option ID) (id : ID) : Option ID := (t.find id).bind f

theorem tenantIn_of_find (h : t.find id = some a) : tenantIn t f id = f a := by rw [tenantIn, h, Option.bind_some]

theorem tenantIn_of_mem (h : a ∈ t) : tenantIn t f (key a) = f a :=
  tenantIn_of_find (Table.find_eq_some.mpr ⟨h, rfl⟩)

def Spared (own : ID) (f : α → Option ID) (t t' : Table key) : Prop := ∀ a ∈ t, ¬ Mine own (f a) → a ∈ t'

theorem Spared.refl : Spared own f t t := fun _ h _ => h

theorem Spared.insert (h : t.insert a = some t') : Spared own f t t' :=
  fun _ hb _ => (Table.mem_insert h).mpr (.inl hb)

theorem Spared.set (h : t.set a = some t') (hmine : Mine own (tenantIn t f (key a))) : Spared own f t t' := by
  intro b hb hother
  refine (Table.mem_set h).mpr (.inl ⟨hb, fun hkey => hother ?_⟩)
  rw [← hkey, tenantIn_of_mem hb] at hmine
  exact hmine

theorem Spared.erase (h : t.erase id = some t') (hmine : Mine own (tenantIn t f id)) : Spared own f t t' := by
  intro b hb hother
  refine (Table.mem_erase h).mpr ⟨hb, fun hkey => hother ?_⟩
  rw [← hkey, tenantIn_of_mem hb] at hmine
  exact hmine

theorem Spared.filter {p : α → Bool} (h : ∀ a ∈ t, p a = false → Mine own (f a)) : Spared own f t (t.filter p) := by
  intro b hb hother
  refine Table.mem_filter.mpr ⟨hb, ?_⟩
  by_contra hout
  exact hother (h b hb (Bool.eq_false_iff.mpr hout))

theorem Spared.tenantIn_eq (h : Spared own f t t') (hother : ¬ Mine own (tenantIn t f id)) :
    tenantIn t' f id = tenantIn t f id := by
  cases hfind : t.find id with
  | none => exact absurd (by simp [tenantIn, hfind]) hother
  | some a =>
    obtain ⟨hmem, rfl⟩ := Table.find_eq_some.mp hfind
    rw [tenantIn_of_mem hmem] at hother ⊢
    exact tenantIn_of_mem (h a hmem hother)

end

/-! ## In the store -/

namespace Store
variable (s : Store)

def userTenant : ID → Option ID := tenantIn s.users User.tenantID
def keyTenant : ID → Option ID := tenantIn s.apiKeys fun k => some k.tenantID
def nodeTenant : ID → Option ID := tenantIn s.nodes Node.tenantID
def gatewayTenant : ID → Option ID := tenantIn s.gateways fun g => some g.tenantID
def zoneTenant : ID → Option ID := tenantIn s.dnsZones fun z => some z.tenantID
def recordTenant : ID → Option ID := tenantIn s.dnsRecords fun r => s.zoneTenant r.zoneID
def siteTenant : ID → Option ID := tenantIn s.cdnSites fun c => some c.tenantID
def routeTenant : ID → Option ID := tenantIn s.routes fun r => some r.tenantID

/-- The tenant of the owner of a peer record; the controller's is nobody's. -/
def peerTenant (p : WireGuardPeer) : Option ID :=
  match p.ownerType with
  | .node => s.nodeTenant p.ownerID
  | .gateway => s.gatewayTenant p.ownerID
  | .controller => none

def Has : Datum → Prop
  | .tenant t => t ∈ s.tenants
  | .user u => u ∈ s.users
  | .apiKey k => k ∈ s.apiKeys
  | .node n => n ∈ s.nodes
  | .nodeGroup g => g ∈ s.nodeGroups
  | .gateway g => g ∈ s.gateways
  | .job j => j ∈ s.provisioningJobs
  | .bgpSession b => b ∈ s.bgpSessions
  | .ipAllocation a => a ∈ s.ipAllocations
  | .wireGuardPeer p => p ∈ s.wireGuardPeers
  | .dnsZone z => z ∈ s.dnsZones
  | .dnsRecord r => r ∈ s.dnsRecords
  | .cdnSite c => c ∈ s.cdnSites
  | .cdnOrigin o => o ∈ s.cdnOrigins
  | .route r => r ∈ s.routes
  | .auditEvent e => e ∈ s.auditEvents
  | _ => False

end Store

/-- The tenant that a row belongs to, if any; what is no row belongs to nobody. -/
def Datum.owner (s : Store) : Datum → Option ID
  | .tenant t => some t.id
  | .user u => u.tenantID
  | .apiKey k | .newAPIKey _ k => some k.tenantID
  | .node n => n.tenantID
  | .nodeGroup g => some g.tenantID
  | .gateway g => some g.tenantID
  | .job j => j.tenantID
  | .bgpSession b => s.nodeTenant b.nodeID
  | .ipAllocation a => some a.tenantID
  | .wireGuardPeer p => s.peerTenant p
  | .dnsZone z => some z.tenantID
  | .dnsRecord r => s.zoneTenant r.zoneID
  | .cdnSite c => some c.tenantID
  | .cdnOrigin o => s.siteTenant o.siteID
  | .route r => some r.tenantID
  | .auditEvent e => e.tenantID
  | _ => none

/-! ## What others have -/

/-- Every row of another tenant is still there, as it was, and of the same tenant. -/
def Store.Unharmed (own : ID) (s s' : Store) : Prop :=
  ∀ d, s.Has d → ¬ Mine own (d.owner s) → s'.Has d ∧ d.owner s' = d.owner s

/-- The same, table by table. -/
structure Store.Spares (own : ID) (s s' : Store) : Prop where
  tenants : Spared own (fun t => some t.id) s.tenants s'.tenants
  users : Spared own User.tenantID s.users s'.users
  apiKeys : Spared own (fun k => some k.tenantID) s.apiKeys s'.apiKeys
  nodes : Spared own Node.tenantID s.nodes s'.nodes
  nodeGroups : Spared own (fun g => some g.tenantID) s.nodeGroups s'.nodeGroups
  gateways : Spared own (fun g => some g.tenantID) s.gateways s'.gateways
  provisioningJobs : Spared own ProvisioningJob.tenantID s.provisioningJobs s'.provisioningJobs
  bgpSessions : Spared own (fun b => s.nodeTenant b.nodeID) s.bgpSessions s'.bgpSessions
  ipAllocations : Spared own (fun a => some a.tenantID) s.ipAllocations s'.ipAllocations
  wireGuardPeers : Spared own s.peerTenant s.wireGuardPeers s'.wireGuardPeers
  dnsZones : Spared own (fun z => some z.tenantID) s.dnsZones s'.dnsZones
  dnsRecords : Spared own (fun r => s.zoneTenant r.zoneID) s.dnsRecords s'.dnsRecords
  cdnSites : Spared own (fun c => some c.tenantID) s.cdnSites s'.cdnSites
  cdnOrigins : Spared own (fun o => s.siteTenant o.siteID) s.cdnOrigins s'.cdnOrigins
  routes : Spared own (fun r => some r.tenantID) s.routes s'.routes
  auditEvents : Spared own AuditEvent.tenantID s.auditEvents s'.auditEvents

namespace Store
variable {own : ID} {s s' s'' : Store}

theorem Spares.refl : s.Spares own s :=
  ⟨.refl, .refl, .refl, .refl, .refl, .refl, .refl, .refl, .refl, .refl, .refl, .refl, .refl, .refl, .refl, .refl⟩

theorem Unharmed.refl : s.Unharmed own s := fun _ h _ => ⟨h, rfl⟩

theorem Unharmed.trans (h : s.Unharmed own s') (h' : s'.Unharmed own s'') : s.Unharmed own s'' := by
  intro d hd hother
  obtain ⟨hd', howner⟩ := h d hd hother
  rw [← howner] at hother ⊢
  exact h' d hd' hother

theorem Spares.peerTenant_eq (h : s.Spares own s') {p : WireGuardPeer} (hother : ¬ Mine own (s.peerTenant p)) :
    s'.peerTenant p = s.peerTenant p := by
  unfold peerTenant at hother ⊢
  split at hother
  · exact h.nodes.tenantIn_eq hother
  · exact h.gateways.tenantIn_eq hother
  · rfl

theorem Spares.unharmed (h : s.Spares own s') : s.Unharmed own s' := by
  intro d hd hother
  cases d with
  | tenant t => exact ⟨h.tenants t hd hother, rfl⟩
  | user u => exact ⟨h.users u hd hother, rfl⟩
  | apiKey k => exact ⟨h.apiKeys k hd hother, rfl⟩
  | node n => exact ⟨h.nodes n hd hother, rfl⟩
  | nodeGroup g => exact ⟨h.nodeGroups g hd hother, rfl⟩
  | gateway g => exact ⟨h.gateways g hd hother, rfl⟩
  | job j => exact ⟨h.provisioningJobs j hd hother, rfl⟩
  | ipAllocation a => exact ⟨h.ipAllocations a hd hother, rfl⟩
  | dnsZone z => exact ⟨h.dnsZones z hd hother, rfl⟩
  | cdnSite c => exact ⟨h.cdnSites c hd hother, rfl⟩
  | route r => exact ⟨h.routes r hd hother, rfl⟩
  | auditEvent e => exact ⟨h.auditEvents e hd hother, rfl⟩
  -- these belong to the tenant of another row, which is kept as well
  | bgpSession b => exact ⟨h.bgpSessions b hd hother, h.nodes.tenantIn_eq hother⟩
  | wireGuardPeer p => exact ⟨h.wireGuardPeers p hd hother, h.peerTenant_eq hother⟩
  | dnsRecord r => exact ⟨h.dnsRecords r hd hother, h.dnsZones.tenantIn_eq hother⟩
  | cdnOrigin o => exact ⟨h.cdnOrigins o hd hother, h.cdnSites.tenantIn_eq hother⟩
  | _ => exact hd.elim

theorem Unharmed.log (h : s.Unharmed own s') {auditEvents : Table AuditEvent.id}
    (hrows : ∃ rows, auditEvents.rows = s'.auditEvents.rows ++ rows) : s.Unharmed own { s' with auditEvents } := by
  obtain ⟨rows, hrows⟩ := hrows
  have hkept : Spared own AuditEvent.tenantID s'.auditEvents auditEvents := by
    intro e he _
    rw [Table.mem_def, hrows]
    exact List.mem_append_left _ he
  have hlog : s'.Spares own { s' with auditEvents } := { Spares.refl with auditEvents := hkept }
  exact h.trans hlog.unharmed

end Store

/-! ## What an answer shows -/

/-- The rows that a datum shows. The address of a route's gateway is the gateway's. -/
def Datum.rows (s : Store) : Datum → List Datum
  | .bgpConfig sessions => sessions.map .bgpSession
  | .dnsConfig zones => zones.flatMap fun c => .dnsZone c.zone :: c.records.map .dnsRecord
  | .cdnConfig sites => sites.flatMap fun c => .cdnSite c.site :: c.origins.map .cdnOrigin
  | .nodeRoutes routes => routes.flatMap fun c =>
      .route c.route :: (s.gateways.find c.route.gatewayID).toList.map .gateway
  | .gatewayRoutes routes => routes.map .route
  | .networking state => state.wireGuardPeer.toList.map .wireGuardPeer ++ state.bgpSessions.map .bgpSession
  | d => [d]

/-- The text is the configuration of a node of the tenant's own, with none but such nodes in
its mesh. -/
def OwnWireGuard (own : ID) (v : Env) (s : Store) (text : String) : Prop :=
  ∃ (cfg : WireGuardHub) (n : Node) (config : WireGuardConfig), text = config.render ∧ config.IsFor v s cfg n ∧
    Mine own n.tenantID ∧ (cfg.topology = "mesh" → ∀ m, s.SharesGroup n.id m → Mine own m.tenantID)

/-- Nothing in the datum is another tenant's. -/
def Datum.Within (own : ID) (v : Env) (s : Store) : Datum → Prop
  | .wireGuardConfig text => OwnWireGuard own v s text
  | d => ∀ row ∈ d.rows s, Mine own (row.owner s)

def Reply.data (r : Reply) : List Datum :=
  match r.body with
  | .object d => [d]
  | .list items _ _ _ _ => items
  | _ => []

/-- Nothing in the reply is another tenant's, in the store that the request finds. -/
def Reply.Within (own : ID) (v : Env) (s : Store) (r : Reply) : Prop := ∀ d ∈ r.data, d.Within own v s

section
variable {own : ID} {v : Env} {s : Store}

theorem Datum.Within.mine {d : Datum} (h : d.Within own v s) : ∀ row ∈ d.rows s, Mine own (row.owner s) := by
  cases d with
  | wireGuardConfig text =>
    intro row hrow
    rw [List.mem_singleton.mp hrow]
    exact mine_none
  | _ => exact h

theorem mine_row {d : Datum} (h : Mine own (d.owner s)) : ∀ row ∈ [d], Mine own (row.owner s) := by
  intro row hrow
  rw [List.mem_singleton.mp hrow]
  exact h

theorem Reply.Refuses.within {r : Reply} (h : r.Refuses) : r.Within own v s := by
  obtain ⟨status, code, message, -, rfl⟩ := h
  intro d hd
  cases hd

theorem Reply.within_noContent : Reply.noContent.Within own v s := by
  intro d hd
  cases hd

theorem Reply.within_ok {d : Datum} (h : d.Within own v s) : (Reply.ok d).Within own v s := by
  intro d' hd
  rw [List.mem_singleton.mp hd]
  exact h

theorem Reply.within_created {d : Datum} (h : d.Within own v s) : (Reply.created d).Within own v s :=
  Reply.within_ok h

theorem Reply.within_list {α : Type} {datum : α → Datum} {rows : List α} {r : Reply} (hr : r.data = rows.map datum)
    (h : ∀ a ∈ rows, (datum a).Within own v s) : r.Within own v s := by
  intro d hd
  rw [hr] at hd
  obtain ⟨a, ha, rfl⟩ := List.mem_map.mp hd
  exact h a ha

theorem Datum.owner_apiKeys {apiKeys : Table APIKey.id} (d : Datum) : d.owner { s with apiKeys } = d.owner s := by
  cases d <;> rfl

theorem Reply.Within.apiKeys {apiKeys : Table APIKey.id} {r : Reply} (h : r.Within own v { s with apiKeys }) :
    r.Within own v s := by
  intro d hd
  have hd := h d hd
  cases d with
  | wireGuardConfig text =>
    obtain ⟨cfg, n, config, htext, hfor, hmine, hmesh⟩ := hd
    exact ⟨cfg, n, config, htext, ⟨hfor.address, hfor.privateKey, hfor.peers⟩, hmine, hmesh⟩
  | _ =>
    intro row hrow
    have hrow := hd row hrow
    rwa [Datum.owner_apiKeys] at hrow

end

end EdgeFabric
