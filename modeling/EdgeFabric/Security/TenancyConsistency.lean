/-
References between the tables should stay inside a tenant: a route and its
gateway, a zone or a route and its node group, a node and the groups it is in.
The services check that the referenced row exists, not whose it is, so a route of
one tenant can be sent through the gateway of another (`foreign_gateway_routed`).

In a session whose calls refer to rows of the right tenant only
(`ReferenceCall.SameTenant`), every reference stays inside a tenant
(`references_same_tenant`).
-/
import EdgeFabric.Dns
import EdgeFabric.Fleet
import EdgeFabric.Tenant

namespace EdgeFabric

/-- The calls that write references, and the ones that make the rows they refer to. -/
inductive ReferenceCall where
  | createRoute (req : RouteService.CreateRouteRequest)
  | updateRoute (id : ID) (req : RouteService.UpdateRouteRequest)
  | createZone (req : DNSService.CreateZoneRequest)
  | updateZone (id : ID) (req : DNSService.UpdateZoneRequest)
  | addNodeToGroup (groupID nodeID : ID)
  | createTenant (req : TenantService.CreateRequest)
  | createGateway (req : FleetService.CreateGatewayRequest)
  | createNodeGroup (req : FleetService.CreateNodeGroupRequest)
  | createNode (req : FleetService.CreateNodeRequest)
  deriving DecidableEq, Repr

def ReferenceCall.run : ReferenceCall → M Unit
  | .createRoute req => do let _ ← RouteService.createRoute req
  | .updateRoute id req => do let _ ← RouteService.updateRoute id req
  | .createZone req => do let _ ← DNSService.createZone req
  | .updateZone id req => do let _ ← DNSService.updateZone id req
  | .addNodeToGroup groupID nodeID => FleetService.addNodeToGroup groupID nodeID
  | .createTenant req => do let _ ← TenantService.create req
  | .createGateway req => do let _ ← FleetService.createGateway req
  | .createNodeGroup req => do let _ ← FleetService.createNodeGroup req
  | .createNode req => do let _ ← FleetService.createNode req

/-! ## The condition -/

/-- The gateway and the group, as far as they are given and exist, are the tenant's. -/
structure Store.InTenant (s : Store) (tenantID : ID) (gatewayID nodeGroupID : Option ID) : Prop where
  gateway : ∀ gw ∈ gatewayID.bind fun id => s.gateways.find id, gw.tenantID = tenantID
  group : ∀ g ∈ nodeGroupID.bind fun id => s.nodeGroups.find id, g.tenantID = tenantID

instance (s : Store) (tenantID : ID) (gatewayID nodeGroupID : Option ID) :
    Decidable (s.InTenant tenantID gatewayID nodeGroupID) :=
  decidable_of_iff ((∀ gw ∈ gatewayID.bind fun id => s.gateways.find id, gw.tenantID = tenantID) ∧
      ∀ g ∈ nodeGroupID.bind fun id => s.nodeGroups.find id, g.tenantID = tenantID)
    ⟨fun h => ⟨h.1, h.2⟩, fun h => ⟨h.gateway, h.group⟩⟩

/-- The rows the call refers to are of the tenant of the row it writes; a node put into a
group has the group's tenant or none. -/
def ReferenceCall.SameTenant : ReferenceCall → Store → Prop
  | .createRoute req, s => s.InTenant req.tenantID (some req.gatewayID) req.nodeGroupID
  | .updateRoute id req, s => ∀ r ∈ s.routes.find id,
      s.InTenant r.tenantID req.gatewayID (if req.clearNodeGroup then none else req.nodeGroupID)
  | .createZone req, s => s.InTenant req.tenantID none req.nodeGroupID
  | .updateZone id req, s => ∀ z ∈ s.dnsZones.find id,
      s.InTenant z.tenantID none (if req.clearNodeGroup then none else req.nodeGroupID)
  | .addNodeToGroup groupID nodeID, s => ∀ g ∈ s.nodeGroups.find groupID, ∀ n ∈ s.nodes.find nodeID,
      n.tenantID = none ∨ n.tenantID = some g.tenantID
  | _, _ => True

instance : (c : ReferenceCall) → (s : Store) → Decidable (c.SameTenant s)
  | .createRoute _, _ => inferInstanceAs (Decidable (Store.InTenant _ _ _ _))
  | .updateRoute _ _, _ => inferInstanceAs (Decidable (∀ _ ∈ _, _))
  | .createZone _, _ => inferInstanceAs (Decidable (Store.InTenant _ _ _ _))
  | .updateZone _ _, _ => inferInstanceAs (Decidable (∀ _ ∈ _, _))
  | .addNodeToGroup _ _, _ => inferInstanceAs (Decidable (∀ _ ∈ _, ∀ _ ∈ _, _))
  | .createTenant _, _ | .createGateway _, _ | .createNodeGroup _, _ | .createNode _, _ => isTrue trivial

/-! ## The invariant -/

/-- The group, if there is one, exists and is the tenant's. -/
def Store.GroupIn (s : Store) (tenantID : ID) (nodeGroupID : Option ID) : Prop :=
  ∀ id ∈ nodeGroupID, ∃ g ∈ s.nodeGroups, g.id = id ∧ g.tenantID = tenantID

/-- Every reference exists and stays inside a tenant. -/
structure Store.Consistent (s : Store) : Prop where
  routeGateway : ∀ r ∈ s.routes, ∃ gw ∈ s.gateways, gw.id = r.gatewayID ∧ gw.tenantID = r.tenantID
  routeGroup : ∀ r ∈ s.routes, s.GroupIn r.tenantID r.nodeGroupID
  zoneGroup : ∀ z ∈ s.dnsZones, s.GroupIn z.tenantID z.nodeGroupID
  member : ∀ m ∈ s.memberships, ∃ g ∈ s.nodeGroups, ∃ n ∈ s.nodes, g.id = m.1 ∧ n.id = m.2 ∧
    (n.tenantID = none ∨ n.tenantID = some g.tenantID)

namespace Store

theorem consistent_empty : Store.empty.Consistent := by
  refine ⟨fun r h => ?_, fun r h => ?_, fun z h => ?_, fun m h => ?_⟩ <;> exact absurd h Table.not_mem_empty

theorem Consistent.grow {s s' : Store} (h : s.Consistent) (hroutes : s'.routes = s.routes)
    (hzones : s'.dnsZones = s.dnsZones) (hmembers : s'.memberships = s.memberships)
    (hgateways : ∀ g ∈ s.gateways, g ∈ s'.gateways) (hgroups : ∀ g ∈ s.nodeGroups, g ∈ s'.nodeGroups)
    (hnodes : ∀ n ∈ s.nodes, n ∈ s'.nodes) : s'.Consistent := by
  have hin : ∀ {t g}, s.GroupIn t g → s'.GroupIn t g := by
    intro t g hg id hid
    obtain ⟨row, hrow, h⟩ := hg id hid
    exact ⟨row, hgroups row hrow, h⟩
  refine ⟨fun r hr => ?_, fun r hr => ?_, fun z hz => ?_, fun m hm => ?_⟩
  · obtain ⟨gw, hgw, h⟩ := h.routeGateway r (hroutes ▸ hr)
    exact ⟨gw, hgateways gw hgw, h⟩
  · exact hin (h.routeGroup r (hroutes ▸ hr))
  · exact hin (h.zoneGroup z (hzones ▸ hz))
  · obtain ⟨g, hg, n, hn, h⟩ := h.member m (hmembers ▸ hm)
    exact ⟨g, hgroups g hg, n, hnodes n hn, h⟩

theorem groupIn_of_inTenant {s : Store} {t : ID} {gateway group : Option ID} (h : s.InTenant t gateway group)
    (hex : ∀ g ∈ group, ∃ row, s.nodeGroups.find g = some row) : s.GroupIn t group := by
  intro id hid
  obtain ⟨row, hrow⟩ := hex id hid
  obtain ⟨hmem, hkey⟩ := Table.find_eq_some.mp hrow
  exact ⟨row, hmem, hkey, h.group row (Option.mem_bind_iff.mpr ⟨id, hid, hrow⟩)⟩

theorem Consistent.addRoutes {s : Store} (h : s.Consistent) {r : Route} {routes : Table Route.id}
    (hmem : ∀ b ∈ routes, b ∈ s.routes ∨ b = r)
    (hgw : ∃ gw ∈ s.gateways, gw.id = r.gatewayID ∧ gw.tenantID = r.tenantID)
    (hgroup : s.GroupIn r.tenantID r.nodeGroupID) : ({ s with routes } : Store).Consistent := by
  refine ⟨fun b hb => ?_, fun b hb => ?_, h.zoneGroup, h.member⟩
  · rcases hmem b hb with hb | rfl
    · exact h.routeGateway b hb
    · exact hgw
  · rcases hmem b hb with hb | rfl
    · exact h.routeGroup b hb
    · exact hgroup

theorem Consistent.addZones {s : Store} (h : s.Consistent) {z : DNSZone} {zones : Table DNSZone.id}
    (hmem : ∀ b ∈ zones, b ∈ s.dnsZones ∨ b = z) (hgroup : s.GroupIn z.tenantID z.nodeGroupID) :
    ({ s with dnsZones := zones } : Store).Consistent := by
  refine ⟨h.routeGateway, h.routeGroup, fun b hb => ?_, h.member⟩
  rcases hmem b hb with hb | rfl
  · exact h.zoneGroup b hb
  · exact hgroup

end Store

/-! ## What each call preserves -/

section
variable {v : Env} {s : Store}

theorem createRoute_consistent {req : RouteService.CreateRouteRequest} (hs : s.Consistent)
    (hreq : s.InTenant req.tenantID (some req.gatewayID) req.nodeGroupID) :
    Ends v s (RouteService.createRoute req).1 (fun _ => Store.Consistent) fun _ => Store.Consistent := by
  refine (RouteService.createRoute_ends req).mono ?_ ?_
  · rintro r s' ⟨htenant, hgateway, hgroup, ⟨gw, hgw⟩, hex, routes, hins, rfl⟩
    refine hs.addRoutes (r := r) (fun b hb => (Table.mem_insert hins).mp hb) ?_ ?_
    · obtain ⟨hmem, hid⟩ := Table.find_eq_some.mp hgw
      exact ⟨gw, hmem, hid, htenant ▸ hreq.gateway gw (hgateway ▸ hgw)⟩
    · rw [htenant, hgroup]
      exact Store.groupIn_of_inTenant hreq (hgroup ▸ hex)
  · rintro _ s' rfl
    exact hs

theorem groupIn_update {t : ID} {gateway new old : Option ID} {clear : Bool} (hold : s.GroupIn t old)
    (hnew : s.InTenant t gateway (if clear then none else new))
    (hex : ∀ g ∈ (if clear then none else new.or old), ∃ row, s.nodeGroups.find g = some row) :
    s.GroupIn t (if clear then none else new.or old) := by
  cases clear with
  | true => intro id hid; cases hid
  | false =>
    cases new with
    | none => simpa using hold
    | some g => exact Store.groupIn_of_inTenant hnew hex

theorem updateRoute_consistent {id : ID} {req : RouteService.UpdateRouteRequest} (hs : s.Consistent)
    (hreq : ∀ r ∈ s.routes.find id,
      s.InTenant r.tenantID req.gatewayID (if req.clearNodeGroup then none else req.nodeGroupID)) :
    Ends v s (RouteService.updateRoute id req).1 (fun _ => Store.Consistent) fun _ => Store.Consistent := by
  refine (RouteService.updateRoute_ends id req).mono ?_ ?_
  · rintro r s' ⟨old, t, routes, hold, rfl, ⟨gw, hgw⟩, hex, hset, rfl⟩
    have hmem := (Table.find_eq_some.mp hold).1
    have hreq := hreq old hold
    refine hs.addRoutes (fun b hb => ((Table.mem_set hset).mp hb).imp_left And.left) ?_ ?_
    · cases hgid : req.gatewayID with
      | none => simpa [RouteService.UpdateRouteRequest.apply, hgid] using hs.routeGateway old hmem
      | some gid =>
        obtain ⟨hmem, hid⟩ := Table.find_eq_some.mp hgw
        simp only [RouteService.UpdateRouteRequest.apply, hgid, Option.getD_some] at hgw hid ⊢
        exact ⟨gw, hmem, hid, hreq.gateway gw (Option.mem_bind_iff.mpr ⟨gid, hgid, hgw⟩)⟩
    · exact groupIn_update (hs.routeGroup old hmem) hreq hex
  · rintro _ s' rfl
    exact hs

theorem createZone_consistent {req : DNSService.CreateZoneRequest} (hs : s.Consistent)
    (hreq : s.InTenant req.tenantID none req.nodeGroupID) :
    Ends v s (DNSService.createZone req).1 (fun _ => Store.Consistent) fun _ => Store.Consistent := by
  refine (DNSService.createZone_ends req).mono ?_ ?_
  · rintro z s' ⟨htenant, hgroup, hex, zones, hins, rfl⟩
    refine hs.addZones (z := z) (fun b hb => (Table.mem_insert hins).mp hb) ?_
    rw [htenant, hgroup]
    exact Store.groupIn_of_inTenant hreq (hgroup ▸ hex)
  · rintro _ s' rfl
    exact hs

theorem updateZone_consistent {id : ID} {req : DNSService.UpdateZoneRequest} (hs : s.Consistent)
    (hreq : ∀ z ∈ s.dnsZones.find id,
      s.InTenant z.tenantID none (if req.clearNodeGroup then none else req.nodeGroupID)) :
    Ends v s (DNSService.updateZone id req).1 (fun _ => Store.Consistent) fun _ => Store.Consistent := by
  refine (DNSService.updateZone_ends id req).mono ?_ ?_
  · rintro z s' ⟨old, t, zones, hold, rfl, hex, hset, rfl⟩
    refine hs.addZones (fun b hb => ((Table.mem_set hset).mp hb).imp_left And.left) ?_
    exact groupIn_update (hs.zoneGroup old (Table.find_eq_some.mp hold).1) (hreq old hold) hex
  · rintro _ s' rfl
    exact hs

theorem addNodeToGroup_consistent {groupID nodeID : ID} (hs : s.Consistent)
    (hreq : ∀ g ∈ s.nodeGroups.find groupID, ∀ n ∈ s.nodes.find nodeID,
      n.tenantID = none ∨ n.tenantID = some g.tenantID) :
    Ends v s (FleetService.addNodeToGroup groupID nodeID).1 (fun _ => Store.Consistent) fun _ => Store.Consistent := by
  refine (FleetService.addNodeToGroup_ends groupID nodeID).mono ?_ ?_
  · rintro u s' ⟨⟨g, hg⟩, ⟨n, hn⟩, memberships, hins, rfl⟩
    refine ⟨hs.routeGateway, hs.routeGroup, hs.zoneGroup, fun m hm => ?_⟩
    rcases (Table.mem_insert hins).mp hm with hm | rfl
    · exact hs.member m hm
    · obtain ⟨hgmem, hgid⟩ := Table.find_eq_some.mp hg
      obtain ⟨hnmem, hnid⟩ := Table.find_eq_some.mp hn
      exact ⟨g, hgmem, n, hnmem, hgid, hnid, hreq g hg n hn⟩
  · rintro _ s' rfl
    exact hs

/-- What the other calls change, references do not depend on. -/
theorem createRow_consistent {c : ReferenceCall} (hs : s.Consistent)
    (hc : match c with
      | .createTenant _ | .createGateway _ | .createNodeGroup _ | .createNode _ => True
      | _ => False) :
    Ends v s c.run (fun _ => Store.Consistent) fun _ => Store.Consistent := by
  have herr : ∀ (_ : Err) s', s' = s → s'.Consistent := by
    rintro _ s' rfl
    exact hs
  cases c with
  | createTenant req =>
    refine .bind ((TenantService.create_ends req).mono ?_ herr)
    rintro t s' ⟨_, honly⟩
    rw [honly]
    exact .pure (hs.grow rfl rfl rfl (fun _ h => h) (fun _ h => h) fun _ h => h)
  | createGateway req =>
    refine .bind ((FleetService.createGateway_ends req).mono ?_ herr)
    rintro g s' ⟨_, gateways, hins, rfl⟩
    exact .pure (hs.grow rfl rfl rfl (fun _ h => (Table.mem_insert hins).mpr (.inl h)) (fun _ h => h) fun _ h => h)
  | createNodeGroup req =>
    refine .bind ((FleetService.createNodeGroup_ends req).mono ?_ herr)
    rintro g s' ⟨_, nodeGroups, hins, rfl⟩
    exact .pure (hs.grow rfl rfl rfl (fun _ h => h) (fun _ h => (Table.mem_insert hins).mpr (.inl h)) fun _ h => h)
  | createNode req =>
    refine .bind ((FleetService.createNode_ends req).mono ?_ herr)
    rintro n s' ⟨_, nodes, hins, rfl⟩
    exact .pure (hs.grow rfl rfl rfl (fun _ h => h) (fun _ h => h) fun _ h => (Table.mem_insert hins).mpr (.inl h))
  | _ => exact absurd hc id

theorem ReferenceCall.run_consistent (c : ReferenceCall) (hs : s.Consistent) (hc : c.SameTenant s) :
    Ends v s c.run (fun _ => Store.Consistent) fun _ => Store.Consistent := by
  cases c with
  | createRoute req => exact .andThen (createRoute_consistent hs hc) fun _ _ h => .pure h
  | updateRoute id req => exact .andThen (updateRoute_consistent hs hc) fun _ _ h => .pure h
  | createZone req => exact .andThen (createZone_consistent hs hc) fun _ _ h => .pure h
  | updateZone id req => exact .andThen (updateZone_consistent hs hc) fun _ _ h => .pure h
  | addNodeToGroup groupID nodeID => exact addNodeToGroup_consistent hs hc
  | _ => exact createRow_consistent hs trivial

end

/-- From the empty store, along any session whose calls refer to rows of the right tenant:
a route and its gateway, a zone or route and its node group have the same tenant, and a
node in a group has the group's tenant or none. -/
theorem references_same_tenant {v : Env} {tick : Nat} (cs : List ReferenceCall)
    (hcs : Session.Along ReferenceCall.run v (fun c w => c.SameTenant w.store) cs ⟨tick, Store.empty⟩) :
    (Session.final ReferenceCall.run v cs ⟨tick, Store.empty⟩).store.Consistent :=
  Session.final_invariant (I := fun w => w.store.Consistent) (fun c _ hw hc => (c.run_consistent hw hc).exec_view rfl)
    Store.consistent_empty hcs

namespace Sample

def twoTenants : List ReferenceCall :=
  [.createTenant { name := "a", slug := "aa" }, .createTenant { name := "b", slug := "bb" },
   .createGateway { tenantID := 1001, name := "gw" }, .createNodeGroup { tenantID := 1001, name := "g" },
   .createNode { tenantID := some 1001, name := "n", hostname := "n", publicIP := "192.0.2.1" }]

def routeOf (tenantID : ID) : RouteService.CreateRouteRequest :=
  { tenantID, name := "r", protocol := .tcp, entryIP := "192.0.2.7", entryPort := some 80, gatewayID := 1006
    destinationIP := "10.0.0.1", destinationPort := some 80, nodeGroupID := some 1008 }

end Sample

theorem references_same_tenant_kept :
    let cs := Sample.twoTenants ++ [.createRoute (Sample.routeOf 1001), .addNodeToGroup 1008 1010]
    let w := Session.final ReferenceCall.run Env.calm cs ⟨0, Store.empty⟩
    w.store.routes.rows.length = 1 ∧ w.store.memberships.rows = [(1008, 1010)] ∧ w.store.Consistent := by
  intro cs w
  have hcs : Session.Along ReferenceCall.run Env.calm (fun c w => c.SameTenant w.store) cs ⟨0, Store.empty⟩ := by
    decide
  have hrows : w.store.routes.rows.length = 1 ∧ w.store.memberships.rows = [(1008, 1010)] := by decide
  exact ⟨hrows.1, hrows.2, references_same_tenant cs hcs⟩

/-- A route of the second tenant goes through the gateway of the first and is assigned to
its group. -/
theorem foreign_gateway_routed :
    let w := Session.final ReferenceCall.run Env.calm (Sample.twoTenants ++ [.createRoute (Sample.routeOf 1004)])
      ⟨0, Store.empty⟩
    ∃ r ∈ w.store.routes, ∃ gw ∈ w.store.gateways, ∃ g ∈ w.store.nodeGroups,
      r.gatewayID = gw.id ∧ r.nodeGroupID = some g.id ∧ r.tenantID ≠ gw.tenantID ∧ r.tenantID ≠ g.tenantID := by
  decide

end EdgeFabric
