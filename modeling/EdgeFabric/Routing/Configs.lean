/-
The two configurations of a route agree. A node is told a route through its
groups, tenant by tenant, with the address at which the route's gateway is
dialled; the gateway is told it by one query on the routes table. Both read the
same row, so the gateway a node is sent to has been told to expect it.
-/
import EdgeFabric.Route

namespace EdgeFabric
namespace RouteService

/-- **Node and gateway configurations agree**: a route that a node is told is active, is
listed once, comes with the dial address of its gateway, and is listed once, the same
row, in the configuration of that gateway. -/
theorem configs_agree (v : Env) (w w' : World) (nodeID : ID) (cs : List RouteWithGateway)
    (h : (getNodeRouteConfig nodeID).1.exec v w = (.ok cs, w')) (c : RouteWithGateway) (hc : c ∈ cs) :
    c.route.status = .active ∧ (cs.map fun c => c.route.id).count c.route.id = 1 ∧
    (∃ gw ∈ w.store.gateways, gw.id = c.route.gatewayID ∧
      c.gatewayWGIP = if gw.wireGuardIP = "" then gw.publicIP else gw.wireGuardIP) ∧
    ∀ (v' : Env) (w₁ : World), w₁.store = w.store →
      (∀ rs w₂, (getGatewayRouteConfig c.route.gatewayID).1.exec v' w₁ = (.ok rs, w₂) →
        c.route ∈ rs ∧ (rs.map Route.id).count c.route.id = 1) ∧
      ((∀ t, v'.fault t = none) →
        ∃ rs w₂, (getGatewayRouteConfig c.route.gatewayID).1.exec v' w₁ = (.ok rs, w₂)) := by
  obtain ⟨_, hconf, hnodup⟩ := (getNodeRouteConfig_ends nodeID).ok rfl h
  have hlisted := hconf c hc
  obtain ⟨gw, hgw, hid, hip⟩ := hlisted.gateway
  have hcount := List.count_eq_one_of_mem hnodup (List.mem_map.mpr ⟨c, hc, rfl⟩)
  refine ⟨hlisted.active, hcount, ⟨gw, hgw, hid, hip⟩, ?_⟩
  intro v' w₁ hw
  refine ⟨?_, ?_⟩
  · intro rs w₂ hrs
    obtain ⟨_, hmem, hnodup'⟩ := (getGatewayRouteConfig_ends _).ok hw hrs
    have hrow : c.route ∈ rs := (hmem c.route).mpr ⟨hlisted.mem, rfl, hlisted.active⟩
    exact ⟨hrow, List.count_eq_one_of_mem hnodup' (List.mem_map.mpr ⟨c.route, hrow, rfl⟩)⟩
  · intro hv
    have hret := getGatewayRouteConfig_returns (v := v') (s := w₁.store) hv (hw ▸ hgw)
    rw [hid] at hret
    rcases hrun : (getGatewayRouteConfig c.route.gatewayID).1.exec v' w₁ with ⟨rs | rs, w₂⟩
    · exact absurd (hret.error rfl hrun) id
    · exact ⟨rs, w₂, rfl⟩

end RouteService

namespace Sample

def edgeNode : Node := { onlineNode 20 with wireGuardIP := "10.100.0.2" }

def edgeGateway : Gateway := onlineGateway 30 "gw" "10.100.0.9"

def edgeRoute (id : ID) (name entryIP : String) (port : Int) (destinationIP : String) : Route :=
  { id, tenantID := 100, name, protocol := .tcp, entryIP, entryPort := some port, gatewayID := 30, destinationIP
    destinationPort := some 80, nodeGroupID := some 25, status := .active, createdAt := 0, updatedAt := 0 }

/-- A node that two routes enter at, both through one gateway; the second one's entry
port is `port`. -/
def edge (port : Int) : Store :=
  { rented with
    nodes := ⟨[edgeNode], by decide⟩
    nodeGroups := ⟨[group 25 100 "g"], by decide⟩
    memberships := ⟨[(25, 20)], by decide⟩
    gateways := ⟨[edgeGateway], by decide⟩
    routes := ⟨[edgeRoute 41 "a" "192.0.2.7" 80 "10.0.0.1", edgeRoute 42 "b" "192.0.2.8" port "10.0.0.2"],
      by simp [edgeRoute]⟩ }

def edgeConfig (port : Int) : List RouteService.RouteWithGateway :=
  [⟨edgeRoute 41 "a" "192.0.2.7" 80 "10.0.0.1", "10.100.0.9"⟩,
    ⟨edgeRoute 42 "b" "192.0.2.8" port "10.0.0.2", "10.100.0.9"⟩]

end Sample

theorem RouteService.configs_agree_edge :
    ∃ c ∈ Sample.edgeConfig 80, c.gatewayWGIP = "10.100.0.9" ∧
      ∃ rs w₂, (RouteService.getGatewayRouteConfig 30).1.exec Env.calm ⟨0, Sample.edge 80⟩ = (.ok rs, w₂) ∧
        c.route ∈ rs ∧ (rs.map Route.id).count c.route.id = 1 := by
  have hrun : ((RouteService.getNodeRouteConfig 20).1.exec Env.calm ⟨0, Sample.edge 80⟩).1 =
      .ok (Sample.edgeConfig 80) := by
    decide
  obtain ⟨_, _, _, hgateway⟩ := RouteService.configs_agree Env.calm ⟨0, Sample.edge 80⟩ _ 20 _ (Prod.ext hrun rfl)
    ⟨Sample.edgeRoute 42 "b" "192.0.2.8" 80 "10.0.0.2", "10.100.0.9"⟩ (by decide)
  obtain ⟨hlists, hreturns⟩ := hgateway Env.calm ⟨0, Sample.edge 80⟩ rfl
  obtain ⟨rs, w₂, hrs⟩ := hreturns fun _ => rfl
  exact ⟨_, List.mem_cons_of_mem _ List.mem_cons_self, rfl, rs, w₂, hrs, hlists rs w₂ hrs⟩

end EdgeFabric
