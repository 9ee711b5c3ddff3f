/-
The route service (`internal/route`): validation, create and update, and the
configuration a node and a gateway poll. That the gateway of a route exists is
checked; whose gateway it is, is not.
-/
import EdgeFabric.Store.Services
import EdgeFabric.Store.Fleet
import EdgeFabric.Lib.IP

namespace EdgeFabric

/-- `net.ParseIP(text) != nil`. -/
def isIP (text : String) : Bool := (IP.parse text.toList).isSome

theorem nodeConfig_ends {α β L : Type} {v : Env} {s : Store} {nodeID : ID} {I : L → Prop} {Q : β → Prop}
    {list : NodeGroup → Store → Except Err (List α × Nat)} {message : NodeGroup → String}
    {add : NodeGroup → L → α → Reads L} {start : L} {rows : L → β} (h0 : I start)
    (hround : ∀ group ∈ s.nodeGroups, (group.id, nodeID) ∈ s.memberships → ∀ page, list group s = .ok page →
      ∀ l, I l → ∀ a ∈ page.1, Ends v s (add group l a).1 (fun l' s' => s' = s ∧ I l') fun _ s' => s' = s)
    (hrows : ∀ l, I l → Q (rows l)) :
    Ends v s (do
      let _ ← (read (Store.getNode nodeID)).under "get node"
      let groups ← (read (Store.listNodeGroupsByNode nodeID)).under "list node groups"
      let l ← Query.fold (fun l group => do
        let page ← (read (list group)).under (message group)
        Query.fold (add group) l page.1) start groups
      return rows l : Reads β).1 (fun b s' => s' = s ∧ Q b) fun _ s' => s' = s := by
  refine .bind (.mapError (Ends.reads (fun _ => ?_) fun _ => rfl))
  refine .bind (.mapError (Ends.read (fun groups hgroups => ?_) fun _ => rfl))
  refine .andThen (Prog.Ensures.fold (fun l hl group hg => ?_) h0) fun l s' h => ?_
  · obtain ⟨hgroup, hmember⟩ := (Store.listNodeGroupsByNode_ok hgroups group).mp hg
    refine .bind (.mapError (Ends.read (fun page hpage => ?_) fun _ => rfl))
    exact .fold (hround group hgroup hmember page hpage) hl
  · obtain ⟨rfl, hl⟩ := h
    exact .pure ⟨rfl, hrows l hl⟩

namespace RouteService

structure CreateRouteRequest where
  tenantID : ID
  name : String
  protocol : RouteProtocol
  entryIP : String
  entryPort : Option Int := none
  gatewayID : ID
  destinationIP : String
  destinationPort : Option Int := none
  nodeGroupID : Option ID := none
  deriving DecidableEq, Repr

structure UpdateRouteRequest where
  name : Option String := none
  protocol : Option RouteProtocol := none
  entryIP : Option String := none
  entryPort : Option Int := none
  gatewayID : Option ID := none
  destinationIP : Option String := none
  destinationPort : Option Int := none
  nodeGroupID : Option ID := none
  status : Option RouteStatus := none
  clearNodeGroup : Bool := false
  deriving DecidableEq, Repr

/-- A port is forbidden for icmp and required for the other protocols. -/
def validatePort (field : String) (protocol : RouteProtocol) (port : Option Int) : Except Err Unit :=
  if protocol = .icmp then
    if port ≠ none then .error (.text (field ++ " must not be set for icmp protocol")) else .ok ()
  else
    match port with
    | none => .error (.text (field ++ " is required for " ++ protocol ++ " protocol"))
    | some p =>
      if p < 1 ∨ p > 65535 then .error (.text (field ++ " must be 1-65535, got " ++ toString p)) else .ok ()

def validateRoute (r : Route) : Except Err Unit := do
  if r.name = "" then .error (.text "route name is required")
  else if r.name.utf8ByteSize > 255 then .error (.text "route name too long (max 255 characters)")
  else if r.protocol ∉ [RouteProtocol.tcp, .udp, .icmp, .all] then
    .error (.text ("invalid protocol: " ++ quote r.protocol ++ " (must be tcp, udp, icmp, or all)"))
  else if ¬ isIP r.entryIP then .error (.text ("invalid entry_ip: " ++ quote r.entryIP))
  else
    validatePort "entry_port" r.protocol r.entryPort
    if ¬ isIP r.destinationIP then .error (.text ("invalid destination_ip: " ++ quote r.destinationIP))
    else validatePort "destination_port" r.protocol r.destinationPort

def createRoute (req : CreateRouteRequest) : Service Route := do
  let id ← newID
  let r : Route :=
    { id, tenantID := req.tenantID, name := req.name, protocol := req.protocol, entryIP := req.entryIP
      entryPort := req.entryPort, gatewayID := req.gatewayID, destinationIP := req.destinationIP
      destinationPort := req.destinationPort, nodeGroupID := req.nodeGroupID, status := "", createdAt := 0
      updatedAt := 0 }
  Query.ofExcept ((validateRoute r).mapError (.under "invalid route"))
  let _ ← (read (Store.getGateway req.gatewayID)).under "gateway lookup"
  (save (Store.createRoute r)).under "create route"

def getRoute (id : ID) : Reads Route := read (Store.getRoute id)

def listRoutes (tenantID : ID) (p : ListParams) : Reads (List Route × Nat) := read (Store.listRoutes tenantID p)

def UpdateRouteRequest.apply (req : UpdateRouteRequest) (r : Route) : Route :=
  { r with
    name := req.name.getD r.name
    protocol := req.protocol.getD r.protocol
    entryIP := req.entryIP.getD r.entryIP
    entryPort := req.entryPort.or r.entryPort
    gatewayID := req.gatewayID.getD r.gatewayID
    destinationIP := req.destinationIP.getD r.destinationIP
    destinationPort := req.destinationPort.or r.destinationPort
    nodeGroupID := if req.clearNodeGroup then none else req.nodeGroupID.or r.nodeGroupID
    status := req.status.getD r.status }

def checkGateway : Option ID → Reads Unit
  | none => pure ()
  | some id => do
    let _ ← (read (Store.getGateway id)).under "gateway lookup"

def updateRoute (id : ID) (req : UpdateRouteRequest) : Service Route := do
  let r ← read (Store.getRoute id)
  let r := req.apply r
  Query.ofExcept ((validateRoute r).mapError (.under "invalid route"))
  checkGateway req.gatewayID
  (save (Store.updateRoute r)).under "update route"

def deleteRoute (id : ID) : Service Unit := save fun _ => Store.deleteRoute id

/-! ## Config sync -/

structure RouteWithGateway where
  route : Route
  gatewayWGIP : String
  deriving DecidableEq, Repr

structure ConfigLoop where
  routes : List RouteWithGateway
  seenRoutes : List ID
  gwCache : List (ID × String)

/-- The overlay address, or the public one if there is none. -/
def dialAddress (gw : Gateway) : String := if gw.wireGuardIP = "" then gw.publicIP else gw.wireGuardIP

def gatewayIP (gwCache : List (ID × String)) (id : ID) : Reads String :=
  match gwCache.lookup id with
  | some ip => pure ip
  | none => do return dialAddress (← (read (Store.getGateway id)).under ("get gateway " ++ id.text))

/-- The inner loop's body: routes of the group that are active and not yet listed. -/
def addRoute (group : NodeGroup) (l : ConfigLoop) (r : Route) : Reads ConfigLoop :=
  if r.nodeGroupID = some group.id ∧ r.status = .active ∧ r.id ∉ l.seenRoutes then do
    let gwIP ← gatewayIP l.gwCache r.gatewayID
    return { routes := l.routes ++ [{ route := r, gatewayWGIP := gwIP }], seenRoutes := r.id :: l.seenRoutes
             gwCache := (r.gatewayID, gwIP) :: l.gwCache }
  else pure l

def addGroup (l : ConfigLoop) (group : NodeGroup) : Reads ConfigLoop := do
  let (routes, _) ← (read (Store.listRoutes group.tenantID { limit := 10000 })).under
    ("list routes for group " ++ group.id.text)
  Query.fold (addRoute group) l routes

def getNodeRouteConfig (nodeID : ID) : Reads (List RouteWithGateway) := do
  let _ ← (read (Store.getNode nodeID)).under "get node"
  let groups ← (read (Store.listNodeGroupsByNode nodeID)).under "list node groups"
  let l ← Query.fold addGroup { routes := [], seenRoutes := [], gwCache := [] } groups
  return l.routes

def getGatewayRouteConfig (gatewayID : ID) : Reads (List Route) := do
  let _ ← (read (Store.getGateway gatewayID)).under "get gateway"
  (read (Store.listRoutesByGateway gatewayID)).under "list routes by gateway"

/-! ## What the calls do -/

section
variable {v : Env} {s : Store}

theorem createRoute_ends (req : CreateRouteRequest) :
    Ends v s (createRoute req).1
      (fun r s' => r.tenantID = req.tenantID ∧ r.gatewayID = req.gatewayID ∧ r.nodeGroupID = req.nodeGroupID ∧
        (∃ gw, s.gateways.find r.gatewayID = some gw) ∧ (∀ g ∈ r.nodeGroupID, ∃ row, s.nodeGroups.find g = some row) ∧
        ∃ routes, s.routes.insert r = some routes ∧ s' = { s with routes })
      fun _ s' => s' = s := by
  refine .bind (Ends.newID fun id => ?_)
  refine .bind (.ofExcept (fun _ _ => ?_) fun _ _ => rfl)
  refine .bind (.mapError (Ends.read (fun gw hgw => ?_) fun _ => rfl))
  refine .mapError (Ends.save (fun t r s' h => ?_) fun _ => rfl)
  obtain ⟨rfl, routes, hins, rfl⟩ := insertInto_ok h
  obtain ⟨_, _, hrefs⟩ := bind_ok.mp (insertInto_refs h)
  obtain ⟨_, _, hgroup⟩ := bind_ok.mp hrefs
  refine ⟨rfl, rfl, rfl, ⟨gw, selectRow_ok.mp hgw⟩, fun g hg => ?_, routes, hins, rfl⟩
  exact requireRow?_ok (hg ▸ hgroup)

theorem updateRoute_ends (id : ID) (req : UpdateRouteRequest) :
    Ends v s (updateRoute id req).1
      (fun r s' => ∃ old t routes, s.routes.find id = some old ∧ r = { req.apply old with updatedAt := t } ∧
        (∃ gw, s.gateways.find r.gatewayID = some gw) ∧ (∀ g ∈ r.nodeGroupID, ∃ row, s.nodeGroups.find g = some row) ∧
        s.routes.set r = some routes ∧ s' = { s with routes })
      fun _ s' => s' = s := by
  refine .bind (Ends.read (fun old hold => ?_) fun _ => rfl)
  refine .bind (.ofExcept (fun _ _ => ?_) fun _ _ => rfl)
  refine .bind (Ends.reads (fun _ => ?_) fun _ => rfl)
  refine .mapError (Ends.save (fun t r s' h => ?_) fun _ => rfl)
  obtain ⟨rfl, old', routes, hold', hset, rfl⟩ := updateIn_ok h
  obtain ⟨_, hgw, hgroup⟩ := bind_ok.mp (updateIn_refs h)
  obtain rfl := selectRow_unique hold hold'
  exact ⟨old', t, routes, selectRow_ok.mp hold, rfl, requireRow_ok hgw, fun g hg => requireRow?_ok (hg ▸ hgroup),
    hset, rfl⟩

theorem deleteRoute_ends (id : ID) :
    Ends v s (deleteRoute id).1 (fun _ s' => ∃ routes, s.routes.erase id = some routes ∧ s' = { s with routes })
      fun _ s' => s' = s := by
  refine Ends.save (fun _ _ s' h => ?_) fun _ => rfl
  obtain ⟨routes, herase, rfl, _⟩ := deleteFrom_ok h
  exact ⟨routes, herase, rfl⟩

/-- What a node is told: routes of groups it is in, with the addresses of their
gateways. -/
structure Configured (s : Store) (nodeID : ID) (c : RouteWithGateway) : Prop where
  mem : c.route ∈ s.routes
  active : c.route.status = .active
  group : ∃ g ∈ s.nodeGroups, (g.id, nodeID) ∈ s.memberships ∧ c.route.nodeGroupID = some g.id ∧
    c.route.tenantID = g.tenantID
  gateway : ∃ gw ∈ s.gateways, gw.id = c.route.gatewayID ∧ c.gatewayWGIP = dialAddress gw

structure ConfigLoop.Inv (s : Store) (nodeID : ID) (l : ConfigLoop) : Prop where
  routes : ∀ c ∈ l.routes, Configured s nodeID c
  seen : ∀ c ∈ l.routes, c.route.id ∈ l.seenRoutes
  nodup : (l.routes.map fun c => c.route.id).Nodup
  cache : ∀ id ip, l.gwCache.lookup id = some ip → ∃ gw ∈ s.gateways, gw.id = id ∧ ip = dialAddress gw

theorem gatewayIP_ends {nodeID : ID} {l : ConfigLoop} (hl : l.Inv s nodeID) (id : ID) :
    Ends v s (gatewayIP l.gwCache id).1 (fun ip s' => s' = s ∧ ∃ gw ∈ s.gateways, gw.id = id ∧ ip = dialAddress gw)
      fun _ s' => s' = s := by
  unfold gatewayIP
  split
  · next ip hip => exact .pure ⟨rfl, hl.cache id ip hip⟩
  · refine .bind (.mapError (Ends.read (fun gw hgw => ?_) fun _ => rfl))
    obtain ⟨hmem, hid⟩ := Table.find_eq_some.mp (selectRow_ok.mp hgw)
    exact .pure ⟨rfl, gw, hmem, hid, rfl⟩

theorem addRoute_ends {nodeID : ID} {group : NodeGroup} {l : ConfigLoop} {r : Route} (hl : l.Inv s nodeID)
    (hgroup : group ∈ s.nodeGroups) (hmember : (group.id, nodeID) ∈ s.memberships) (hr : r ∈ s.routes)
    (htenant : r.tenantID = group.tenantID) :
    Ends v s (addRoute group l r).1 (fun l' s' => s' = s ∧ l'.Inv s nodeID) fun _ s' => s' = s := by
  unfold addRoute
  split
  · next hkeep =>
    refine .andThen (gatewayIP_ends hl r.gatewayID) ?_
    rintro ip s' ⟨rfl, gw, hgw, hid, hip⟩
    refine .pure ⟨rfl, ⟨List.forall_mem_concat hl.routes ?_,
      List.forall_mem_concat (fun c hc => List.mem_cons_of_mem _ (hl.seen c hc)) List.mem_cons_self, ?_,
      fun id ip' h => ?_⟩⟩
    · exact ⟨hr, hkeep.2.1, ⟨group, hgroup, hmember, hkeep.1, htenant⟩, ⟨gw, hgw, hid, hip⟩⟩
    · -- a route that was listed has been seen
      have hnew : r.id ∉ l.routes.map fun c => c.route.id := fun hmem => by
        obtain ⟨c, hc, hid⟩ := List.mem_map.mp hmem
        exact hkeep.2.2 (hid ▸ hl.seen c hc)
      rw [List.map_append]
      exact hl.nodup.append (List.nodup_singleton _) (by simpa using hnew)
    · rw [List.lookup_cons] at h
      split at h
      · next heq =>
        obtain rfl : id = r.gatewayID := by simpa using heq
        cases h
        exact ⟨gw, hgw, hid, hip⟩
      · exact hl.cache id ip' h
  · exact .pure ⟨rfl, hl⟩

theorem getNodeRouteConfig_ends (nodeID : ID) :
    Ends v s (getNodeRouteConfig nodeID).1
      (fun cs s' => s' = s ∧ (∀ c ∈ cs, Configured s nodeID c) ∧ (cs.map fun c => c.route.id).Nodup)
      fun _ s' => s' = s := by
  refine nodeConfig_ends (I := ConfigLoop.Inv s nodeID) ⟨by simp, by simp, by simp, by simp⟩
    (fun group hgroup hmember page hpage l hl r hr => ?_) fun l hl => ⟨hl.routes, hl.nodup⟩
  obtain ⟨hmem, htenant⟩ := Store.listRoutes_ok hpage r hr
  exact addRoute_ends hl hgroup hmember hmem htenant

theorem getGatewayRouteConfig_ends (gatewayID : ID) :
    Ends v s (getGatewayRouteConfig gatewayID).1
      (fun rs s' => s' = s ∧ (∀ r, r ∈ rs ↔ r ∈ s.routes ∧ r.gatewayID = gatewayID ∧ r.status = .active) ∧
        (rs.map Route.id).Nodup)
      fun _ s' => s' = s := by
  refine .bind (.mapError (Ends.reads (fun _ => ?_) fun _ => rfl))
  refine .mapError (Ends.read (fun rs hrs => ?_) fun _ => rfl)
  cases hrs
  refine ⟨rfl, fun r => by simp [Table.mem_def], ?_⟩
  have hperm : (byName Route.name (s.routes.rows.filter fun r => r.gatewayID = gatewayID ∧ r.status = .active)).Perm
      (s.routes.rows.filter fun r => r.gatewayID = gatewayID ∧ r.status = .active) := List.perm_insertionSort _ _
  exact (hperm.map _).nodup_iff.mpr (s.routes.nodup.sublist (List.filter_sublist.map _))

theorem getGatewayRouteConfig_returns (hv : ∀ t, v.fault t = none) {gw : Gateway} (hgw : gw ∈ s.gateways) :
    Ends v s (getGatewayRouteConfig gw.id).1 (fun _ _ => True) fun _ _ => False := by
  have hget : Store.getGateway gw.id s = .ok gw := selectRow_ok.mpr (Table.find_eq_some.mpr ⟨hgw, rfl⟩)
  refine .bind (.mapError (Ends.read_ok hv hget ?_))
  exact .mapError (Ends.read_ok hv rfl trivial)

end

end RouteService
end EdgeFabric
