/-
The handlers of the fleet (`internal/api/v1`: `node.go`, `gateway.go`,
`nodegroup.go`, `sshkey.go`, `provisioning.go`, `enrollment.go`, `node_config.go`,
`gateway_config.go`, `node_networking.go`, `wireguard.go`).

The handlers of nodes and gateways look at the tenant of the row they load; the
others rely on the permission alone.
-/
import EdgeFabric.Api.Middleware
import EdgeFabric.Provisioning.Rotation
import EdgeFabric.Provisioning.Service

namespace EdgeFabric

/-! ## Nodes and gateways -/

/-- The handler of a resource `α` that belongs to a tenant, created from a `β` and updated by
a `γ`. -/
structure Owned (α β γ : Type) where
  what : String
  rbac : Resource
  key : String
  datum : α → Datum
  id : α → ID
  tenantID : α → Option ID
  inTenant : ID → β → β
  create : β → Service α
  get : ID → Reads α
  update : ID → γ → Service α
  delete : ID → Service Unit
  recordHeartbeat : ID → Service Unit
  /-- what the audit log says of a new row -/
  created : α → List (String × String)

namespace Owned
variable {α β γ : Type} (h : Owned α β γ)

/-- The row of the path, if the caller may see it. -/
def load (c : Caller) (raw : String) : Viewer (ID × α) := do
  let id ← parseID "id" raw
  let a ← (h.get id).answering (missing h.what ("failed to get " ++ h.what))
  require (canAccessTenant c.claims (h.tenantID a)) (.notFound (h.what ++ " not found"))
  return (id, a)

/-- A caller with a tenant creates in that tenant, whatever the request says. -/
def handleCreate (c : Caller) (body : Decoded β) : Handler Reply := do
  let req ← decode body
  let req := match c.claims.tenantID with
    | some tenantID => h.inTenant tenantID req
    | none => req
  let a ← (h.create req).answering (takenOrBad (h.what ++ " already exists"))
  c.log "create" h.what (h.created a)
  return .created (h.datum a)

def handleGet (c : Caller) (raw : String) : Viewer Reply := do
  let (_, a) ← h.load c raw
  return .ok (h.datum a)

def handleUpdate (c : Caller) (raw : String) (body : Decoded γ) : Handler Reply := do
  let (id, _) ← h.load c raw
  let req ← decode body
  let a ← (h.update id req).answering (missingOrBad h.what)
  c.log "update" h.what [(h.key, (h.id a).text)]
  return .ok (h.datum a)

def handleDelete (c : Caller) (raw : String) : Handler Reply := do
  let (id, _) ← h.load c raw
  (h.delete id).answering (missing h.what ("failed to delete " ++ h.what))
  c.log "delete" h.what [(h.key, id.text)]
  return .noContent

def handleHeartbeat (c : Caller) (raw : String) : Handler Reply := do
  let (id, _) ← h.load c raw
  (h.recordHeartbeat id).answering (missing h.what "failed to record heartbeat")
  return .ok (.status "ok")

end Owned

def NodeHandler : Owned Node FleetService.CreateNodeRequest FleetService.UpdateNodeRequest where
  what := "node"
  rbac := .node
  key := "node_id"
  datum := .node
  id := Node.id
  tenantID := Node.tenantID
  inTenant tenantID req := { req with tenantID := some tenantID }
  create := FleetService.createNode
  get := FleetService.getNode
  update := FleetService.updateNode
  delete := FleetService.deleteNode
  recordHeartbeat := FleetService.recordNodeHeartbeat
  created n := [("name", n.name), ("node_id", n.id.text)]

/-- `NodeHandler.List`. With a cursor, a full page says where the next one starts. -/
def NodeHandler.list (c : Caller) (q : ListQuery) : Viewer Reply := do
  let params := parseListParams q
  let (nodes, total) ← (FleetService.listNodes c.claims.tenantID params).answering (failing "failed to list nodes")
  match nodes.getLast? with
  | some last =>
    if params.cursor ≠ .absent ∧ nodes.length = params.limit then
      return { status := 200
               body := .list (nodes.map .node) total 0 params.limit (.at last.createdAt last.id.text) }
    else return .list .node nodes total params
  | none => return .list .node nodes total params

def GatewayHandler : Owned Gateway FleetService.CreateGatewayRequest FleetService.UpdateGatewayRequest where
  what := "gateway"
  rbac := .gateway
  key := "gateway_id"
  datum g := .gateway g.json
  id := Gateway.id
  tenantID g := some g.tenantID
  inTenant tenantID req := { req with tenantID }
  create := FleetService.createGateway
  get := FleetService.getGateway
  update := FleetService.updateGateway
  delete := FleetService.deleteGateway
  recordHeartbeat := FleetService.recordGatewayHeartbeat
  created g := [("gateway_id", g.id.text), ("name", g.name)]

def GatewayHandler.list (c : Caller) : ListQuery → Viewer Reply :=
  listResources "gateways" (FleetService.listGateways c.claims.tenantID) fun g => .gateway g.json

/-! ## Node groups -/

namespace NodeGroupHandler

def create (c : Caller) (body : Decoded FleetService.CreateNodeGroupRequest) : Handler Reply := do
  let req ← decode body
  let g ← (FleetService.createNodeGroup { req with tenantID := c.claims.tenantID.getD req.tenantID }).answering
    (takenOrBad "node group already exists")
  c.log "create" "node_group" [("group_id", g.id.text), ("name", g.name)]
  return .created (.nodeGroup g)

/-- The group of the path, if it is in the tenant of the caller. -/
def load (c : Caller) (raw : String) : Viewer (ID × NodeGroup) := do
  let id ← parseID "id" raw
  let g ← (FleetService.getNodeGroup id).answering (missing "node group" "failed to get node group")
  require (canAccessTenantVal c.claims g.tenantID) (.notFound "node group not found")
  return (id, g)

def get (c : Caller) (raw : String) : Viewer Reply := do
  let (_, g) ← load c raw
  return .ok (.nodeGroup g)

/-- Whose groups are listed: a superuser names the tenant in the query. -/
def listTenant (c : Caller) (tenantID : String) : Except Reply ID :=
  match c.claims.tenantID with
  | some own => .ok own
  | none =>
    if tenantID = "" then .error (.badRequest "tenant_id query parameter required for superuser")
    else
      match Uuid.parse tenantID.toList with
      | some id => .ok id
      | none => .error (.badRequest "invalid tenant_id")

def list (c : Caller) (tenantID : String) (q : ListQuery) : Viewer Reply := do
  let tenantID ← listTenant c tenantID
  listResources "node groups" (FleetService.listNodeGroups tenantID) .nodeGroup q

def delete (c : Caller) (raw : String) : Handler Reply := do
  let (id, _) ← load c raw
  (FleetService.deleteNodeGroup id).answering (failing "failed to delete node group")
  c.log "delete" "node_group" [("group_id", id.text)]
  return .noContent

def addNode (c : Caller) (group node : String) : Handler Reply := do
  let groupID ← parseID "id" group
  let nodeID ← parseID "nodeId" node
  (FleetService.addNodeToGroup groupID nodeID).answering fun e =>
    if e.is .notFound then .notFound "group or node not found"
    else if e.is .alreadyExists then .conflict "node already in group"
    else .internalError "failed to add node to group"
  c.log "update" "node_group" [("action", "add_node"), ("group_id", groupID.text), ("node_id", nodeID.text)]
  return .noContent

def removeNode (c : Caller) (group node : String) : Handler Reply := do
  let groupID ← parseID "id" group
  let nodeID ← parseID "nodeId" node
  (FleetService.removeNodeFromGroup groupID nodeID).answering (missing "membership" "failed to remove node from group")
  c.log "update" "node_group" [("action", "remove_node"), ("group_id", groupID.text), ("node_id", nodeID.text)]
  return .noContent

end NodeGroupHandler

/-! ## SSH keys -/

namespace SSHKeyHandler

structure CreateRequest where
  name : String
  publicKey : String
  privateKey : String
  deriving DecidableEq, Repr

/-- The checks of `Create`. -/
def checkCreate (req : CreateRequest) : Except Reply Unit := do
  require (req.name ≠ "") (.badRequest "name is required")
  require (req.publicKey ≠ "") (.badRequest "public_key is required")
  require (req.privateKey ≠ "") (.badRequest "private_key is required")

/-- `Create`. The private key is stored as it was sent. -/
def create (c : Caller) (body : Decoded CreateRequest) : Handler Reply := do
  let req ← decode body
  checkCreate req
  let id ← newID.answering (failing "failed to create SSH key")
  let k ← (FleetService.createSSHKey
    { id, name := req.name, publicKey := req.publicKey, privateKey := req.privateKey
      fingerprint := "SHA256:placeholder", createdAt := 0, lastRotatedAt := 0 }).answering fun e =>
    if e.is .alreadyExists then .conflict "SSH key already exists" else .internalError "failed to create SSH key"
  c.logGlobal "create" "ssh_key" [("key_id", k.id.text), ("name", k.name)]
  return .created (.sshKey k.json)

def get : String → Viewer Reply := getResource "SSH key" FleetService.getSSHKey fun k => .sshKey k.json

def list : ListQuery → Viewer Reply := listResources "SSH keys" FleetService.listSSHKeys fun k => .sshKey k.json

def delete (c : Caller) : String → Handler Reply :=
  deleteResource "SSH key" FleetService.deleteSSHKey fun id => c.logGlobal "delete" "ssh_key" [("key_id", id.text)]

def rotate (c : Caller) (raw : String) : Handler Reply := do
  let id ← parseID "id" raw
  let key ← (rotateSSHKey id).answering (missing "SSH key" "failed to rotate SSH key")
  c.logGlobal "rotate" "ssh_key" [("fingerprint", key.fingerprint), ("key_id", id.text)]
  return .ok (.sshKey key.json)

def deploy (c : Caller) (raw : String) : Handler Reply := do
  let id ← parseID "id" raw
  (deploySSHKey sshClient id).answering (missing "SSH key" "failed to deploy SSH key")
  c.logGlobal "deploy" "ssh_key" [("key_id", id.text)]
  return .ok (.status "deployed")

end SSHKeyHandler

/-! ## Provisioning -/

namespace ProvisioningHandler

/-- `Action`. The pipeline runs in the background; nothing is heard of it. -/
def action (p : Provisioner) (c : Caller) (raw : String) (action : ProvisioningAction) : Handler Reply := do
  let nodeID ← parseID "id" raw
  let (job, node) ← (ProvisioningService.startAction nodeID c.claims.userID action).answering fun e =>
    if e.is .notFound then .notFound "node not found"
    else if e.is .conflict then .conflict e.message
    else .badRequest e.message
  c.log action.text "provisioning_job" [("job_id", job.id.text), ("node_id", nodeID.text)]
  let _ ← (ProvisioningService.runPipeline p job node (pipelineFor action)).tried
  return { status := 202, body := .object (.job job) }

def listNodeJobs (raw : String) (q : ListQuery) : Viewer Reply := do
  let nodeID ← parseID "id" raw
  listResources "jobs" (ProvisioningService.listJobs (some nodeID)) .job q

def getJob : String → Viewer Reply := getResource "job" ProvisioningService.getJob .job

/-- `GenerateToken`. A node without a tenant gets a token of the zero tenant. -/
def generateToken (c : Caller) (raw : String) : Handler Reply := do
  let nodeID ← parseID "id" raw
  let node ← (FleetService.getNode nodeID).answering (missing "node" "failed to get node")
  let token ← (ProvisioningService.generateEnrollmentToken (node.tenantID.getD 0) nodeID).answering
    (failing "failed to generate enrollment token")
  c.log "generate_enrollment_token" "node" [("node_id", nodeID.text)]
  return .ok (.enrollmentToken token.token token.expiresAt)

end ProvisioningHandler

namespace EnrollmentHandler

structure EnrollRequest where
  token : String
  deriving DecidableEq, Repr

/-- The claims of a node agent: the node in the place of the user, and a role that changes
nothing. -/
def nodeClaims (r : EnrollmentResult) : Claims := { userID := r.nodeID, tenantID := r.tenantID, role := .readOnly }

/-- `Enroll`, which needs no session: the enrollment token stands for one. -/
def enroll (ts : TokenService) (p : Provisioner) (remoteAddr : String) (body : Decoded EnrollRequest) :
    Handler Response := do
  let req ← decode body
  require (req.token ≠ "") (.badRequest "token is required")
  match ← (ProvisioningService.completeEnrollment p req.token).tried with
  | .error e =>
    auditLog none none "enrollment_failed" "node" (some [("error", e.message)]) remoteAddr
    return { reply := if e.is .notFound then .notFound "invalid enrollment token"
      else if e.is .conflict then .conflict e.message
      else .internalError "enrollment failed" }
  | .ok result =>
    let apiToken ← (ts.issue (nodeClaims result)).answering (failing "failed to issue api token")
    auditLog none none "enrollment_completed" "node" (some [("node_id", result.nodeID.text)]) remoteAddr
    return { reply := .ok (.enrolled result.nodeID result.wireGuardIP), token := some apiToken }

theorem enroll_ends {ts : TokenService} {v : Env} {s : Store} (p : Provisioner) (remoteAddr : String)
    (body : Decoded EnrollRequest) :
    Ends v s (enroll ts p remoteAddr body).1
      (fun resp s' => s'.accounts = s.accounts ∧ resp.session = none ∧ ∀ token, resp.token = some token →
        ∃ n ∈ s.nodes, (∃ req, body = .ok req ∧ s.EnrollmentFor req.token n.id) ∧
          ∃ t, token = ts.token v { userID := n.id, tenantID := n.tenantID, role := .readOnly } t)
      fun _ s' => s'.accounts = s.accounts := by
  suffices h : Ends v s (enroll ts p remoteAddr body).1
      (fun resp _ => resp.session = none ∧ ∀ token, resp.token = some token →
        ∃ n ∈ s.nodes, (∃ req, body = .ok req ∧ s.EnrollmentFor req.token n.id) ∧
          ∃ t, token = ts.token v { userID := n.id, tenantID := n.tenantID, role := .readOnly } t)
      fun _ _ => True from
    ((Ends.accounts (enroll ts p remoteAddr body)).and h).mono (fun _ _ h => h) fun _ _ h => h.1
  refine .bind (.ofExcept (fun req hreq => ?_) fun _ _ => trivial)
  have hbody := decode_ok.mp hreq
  refine .bind (.ofExcept (fun _ _ => ?_) fun _ _ => trivial)
  refine .bind (.mapError (.attempt ((completeEnrollment_node p req.token).mono
    (fun result s' h => ?_) fun e s' _ => ?_)))
  · obtain ⟨n, hn, hfor, hid, htenant⟩ := h
    refine .bind (.mapError (TokenService.issue_ends fun t => .bind (auditLog_ends fun auditEvents => .pure ⟨rfl, ?_⟩)))
    intro token htoken
    refine ⟨n, hn, ⟨req, hbody, hfor⟩, t, ?_⟩
    rw [← Option.some.inj htoken, nodeClaims, hid, htenant]
  · exact .bind (auditLog_ends fun auditEvents => .pure ⟨rfl, nofun⟩)

theorem enroll_issues {ts : TokenService} {v : Env} {w : World} (p : Provisioner) (remoteAddr : String)
    (body : Decoded EnrollRequest) :
    (enroll ts p remoteAddr body).1.Ensures id v w
      (fun resp w' => ∀ token, resp.token = some token → ∃ n ∈ w.store.nodes, ∃ t ip, w.tick ≤ t ∧ t < w'.tick ∧
        resp.reply = .ok (.enrolled n.id ip) ∧
        token = ts.token v { userID := n.id, tenantID := n.tenantID, role := .readOnly } (v.now t))
      fun _ _ => True := by
  refine .bind (.ofExcept (fun req _ => ?_) fun _ _ => trivial)
  refine .bind (.ofExcept (fun _ _ => ?_) fun _ _ => trivial)
  have hcomplete := (Ends.whole (v := v) (w := w) (completeEnrollment_node p req.token)).and
    (Ends.later (completeEnrollment_later p req.token))
  refine .bind (.mapError (.attempt (hcomplete.mono (fun result w₁ h => ?_) fun e w₁ _ => ?_)))
  · obtain ⟨⟨n, hn, -, hid, htenant⟩, hle⟩ := h
    refine .bind (.mapError (TokenService.issue_whole.mono (fun token w₂ h => ?_) fun _ _ _ => trivial))
    obtain ⟨rfl, rfl⟩ := h
    refine .bind ((Ends.later auditLog_later).mono (fun _ w₃ hlt => .pure ?_) fun _ _ _ => trivial)
    intro token htoken
    refine ⟨n, hn, w₁.tick, result.wireGuardIP, hle, hlt, by rw [hid], ?_⟩
    rw [← Option.some.inj htoken, nodeClaims, hid, htenant]
  · exact .bind (.of_forall (fun _ _ => .pure nofun) fun _ _ => trivial)

end EnrollmentHandler

/-! ## Configurations -/

inductive NodeConfig where
  | wireGuard | bgp | dns | cdn | routes
  deriving DecidableEq, Repr

namespace NodeConfigHandler

def config (hub : WireGuardHub) (nodeID : ID) : NodeConfig → Viewer Datum
  | .wireGuard => do
    let conf ← (generateNodeConfig hub nodeID).answering fun e =>
      if e.is .notFound then .notFound "node not found or wireguard not configured"
      else .internalError "failed to generate wireguard config"
    return .wireGuardConfig conf
  | .bgp => do
    let (sessions, _) ← (NetworkingService.listBGPSessions nodeID { limit := 1000 }).answering
      (failing "failed to list bgp sessions")
    return .bgpConfig sessions
  | .dns => do
    return .dnsConfig (← (DNSService.getNodeDNSConfig nodeID).answering (missing "node" "failed to get dns config"))
  | .cdn => do
    return .cdnConfig (← (CDNService.getNodeCDNConfig nodeID).answering (missing "node" "failed to get cdn config"))
  | .routes => do
    return .nodeRoutes
      (← (RouteService.getNodeRouteConfig nodeID).answering (missing "node" "failed to get route config"))

/-- `GetWireGuardConfig`, `GetBGPConfig` and so on. That the node has fetched its
configuration is recorded if it can be. -/
def get (hub : WireGuardHub) (raw : String) (part : NodeConfig) : Handler Reply := do
  let id ← parseID "id" raw
  let conf ← config hub id part
  let _ ← (save (Store.updateNodeConfigSync id)).tried
  return .ok conf

end NodeConfigHandler

def GatewayConfigHandler.getRouteConfig (raw : String) : Handler Reply := do
  let id ← parseID "id" raw
  let routes ← (RouteService.getGatewayRouteConfig id).answering (missing "gateway" "failed to get route config")
  let _ ← (save (Store.updateGatewayConfigSync id)).tried
  return .ok (.gatewayRoutes routes)

def NodeNetworkingHandler.getState (raw : String) : Viewer Reply := do
  let id ← parseID "id" raw
  let state ← (NetworkingService.getNodeNetworkingState id).answering
    (missing "node" "failed to get node networking state")
  return .ok (.networking { state with wireGuardPeer := state.wireGuardPeer.map WireGuardPeer.json })

def WireGuardHandler.listPeers : ListQuery → Viewer Reply :=
  listResources "wireguard peers" NetworkingService.listWireGuardPeers fun p => .wireGuardPeer p.json

end EdgeFabric
