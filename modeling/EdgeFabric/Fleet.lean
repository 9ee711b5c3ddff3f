/-
The fleet service (`internal/fleet`): nodes, gateways and node groups. A node may
be put into a group of any tenant, and an update may give it any tenant.
-/
import EdgeFabric.Route

namespace EdgeFabric
namespace FleetService

structure CreateNodeRequest where
  tenantID : Option ID := none
  name : String
  hostname : String
  publicIP : String
  region : String := ""
  provider : String := ""
  sshPort : Int := 0
  sshUser : String := ""
  deriving DecidableEq, Repr

structure UpdateNodeRequest where
  name : Option String := none
  tenantID : Option ID := none
  status : Option NodeStatus := none
  region : Option String := none
  deriving DecidableEq, Repr

structure CreateGatewayRequest where
  tenantID : ID
  name : String
  publicIP : String := ""
  deriving DecidableEq, Repr

structure UpdateGatewayRequest where
  name : Option String := none
  status : Option GatewayStatus := none
  deriving DecidableEq, Repr

structure CreateNodeGroupRequest where
  tenantID : ID
  name : String
  description : String := ""
  deriving DecidableEq, Repr

/-! ## Nodes -/

def checkNode (req : CreateNodeRequest) : Except Err Unit :=
  if req.name = "" then .error (.text "name is required")
  else if req.hostname = "" then .error (.text "hostname is required")
  else if req.publicIP = "" then .error (.text "public_ip is required")
  else if ¬ isIP req.publicIP then .error (.text ("invalid public_ip: " ++ quote req.publicIP))
  else .ok ()

def createNode (req : CreateNodeRequest) : Service Node := do
  Query.ofExcept (checkNode req)
  let id ← newID
  (save (Store.createNode
    { id, tenantID := req.tenantID, name := req.name, hostname := req.hostname, publicIP := req.publicIP
      wireGuardIP := "", wireGuardIPv6 := "", status := .pending, region := req.region, provider := req.provider
      sshPort := if req.sshPort = 0 then 22 else req.sshPort
      sshUser := if req.sshUser = "" then "root" else req.sshUser
      sshKeyID := none, binaryVersion := "", lastHeartbeat := none, lastConfigSync := none, capabilities := []
      metadata := none, createdAt := 0, updatedAt := 0 })).under "create node"

def getNode (id : ID) : Reads Node := read (Store.getNode id)

def listNodes (tenantID : Option ID) (p : ListParams) : Reads (List Node × Nat) := read (Store.listNodes tenantID p)

def UpdateNodeRequest.apply (req : UpdateNodeRequest) (n : Node) : Node :=
  { n with
    name := req.name.getD n.name
    tenantID := req.tenantID.or n.tenantID
    status := req.status.getD n.status
    region := req.region.getD n.region }

def updateNode (id : ID) (req : UpdateNodeRequest) : Service Node := do
  let n ← read (Store.getNode id)
  (save (Store.updateNode (req.apply n))).under "update node"

def deleteNode (id : ID) : Service Unit := save fun _ => Store.deleteNode id

def recordNodeHeartbeat (id : ID) : Service Unit := save (Store.updateNodeHeartbeat id)

/-! ## Gateways -/

def createGateway (req : CreateGatewayRequest) : Service Gateway := do
  Query.ofExcept (if req.name = "" then .error (.text "name is required") else .ok ())
  let id ← newID
  (save (Store.createGateway
    { id, tenantID := req.tenantID, name := req.name, publicIP := req.publicIP, wireGuardIP := ""
      status := .pending, enrollmentToken := "", lastHeartbeat := none, lastConfigSync := none, metadata := none
      createdAt := 0, updatedAt := 0 })).under "create gateway"

def getGateway (id : ID) : Reads Gateway := read (Store.getGateway id)

def listGateways (tenantID : Option ID) (p : ListParams) : Reads (List Gateway × Nat) :=
  read (Store.listGateways tenantID p)

def updateGateway (id : ID) (req : UpdateGatewayRequest) : Service Gateway := do
  let g ← read (Store.getGateway id)
  let g := { g with name := req.name.getD g.name, status := req.status.getD g.status }
  (save (Store.updateGateway g)).under "update gateway"

def deleteGateway (id : ID) : Service Unit := save fun _ => Store.deleteGateway id

def recordGatewayHeartbeat (id : ID) : Service Unit := save (Store.updateGatewayHeartbeat id)

/-! ## Node groups -/

def createNodeGroup (req : CreateNodeGroupRequest) : Service NodeGroup := do
  Query.ofExcept (if req.name = "" then .error (.text "name is required") else .ok ())
  let id ← newID
  (save (Store.createNodeGroup
    { id, tenantID := req.tenantID, name := req.name, description := req.description, createdAt := 0
      updatedAt := 0 })).under "create node group"

def getNodeGroup (id : ID) : Reads NodeGroup := read (Store.getNodeGroup id)

def listNodeGroups (tenantID : ID) (p : ListParams) : Reads (List NodeGroup × Nat) :=
  read (Store.listNodeGroups tenantID p)

def addNodeToGroup (groupID nodeID : ID) : Service Unit := do
  let _ ← (read (Store.getNodeGroup groupID)).under "get group"
  let _ ← (read (Store.getNode nodeID)).under "get node"
  let _ ← save fun _ => Store.addNodeToGroup groupID nodeID

def deleteNodeGroup (id : ID) : Service Unit := save fun _ => Store.deleteNodeGroup id

def removeNodeFromGroup (groupID nodeID : ID) : Service Unit := save fun _ => Store.removeNodeFromGroup groupID nodeID

/-! ## SSH keys -/

def createSSHKey (k : SSHKey) : Service SSHKey := save (Store.createSSHKey k)

def getSSHKey (id : ID) : Reads SSHKey := read (Store.getSSHKey id)

def listSSHKeys (p : ListParams) : Reads (List SSHKey × Nat) := read (Store.listSSHKeys p)

def deleteSSHKey (id : ID) : Service Unit := save fun _ => Store.deleteSSHKey id

/-! ## What the calls do -/

section
variable {v : Env} {s : Store}

theorem createNode_ends (req : CreateNodeRequest) :
    Ends v s (createNode req).1
      (fun n s' => n.tenantID = req.tenantID ∧ ∃ nodes, s.nodes.insert n = some nodes ∧ s' = { s with nodes })
      fun _ s' => s' = s := by
  refine .bind (.ofExcept (fun _ _ => ?_) fun _ _ => rfl)
  refine .bind (Ends.newID fun id => ?_)
  refine .mapError (Ends.save (fun t n s' h => ?_) fun _ => rfl)
  obtain ⟨rfl, nodes, hins, rfl⟩ := insertInto_ok h
  exact ⟨rfl, nodes, hins, rfl⟩

theorem updateNode_ends (id : ID) (req : UpdateNodeRequest) :
    Ends v s (updateNode id req).1
      (fun n s' => ∃ old t nodes, s.nodes.find id = some old ∧ n = { req.apply old with updatedAt := t } ∧
        s.nodes.set n = some nodes ∧ s' = { s with nodes })
      fun _ s' => s' = s := by
  refine .bind (Ends.read (fun old hold => ?_) fun _ => rfl)
  refine .mapError (Ends.save (fun t n s' h => ?_) fun _ => rfl)
  obtain ⟨old', nodes, hold', hset, rfl, rfl⟩ := Store.updateNode_ok h
  obtain rfl := selectRow_unique hold hold'
  exact ⟨old', t, nodes, selectRow_ok.mp hold, rfl, hset, rfl⟩

theorem deleteNode_ends (id : ID) :
    Ends v s (deleteNode id).1
      (fun _ s' => ∃ nodes, s.nodes.erase id = some nodes ∧ (∀ b ∈ s.bgpSessions, b.nodeID ≠ id) ∧
        (∀ j ∈ s.provisioningJobs, j.nodeID ≠ id) ∧
        s' = { s with nodes, memberships := s.memberships.filter fun m => m.2 ≠ id })
      fun _ s' => s' = s := by
  refine Ends.save (fun _ _ s' h => ?_) fun _ => rfl
  obtain ⟨nodes, herase, rfl, _, hrefs⟩ := deleteFrom_ok h
  obtain ⟨_, hsessions, hjobs⟩ := bind_ok.mp hrefs
  have hsessions := forbidRows_ok hsessions
  have hjobs := forbidRows_ok hjobs
  simp only [List.any_eq_false, decide_eq_true_eq] at hsessions hjobs
  exact ⟨nodes, herase, hsessions, hjobs, rfl⟩

theorem recordNodeHeartbeat_ends (id : ID) :
    Ends v s (recordNodeHeartbeat id).1
      (fun _ s' => ∃ old t nodes, s.nodes.find id = some old ∧
        s.nodes.set { old with lastHeartbeat := some t, status := .online, updatedAt := t } = some nodes ∧
        s' = { s with nodes })
      fun _ s' => s' = s := by
  refine Ends.save (fun t _ s' h => ?_) fun _ => rfl
  obtain ⟨_, old, nodes, hold, hset, rfl⟩ := updateIn_ok h
  exact ⟨old, t, nodes, hold, hset, rfl⟩

theorem createGateway_ends (req : CreateGatewayRequest) :
    Ends v s (createGateway req).1
      (fun g s' => g.tenantID = req.tenantID ∧ ∃ gateways, s.gateways.insert g = some gateways ∧
        s' = { s with gateways })
      fun _ s' => s' = s := by
  refine .bind (.ofExcept (fun _ _ => ?_) fun _ _ => rfl)
  refine .bind (Ends.newID fun id => ?_)
  refine .mapError (Ends.save (fun t g s' h => ?_) fun _ => rfl)
  obtain ⟨rfl, gateways, hins, rfl⟩ := insertInto_ok h
  exact ⟨rfl, gateways, hins, rfl⟩

theorem createNodeGroup_ends (req : CreateNodeGroupRequest) :
    Ends v s (createNodeGroup req).1
      (fun g s' => g.tenantID = req.tenantID ∧
        ∃ nodeGroups, s.nodeGroups.insert g = some nodeGroups ∧ s' = { s with nodeGroups })
      fun _ s' => s' = s := by
  refine .bind (.ofExcept (fun _ _ => ?_) fun _ _ => rfl)
  refine .bind (Ends.newID fun id => ?_)
  refine .mapError (Ends.save (fun t g s' h => ?_) fun _ => rfl)
  obtain ⟨rfl, nodeGroups, hins, rfl⟩ := insertInto_ok h
  exact ⟨rfl, nodeGroups, hins, rfl⟩

theorem addNodeToGroup_ends (groupID nodeID : ID) :
    Ends v s (addNodeToGroup groupID nodeID).1
      (fun _ s' => (∃ g, s.nodeGroups.find groupID = some g) ∧ (∃ n, s.nodes.find nodeID = some n) ∧
        ∃ memberships, s.memberships.insert (groupID, nodeID) = some memberships ∧ s' = { s with memberships })
      fun _ s' => s' = s := by
  refine .bind (.mapError (Ends.read (fun g hg => ?_) fun _ => rfl))
  refine .bind (.mapError (Ends.read (fun n hn => ?_) fun _ => rfl))
  refine .bind (Ends.save (fun _ m s' h => ?_) fun _ => rfl)
  obtain ⟨rfl, memberships, hins, rfl⟩ := insertInto_ok h
  exact .pure ⟨⟨g, selectRow_ok.mp hg⟩, ⟨n, selectRow_ok.mp hn⟩, memberships, hins, rfl⟩

end

end FleetService
end EdgeFabric
