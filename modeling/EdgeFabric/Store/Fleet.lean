/-
The fleet tables: nodes, node groups, gateways, WireGuard peers, enrollment
tokens, provisioning jobs and SSH keys (`internal/storage/sqlite`). Each
function is one database call.
-/
import EdgeFabric.Store.Rows
import EdgeFabric.Lib.Uuid

namespace EdgeFabric

/-- `id.String()`. -/
def ID.text (id : ID) : String := String.ofList (Uuid.text id)

theorem ID.text_ne_empty (id : ID) : id.text ≠ "" := by
  intro h
  have hlen := Uuid.length_text id
  have hlist := congrArg String.toList h
  rw [ID.text, String.toList_ofList] at hlist
  rw [hlist] at hlen
  cases hlen

namespace Store

/-! ## Nodes -/

def createNode (n : Node) (now : Time) (s : Store) : Except Err (Node × Store) :=
  let n := { n with
    createdAt := now, updatedAt := now
    status := if n.status = "" then .pending else n.status
    sshPort := if n.sshPort = 0 then 22 else n.sshPort }
  insertInto s.nodes (fun nodes => { s with nodes }) (.detail .alreadyExists "node already exists") n do
    requireRow? "insert node" n.tenantID s.tenants
    requireRow? "insert node" n.sshKeyID s.sshKeys
    requireUnique (fun _ => "insert capability") n.capabilities

def getNode (id : ID) (s : Store) : Except Err Node := selectRow id s.nodes

def nodesOf (tenantID : Option ID) (s : Store) : List Node :=
  match tenantID with
  | some t => s.nodes.rows.filter fun n => n.tenantID = some t
  | none => s.nodes.rows

def listNodes (tenantID : Option ID) (p : ListParams) (s : Store) : Except Err (List Node × Nat) :=
  let rows := s.nodesOf tenantID
  match p.cursor with
  | .at createdAt id =>
    -- keyset pagination: (created_at, id) below the cursor, newest first, then by id
    let below := rows.filter fun n => n.createdAt < createdAt || (n.createdAt = createdAt && n.id.text < id)
    let sorted := below.insertionSort fun a b =>
      b.createdAt < a.createdAt ∨ (b.createdAt = a.createdAt ∧ b.id.text ≤ a.id.text)
    .ok (sorted.take p.effectiveLimit, rows.length)
  | _ => .ok (p.page (newestFirst Node.createdAt rows), rows.length)

/-- Writes every column but `last_heartbeat`, `last_config_sync` and `created_at`. -/
def updateNode (n : Node) (now : Time) (s : Store) : Except Err (Node × Store) := do
  let nodes ← updateRow n.id (fun old => { n with
    updatedAt := now, createdAt := old.createdAt
    lastHeartbeat := old.lastHeartbeat, lastConfigSync := old.lastConfigSync }) s.nodes
  requireRow? "update node" n.tenantID s.tenants
  requireRow? "update node" n.sshKeyID s.sshKeys
  requireUnique (fun _ => "insert capability") n.capabilities
  return ({ n with updatedAt := now }, { s with nodes })

/-- Group memberships go with the node; BGP sessions and provisioning jobs forbid the delete. -/
def deleteNode (id : ID) (s : Store) : Except Err (Unit × Store) :=
  deleteFrom s.nodes (fun nodes => { s with nodes, memberships := s.memberships.filter fun m => m.2 ≠ id }) id do
    forbidRows "delete node" (s.bgpSessions.rows.any (·.nodeID = id))
    forbidRows "delete node" (s.provisioningJobs.rows.any (·.nodeID = id))

def updateNodeHeartbeat (id : ID) (now : Time) (s : Store) : Except Err (Unit × Store) :=
  updateIn s.nodes (fun nodes => { s with nodes }) id
    (fun n => { n with lastHeartbeat := some now, status := .online, updatedAt := now }) () (.ok ())

def updateNodeConfigSync (id : ID) (now : Time) (s : Store) : Except Err (Unit × Store) :=
  updateIn s.nodes (fun nodes => { s with nodes }) id
    (fun n => { n with lastConfigSync := some now, updatedAt := now }) () (.ok ())

/-! ## Node groups -/

def createNodeGroup (g : NodeGroup) (now : Time) (s : Store) : Except Err (NodeGroup × Store) :=
  let g := { g with createdAt := now, updatedAt := now }
  insertInto s.nodeGroups (fun nodeGroups => { s with nodeGroups })
    (.detail .alreadyExists "node group already exists") g (requireRow "insert node group" g.tenantID s.tenants)

def getNodeGroup (id : ID) (s : Store) : Except Err NodeGroup := selectRow id s.nodeGroups

def listNodeGroups (tenantID : ID) (p : ListParams) (s : Store) : Except Err (List NodeGroup × Nat) :=
  let rows := s.nodeGroups.rows.filter (·.tenantID = tenantID)
  .ok (p.page (newestFirst NodeGroup.createdAt rows), rows.length)

/-- Memberships go with the group; zones, sites and routes forbid the delete. -/
def deleteNodeGroup (id : ID) (s : Store) : Except Err (Unit × Store) :=
  deleteFrom s.nodeGroups
    (fun nodeGroups => { s with nodeGroups, memberships := s.memberships.filter fun m => m.1 ≠ id }) id do
    forbidRows "delete node group" (s.dnsZones.rows.any (·.nodeGroupID = some id))
    forbidRows "delete node group" (s.cdnSites.rows.any (·.nodeGroupID = some id))
    forbidRows "delete node group" (s.routes.rows.any (·.nodeGroupID = some id))

def addNodeToGroup (groupID nodeID : ID) (s : Store) : Except Err ((ID × ID) × Store) :=
  insertInto s.memberships (fun memberships => { s with memberships })
    (.detail .alreadyExists "node already in group") (groupID, nodeID) do
    requireRow "add node to group" groupID s.nodeGroups
    requireRow "add node to group" nodeID s.nodes

def removeNodeFromGroup (groupID nodeID : ID) (s : Store) : Except Err (Unit × Store) :=
  deleteFrom s.memberships (fun memberships => { s with memberships }) (groupID, nodeID) (.ok ())

/-- The nodes of a group, without their capabilities. -/
def listGroupNodes (groupID : ID) (s : Store) : Except Err (List Node) :=
  .ok (byName Node.name
    ((s.nodes.rows.filter fun n => s.memberships.rows.contains (groupID, n.id)).map fun n =>
      { n with capabilities := [] }))

def listNodeGroupsByNode (nodeID : ID) (s : Store) : Except Err (List NodeGroup) :=
  .ok (byName NodeGroup.name (s.nodeGroups.rows.filter fun g => s.memberships.rows.contains (g.id, nodeID)))

/-! ## Gateways -/

def createGateway (g : Gateway) (now : Time) (s : Store) : Except Err (Gateway × Store) :=
  let g := { g with createdAt := now, updatedAt := now, status := if g.status = "" then .pending else g.status }
  insertInto s.gateways (fun gateways => { s with gateways }) (.detail .alreadyExists "gateway already exists") g
    (requireRow "insert gateway" g.tenantID s.tenants)

def getGateway (id : ID) (s : Store) : Except Err Gateway := selectRow id s.gateways

def listGateways (tenantID : Option ID) (p : ListParams) (s : Store) : Except Err (List Gateway × Nat) :=
  let rows := match tenantID with
    | some t => s.gateways.rows.filter (·.tenantID = t)
    | none => s.gateways.rows
  .ok (p.page (newestFirst Gateway.createdAt rows), rows.length)

/-- Writes name, addresses, status, token and metadata; a gateway keeps its tenant. -/
def updateGateway (g : Gateway) (now : Time) (s : Store) : Except Err (Gateway × Store) :=
  updateIn s.gateways (fun gateways => { s with gateways }) g.id (fun old => { g with
    updatedAt := now, createdAt := old.createdAt, tenantID := old.tenantID
    lastHeartbeat := old.lastHeartbeat, lastConfigSync := old.lastConfigSync }) { g with updatedAt := now } (.ok ())

def deleteGateway (id : ID) (s : Store) : Except Err (Unit × Store) :=
  deleteFrom s.gateways (fun gateways => { s with gateways }) id
    (forbidRows "delete gateway" (s.routes.rows.any (·.gatewayID = id)))

def updateGatewayHeartbeat (id : ID) (now : Time) (s : Store) : Except Err (Unit × Store) :=
  updateIn s.gateways (fun gateways => { s with gateways }) id
    (fun g => { g with lastHeartbeat := some now, status := .online, updatedAt := now }) () (.ok ())

def updateGatewayConfigSync (id : ID) (now : Time) (s : Store) : Except Err (Unit × Store) :=
  updateIn s.gateways (fun gateways => { s with gateways }) id
    (fun g => { g with lastConfigSync := some now, updatedAt := now }) () (.ok ())

/-! ## WireGuard peers -/

def peersOf (ownerType : PeerOwnerType) (ownerID : ID) (s : Store) : List WireGuardPeer :=
  s.wireGuardPeers.rows.filter fun p => p.ownerType = ownerType ∧ p.ownerID = ownerID

def createWireGuardPeer (p : WireGuardPeer) (now : Time) (s : Store) : Except Err (WireGuardPeer × Store) := do
  let p := { p with
    createdAt := now, updatedAt := now
    lastRotatedAt := if p.lastRotatedAt = 0 then now else p.lastRotatedAt }
  let wireGuardPeers ← insertRow (.detail .alreadyExists "wireguard peer already exists") p s.wireGuardPeers
  requireUnique (fun _ => "insert allowed ip") p.allowedIPs
  return (p, { s with wireGuardPeers })

/-- There is no unique constraint on the owner and no `ORDER BY`: of several rows
any one may be found. -/
def getWireGuardPeerByOwner (ownerType : PeerOwnerType) (ownerID : ID) (pick : Nat) (s : Store) :
    Except Err WireGuardPeer :=
  let rows := s.peersOf ownerType ownerID
  match rows[pick % rows.length]? with
  | some p => .ok p
  | none => .error .notFound

def listWireGuardPeers (p : ListParams) (s : Store) : Except Err (List WireGuardPeer × Nat) :=
  .ok (p.page (newestFirst WireGuardPeer.createdAt s.wireGuardPeers.rows), s.wireGuardPeers.rows.length)

def deleteWireGuardPeer (id : ID) (s : Store) : Except Err (Unit × Store) := do
  let wireGuardPeers ← deleteRow id s.wireGuardPeers
  return ((), { s with wireGuardPeers })

/-! ## Enrollment tokens -/

def createEnrollmentToken (t : EnrollmentToken) (now : Time) (s : Store) : Except Err (EnrollmentToken × Store) := do
  let t := { t with createdAt := now, usedAt := none }
  let dup := Err.detail .alreadyExists "enrollment token already exists"
  if hfree : ∀ b ∈ s.enrollmentTokens.rows, b.token ≠ t.token then
    match h : s.enrollmentTokens.insert t with
    | some enrollmentTokens => do
      requireRow "insert enrollment token" t.tenantID s.tenants
      return (t, { s with enrollmentTokens, tokenTexts := s.tokenTexts.insert hfree h })
    | none => .error dup
  else .error dup

def getEnrollmentToken (token : String) (s : Store) : Except Err EnrollmentToken :=
  match s.enrollmentTokens.rows.find? (·.token = token) with
  | some t => .ok t
  | none => .error .notFound

/-- `UPDATE … WHERE id = ? AND used_at IS NULL`: a token that is used already is
not found. -/
def markEnrollmentTokenUsed (id : ID) (now : Time) (s : Store) : Except Err (Unit × Store) :=
  match s.enrollmentTokens.find id with
  | some t =>
    if t.usedAt = none then
      .ok ((), { s with
        enrollmentTokens := s.enrollmentTokens.map
          (fun t => if t.id = id then { t with usedAt := some now } else t) (by intro t; split <;> rfl)
        tokenTexts := s.tokenTexts.map (by intro t; split <;> rfl) })
    else .error .notFound
  | none => .error .notFound

/-! ## Provisioning jobs -/

def createProvisioningJob (j : ProvisioningJob) (now : Time) (s : Store) : Except Err (ProvisioningJob × Store) := do
  let j := { j with createdAt := now, updatedAt := now }
  let provisioningJobs ← insertRow (.detail .alreadyExists "provisioning job already exists") j s.provisioningJobs
  requireRow "insert provisioning job" j.nodeID s.nodes
  requireRow? "insert provisioning job" j.tenantID s.tenants
  return (j, { s with provisioningJobs })

def getProvisioningJob (id : ID) (s : Store) : Except Err ProvisioningJob := selectRow id s.provisioningJobs

def listProvisioningJobs (nodeID : Option ID) (p : ListParams) (s : Store) : Except Err (List ProvisioningJob × Nat) :=
  let rows := match nodeID with
    | some n => s.provisioningJobs.rows.filter (·.nodeID = n)
    | none => s.provisioningJobs.rows
  .ok (p.page (newestFirst ProvisioningJob.createdAt rows), rows.length)

/-- Writes status, step, results, error and the two times. -/
def updateProvisioningJob (j : ProvisioningJob) (now : Time) (s : Store) : Except Err (ProvisioningJob × Store) := do
  let provisioningJobs ← updateRow j.id (fun old => { old with
    status := j.status, currentStep := j.currentStep, steps := j.steps, error := j.error
    startedAt := j.startedAt, completedAt := j.completedAt, updatedAt := now }) s.provisioningJobs
  return ({ j with updatedAt := now }, { s with provisioningJobs })

/-- The newest job of the node that is pending or running. -/
def getActiveProvisioningJob (nodeID : ID) (s : Store) : Except Err ProvisioningJob :=
  let active := s.provisioningJobs.rows.filter fun j =>
    j.nodeID = nodeID ∧ (j.status = .pending ∨ j.status = .running)
  match newestFirst ProvisioningJob.createdAt active with
  | j :: _ => .ok j
  | [] => .error .notFound

/-! ## SSH keys -/

def getSSHKey (id : ID) (s : Store) : Except Err SSHKey := selectRow id s.sshKeys

/-! ## What the calls do -/

section
variable {s s' : Store} {t : Time}
variable {n : Node} {groupID : ID} {ms : List Node} {p : WireGuardPeer} {e : Err} {o : PeerOwnerType}
    {k : EnrollmentToken}

theorem updateNode_ok {n' : Node} (h : updateNode n t s = .ok (n', s')) :
    ∃ old nodes, s.nodes.find n.id = some old ∧
      s.nodes.set { n with
        updatedAt := t, createdAt := old.createdAt
        lastHeartbeat := old.lastHeartbeat, lastConfigSync := old.lastConfigSync } = some nodes ∧
      n' = { n with updatedAt := t } ∧ s' = { s with nodes } := by
  simp only [updateNode, bind_ok] at h
  obtain ⟨nodes, hset, _, _, _, _, _, _, h⟩ := h
  obtain ⟨old, hold, hset⟩ := updateRow_ok hset
  cases h
  exact ⟨old, nodes, hold, hset, rfl, rfl⟩

theorem mem_nodesOf {tenantID : ID} : n ∈ s.nodesOf (some tenantID) ↔ n ∈ s.nodes ∧ n.tenantID = some tenantID := by
  simp [nodesOf, Table.mem_def]

theorem listNodes_ok {tenantID : Option ID} {p : ListParams} {page : List Node × Nat}
    (h : listNodes tenantID p s = .ok page) : ∀ n ∈ page.1, n ∈ s.nodesOf tenantID := by
  unfold listNodes at h
  dsimp only at h
  split at h
  · cases h
    intro n hn
    have hn := (List.mem_insertionSort _).mp (List.mem_of_mem_take hn)
    exact (List.mem_filter.mp hn).1
  · cases h
    intro n hn
    exact mem_newestFirst.mp (ListParams.mem_of_mem_page hn)

theorem listGroupNodes_ok (h : listGroupNodes groupID s = .ok ms) :
    ∀ m ∈ ms, ∃ n ∈ s.nodes, (groupID, n.id) ∈ s.memberships ∧ m = { n with capabilities := [] } := by
  cases h
  intro m hm
  obtain ⟨n, hn, rfl⟩ := List.mem_map.mp (mem_byName.mp hm)
  simp only [List.mem_filter, List.contains_eq_mem, decide_eq_true_eq] at hn
  exact ⟨n, hn.1, hn.2, rfl⟩

theorem listGroupNodes_nodup (h : listGroupNodes groupID s = .ok ms) :
    (ms.map Node.id).Nodup := by
  cases h
  refine (((List.perm_insertionSort _ _).map Node.id).nodup_iff).mpr ?_
  rw [List.map_map]
  exact s.nodes.nodup.sublist (List.filter_sublist.map Node.id)

theorem mem_listGroupNodes (h : listGroupNodes groupID s = .ok ms) {m : Node} :
    m ∈ ms ↔ ∃ n ∈ s.nodes, (groupID, n.id) ∈ s.memberships ∧ m = { n with capabilities := [] } := by
  refine ⟨listGroupNodes_ok h m, fun hn => ?_⟩
  obtain ⟨n, hn, hin, rfl⟩ := hn
  cases h
  refine mem_byName.mpr (List.mem_map.mpr ⟨n, List.mem_filter.mpr ⟨hn, ?_⟩, rfl⟩)
  exact List.contains_iff_mem.mpr hin

theorem getNode_ok {id : ID} (h : getNode id s = .ok n) : n ∈ s.nodes ∧ n.id = id :=
  Table.find_eq_some.mp (selectRow_ok.mp h)

theorem listNodeGroupsByNode_ok {nodeID : ID} {gs : List NodeGroup} (h : listNodeGroupsByNode nodeID s = .ok gs) :
    ∀ g, g ∈ gs ↔ g ∈ s.nodeGroups ∧ (g.id, nodeID) ∈ s.memberships := by
  cases h
  intro g
  simp [Table.mem_def]

theorem createWireGuardPeer_ok {p' : WireGuardPeer} (h : createWireGuardPeer p t s = .ok (p', s')) :
    p' = { p with
      createdAt := t, updatedAt := t, lastRotatedAt := if p.lastRotatedAt = 0 then t else p.lastRotatedAt } ∧
    ∃ peers, s.wireGuardPeers.insert p' = some peers ∧ s' = { s with wireGuardPeers := peers } := by
  simp only [createWireGuardPeer, bind_ok, insertRow_ok] at h
  obtain ⟨peers, hins, _, _, h⟩ := h
  cases h
  exact ⟨rfl, peers, hins, rfl⟩

theorem deleteWireGuardPeer_ok {id : ID} {u : Unit} (h : deleteWireGuardPeer id s = .ok (u, s')) :
    ∃ peers, s.wireGuardPeers.erase id = some peers ∧ s' = { s with wireGuardPeers := peers } := by
  simp only [deleteWireGuardPeer, bind_ok, deleteRow_ok] at h
  obtain ⟨peers, herase, h⟩ := h
  cases h
  exact ⟨peers, herase, rfl⟩

theorem mem_peersOf {n : ID} :
    p ∈ s.peersOf o n ↔ p ∈ s.wireGuardPeers ∧ p.ownerType = o ∧ p.ownerID = n := by
  simp [peersOf, Table.mem_def]

theorem peersOf_congr (h : s'.wireGuardPeers = s.wireGuardPeers) (o : PeerOwnerType) (n : ID) :
    s'.peersOf o n = s.peersOf o n := by
  unfold peersOf
  rw [h]

theorem peersOf_sublist (h : s'.wireGuardPeers.rows.Sublist s.wireGuardPeers.rows) (o : PeerOwnerType) (n : ID) :
    (s'.peersOf o n).Sublist (s.peersOf o n) :=
  h.filter _

theorem peersOf_insert (h : s.wireGuardPeers.insert p = some s'.wireGuardPeers)
    (o : PeerOwnerType) (n : ID) :
    s'.peersOf o n = s.peersOf o n ++ if p.ownerType = o ∧ p.ownerID = n then [p] else [] := by
  unfold peersOf
  rw [(Table.insert_eq_some h).2, List.filter_append]
  congr 1
  by_cases hp : p.ownerType = o ∧ p.ownerID = n <;> simp [hp]

theorem getWireGuardPeerByOwner_ok {id : ID} {pick : Nat}
    (h : getWireGuardPeerByOwner o id pick s = .ok p) : p ∈ s.peersOf o id := by
  simp only [getWireGuardPeerByOwner] at h
  split at h
  · next p' hp =>
    cases h
    exact List.mem_of_getElem? hp
  · cases h

theorem getWireGuardPeerByOwner_error {id : ID} {pick : Nat}
    (h : getWireGuardPeerByOwner o id pick s = .error e) : s.peersOf o id = [] := by
  simp only [getWireGuardPeerByOwner] at h
  split at h
  · cases h
  · next hp =>
    rcases hrows : s.peersOf o id with _ | ⟨a, rest⟩
    · rfl
    · rw [hrows, List.getElem?_eq_none_iff] at hp
      have := Nat.mod_lt pick (List.length_pos_of_ne_nil (List.cons_ne_nil a rest))
      omega

theorem getWireGuardPeerByOwner_single {id : ID} (h : (s.peersOf o id).length ≤ 1) (pick : Nat) :
    getWireGuardPeerByOwner o id pick s = (s.peersOf o id).head?.elim (.error .notFound) .ok := by
  unfold getWireGuardPeerByOwner
  rcases hrows : s.peersOf o id with _ | ⟨r, _ | ⟨r', rest⟩⟩
  · rfl
  · simp [Nat.mod_one]
  · simp [hrows] at h

theorem createEnrollmentToken_ok {k' : EnrollmentToken} (h : createEnrollmentToken k t s = .ok (k', s')) :
    k' = { k with createdAt := t, usedAt := none } ∧
    ∃ tokens htexts, s.enrollmentTokens.insert k' = some tokens ∧
      s' = { s with enrollmentTokens := tokens, tokenTexts := htexts } := by
  simp only [createEnrollmentToken] at h
  split at h
  · split at h
    · next tokens hins =>
      simp only [bind_ok] at h
      obtain ⟨_, _, h⟩ := h
      cases h
      exact ⟨rfl, tokens, _, hins, rfl⟩
    · cases h
  · cases h

theorem getEnrollmentToken_ok {text : String} (h : getEnrollmentToken text s = .ok k) :
    k ∈ s.enrollmentTokens ∧ k.token = text := by
  unfold getEnrollmentToken at h
  split at h
  · next k' hk =>
    cases h
    exact ⟨Table.mem_def.mpr (List.mem_of_find?_eq_some hk), by simpa using List.find?_some hk⟩
  · cases h

theorem markEnrollmentTokenUsed_ok {id : ID} {u : Unit} (h : markEnrollmentTokenUsed id t s = .ok (u, s')) :
    (∃ k ∈ s.enrollmentTokens, k.id = id ∧ k.usedAt = none) ∧
    ∃ htexts, s' = { s with
      enrollmentTokens := s.enrollmentTokens.map
        (fun k => if k.id = id then { k with usedAt := some t } else k) (by intro k; split <;> rfl)
      tokenTexts := htexts } := by
  unfold markEnrollmentTokenUsed at h
  split at h
  · next k hk =>
    split at h
    · next hfree =>
      cases h
      obtain ⟨hmem, hid⟩ := Table.find_eq_some.mp hk
      exact ⟨⟨k, hmem, hid, hfree⟩, _, rfl⟩
    · cases h
  · cases h

theorem createProvisioningJob_ok {j j' : ProvisioningJob} (h : createProvisioningJob j t s = .ok (j', s')) :
    j' = { j with createdAt := t, updatedAt := t } ∧
    ∃ jobs, s.provisioningJobs.insert j' = some jobs ∧ s' = { s with provisioningJobs := jobs } := by
  simp only [createProvisioningJob, bind_ok, insertRow_ok] at h
  obtain ⟨jobs, hins, _, _, _, _, h⟩ := h
  cases h
  exact ⟨rfl, jobs, hins, rfl⟩

theorem updateProvisioningJob_ok {j j' : ProvisioningJob} (h : updateProvisioningJob j t s = .ok (j', s')) :
    ∃ old jobs, s.provisioningJobs.find j.id = some old ∧
      s.provisioningJobs.set { old with
        status := j.status, currentStep := j.currentStep, steps := j.steps, error := j.error
        startedAt := j.startedAt, completedAt := j.completedAt, updatedAt := t } = some jobs ∧
      s' = { s with provisioningJobs := jobs } := by
  simp only [updateProvisioningJob, bind_ok] at h
  obtain ⟨jobs, hset, h⟩ := h
  obtain ⟨old, hold, hset⟩ := updateRow_ok hset
  cases h
  exact ⟨old, jobs, hold, hset, rfl⟩

theorem getActiveProvisioningJob_error {nodeID : ID} (h : getActiveProvisioningJob nodeID s = .error e) :
    ∀ j ∈ s.provisioningJobs, ¬ (j.nodeID = nodeID ∧ (j.status = .pending ∨ j.status = .running)) := by
  intro j hj hactive
  have hmem : j ∈ newestFirst ProvisioningJob.createdAt (s.provisioningJobs.rows.filter fun j =>
      j.nodeID = nodeID ∧ (j.status = .pending ∨ j.status = .running)) :=
    mem_newestFirst.mpr (List.mem_filter.mpr ⟨hj, decide_eq_true hactive⟩)
  simp only [getActiveProvisioningJob] at h
  split at h
  · cases h
  · next hnil =>
    rw [hnil] at hmem
    cases hmem

end

/-! ## The accounts -/

section
variable {id id' : ID}

instance {n : Node} : KeepsAccounts (createNode n) := ⟨fun h => insertInto_keeps h fun _ => rfl⟩

instance {n : Node} : KeepsAccounts (updateNode n) where
  keeps h := by
    obtain ⟨_, _, _, _, _, rfl⟩ := updateNode_ok h
    rfl

instance : KeepsAccounts fun _ => deleteNode id := ⟨fun h => deleteFrom_keeps h fun _ => rfl⟩
instance : KeepsAccounts (updateNodeHeartbeat id) := ⟨fun h => updateIn_keeps h fun _ => rfl⟩
instance : KeepsAccounts (updateNodeConfigSync id) := ⟨fun h => updateIn_keeps h fun _ => rfl⟩
instance {g : NodeGroup} : KeepsAccounts (createNodeGroup g) := ⟨fun h => insertInto_keeps h fun _ => rfl⟩
instance : KeepsAccounts fun _ => deleteNodeGroup id := ⟨fun h => deleteFrom_keeps h fun _ => rfl⟩
instance : KeepsAccounts fun _ => addNodeToGroup id id' := ⟨fun h => insertInto_keeps h fun _ => rfl⟩
instance : KeepsAccounts fun _ => removeNodeFromGroup id id' := ⟨fun h => deleteFrom_keeps h fun _ => rfl⟩
instance {g : Gateway} : KeepsAccounts (createGateway g) := ⟨fun h => insertInto_keeps h fun _ => rfl⟩
instance {g : Gateway} : KeepsAccounts (updateGateway g) := ⟨fun h => updateIn_keeps h fun _ => rfl⟩
instance : KeepsAccounts fun _ => deleteGateway id := ⟨fun h => deleteFrom_keeps h fun _ => rfl⟩
instance : KeepsAccounts (updateGatewayHeartbeat id) := ⟨fun h => updateIn_keeps h fun _ => rfl⟩
instance : KeepsAccounts (updateGatewayConfigSync id) := ⟨fun h => updateIn_keeps h fun _ => rfl⟩

end

end Store

end EdgeFabric
