/-
The WireGuard configuration of a node (`internal/networking`), with the hub and, in a
mesh, the members of its groups.
-/
import EdgeFabric.Provisioning.Enrollment

namespace EdgeFabric

structure WireGuardPeerConfig where
  publicKey : String
  presharedKey : String := ""
  allowedIPs : List String
  endpoint : String
  persistentKeepalive : Nat := 0
  deriving DecidableEq, Repr

structure WireGuardConfig where
  privateKey : String
  address : String
  listenPort : Int
  dns : String := ""
  peers : List WireGuardPeerConfig
  deriving DecidableEq, Repr

def lineIf (c : Bool) (line : String) : String := if c then line ++ "\n" else ""

def WireGuardPeerConfig.render (p : WireGuardPeerConfig) : String :=
  "\n[Peer]\nPublicKey = " ++ p.publicKey ++ "\n" ++
  lineIf (p.presharedKey ≠ "") ("PresharedKey = " ++ p.presharedKey) ++
  lineIf (p.allowedIPs ≠ []) ("AllowedIPs = " ++ ", ".intercalate p.allowedIPs) ++
  lineIf (p.endpoint ≠ "") ("Endpoint = " ++ p.endpoint) ++
  lineIf (0 < p.persistentKeepalive) ("PersistentKeepalive = " ++ toString p.persistentKeepalive)

def WireGuardConfig.render (c : WireGuardConfig) : String :=
  "[Interface]\nPrivateKey = " ++ c.privateKey ++ "\nAddress = " ++ c.address ++ "\n" ++
  lineIf (0 < c.listenPort) ("ListenPort = " ++ toString c.listenPort) ++
  lineIf (c.dns ≠ "") ("DNS = " ++ c.dns) ++
  String.join (c.peers.map WireGuardPeerConfig.render)

/-! ## Peers -/

def lookupControllerPeer : Reads WireGuardPeer :=
  readFirst (Store.getWireGuardPeerByOwner .controller controllerPeerID)

/-- The preshared key of a peer, decrypted; an absent one stays absent. -/
def presharedKeyOf (context : String) (p : WireGuardPeer) : Reads String :=
  if p.presharedKey = "" then pure "" else (decryptSecret p.presharedKey).under context

/-! ## Nodes -/

/-- The members of the groups, each once and without those in `seen`. -/
def collectMembers : List NodeGroup → List ID → Reads (List Node)
  | [], _ => pure []
  | g :: rest, seen => do
    let members ← (read (Store.listGroupNodes g.id)).under ("list group nodes for " ++ g.id.text)
    let fresh := members.filter fun m => ¬ seen.contains m.id
    let others ← collectMembers rest (fresh.map Node.id ++ seen)
    return fresh ++ others

/-- The section of a mesh peer; a node without an address or a peer record has none. -/
def meshSection (cfg : WireGuardHub) (peerNode : Node) : Reads (Option WireGuardPeerConfig) :=
  if peerNode.wireGuardIP = "" then pure none
  else do
    match ← (lookupNodePeer peerNode.id).attempt with
    | .error _ => return none
    | .ok wgPeer =>
      return some {
        publicKey := wgPeer.publicKey
        allowedIPs := allowedIPs peerNode.wireGuardIP
          (if peerNode.wireGuardIPv6 = "" then none else some peerNode.wireGuardIPv6)
        endpoint := if peerNode.publicIP ≠ "" ∧ 0 < cfg.listenPort
          then peerNode.publicIP ++ ":" ++ toString cfg.listenPort else ""
        persistentKeepalive := 25 }

def meshSections (cfg : WireGuardHub) : List Node → Reads (List WireGuardPeerConfig)
  | [] => pure []
  | n :: rest => do
    let section' ← meshSection cfg n
    let sections ← meshSections cfg rest
    return section'.toList ++ sections

/-- `generateMeshPeers`: the sections, and the port the node listens on. -/
def generateMeshPeers (cfg : WireGuardHub) (node : Node) : Reads (List WireGuardPeerConfig × Int) := do
  let groups ← (read (Store.listNodeGroupsByNode node.id)).under ("list node groups for node " ++ node.id.text)
  if groups.isEmpty then return ([], 0)
  else
    let peerNodes ← collectMembers groups [node.id]
    let sections ← meshSections cfg peerNodes
    return (sections, cfg.listenPort)

def generateNodeConfig (cfg : WireGuardHub) (nodeID : ID) : Reads String := do
  let node ← (read (Store.getNode nodeID)).under "get node"
  let nodePeer ← (lookupNodePeer nodeID).under "get node peer"
  let nodePrivKey ← (decryptSecret nodePeer.privateKey).under "decrypt node private key"
  let ctrlPeer ← lookupControllerPeer.under "get controller peer"
  let psk ← presharedKeyOf "decrypt node preshared key" nodePeer
  let hubPeer : WireGuardPeerConfig := {
    publicKey := ctrlPeer.publicKey, presharedKey := psk
    allowedIPs := if cfg.ipv6Subnet = "" then [cfg.subnet] else [cfg.subnet, cfg.ipv6Subnet]
    endpoint := ctrlPeer.endpoint, persistentKeepalive := 25 }
  if node.wireGuardIP = "" then
    Query.fail (.text ("node " ++ nodeID.text ++ " has no WireGuard IP assigned"))
  else
    let (meshPeers, listenPort) ←
      if cfg.topology = "mesh" then (generateMeshPeers cfg node).under "generate mesh peers" else pure ([], 0)
    let config : WireGuardConfig := {
      privateKey := nodePrivKey
      address := node.wireGuardIP ++ "/32" ++
        (if node.wireGuardIPv6 = "" then "" else ", " ++ node.wireGuardIPv6 ++ "/128")
      listenPort
      peers := hubPeer :: meshPeers }
    return config.render

/-! ## What a node's configuration is made of -/

/-- The node is a member of one of the groups of the node `nodeID`. -/
def Store.SharesGroup (s : Store) (nodeID : ID) (m : Node) : Prop :=
  m ∈ s.nodes ∧ ∃ g ∈ s.nodeGroups, (g.id, nodeID) ∈ s.memberships ∧ (g.id, m.id) ∈ s.memberships

def Node.meshPeer (cfg : WireGuardHub) (m : Node) (publicKey : String) : WireGuardPeerConfig :=
  { publicKey
    allowedIPs := allowedIPs m.wireGuardIP (if m.wireGuardIPv6 = "" then none else some m.wireGuardIPv6)
    endpoint := if m.publicIP ≠ "" ∧ 0 < cfg.listenPort then m.publicIP ++ ":" ++ toString cfg.listenPort else ""
    persistentKeepalive := 25 }

def Node.SectionIn (s : Store) (cfg : WireGuardHub) (m : Node) (p : WireGuardPeerConfig) : Prop :=
  ∃ peer ∈ s.peersOf .node m.id, p = m.meshPeer cfg peer.publicKey

/-- The configuration has the keys and addresses of the node, the hub's section, and
sections of members of the node's groups if the topology is a mesh. -/
structure WireGuardConfig.IsFor (v : Env) (s : Store) (cfg : WireGuardHub) (n : Node) (c : WireGuardConfig) : Prop where
  address : c.address = n.wireGuardIP ++ "/32" ++
    (if n.wireGuardIPv6 = "" then "" else ", " ++ n.wireGuardIPv6 ++ "/128")
  privateKey : ∃ peer ∈ s.peersOf .node n.id, v.decrypt peer.privateKey = .ok c.privateKey
  peers : ∃ hub mesh, c.peers = hub :: mesh ∧
    (∃ ctrl ∈ s.peersOf .controller controllerPeerID, hub.publicKey = ctrl.publicKey ∧ hub.endpoint = ctrl.endpoint) ∧
    (hub.presharedKey = "" ∨ ∃ peer ∈ s.peersOf .node n.id, v.decrypt peer.presharedKey = .ok hub.presharedKey) ∧
    ∀ p ∈ mesh, cfg.topology = "mesh" ∧ ∃ m, s.SharesGroup n.id m ∧ m.SectionIn s cfg p

section
variable {v : Env} {s : Store} {cfg : WireGuardHub} {nodeID : ID}

theorem collectMembers_ends {groups : List NodeGroup}
    (hgroups : ∀ g ∈ groups, g ∈ s.nodeGroups ∧ (g.id, nodeID) ∈ s.memberships) (seen : List ID) :
    Ends v s (collectMembers groups seen).1
      (fun ms s' => s' = s ∧ ∀ m ∈ ms, ∃ n, s.SharesGroup nodeID n ∧ m = { n with capabilities := [] })
      fun _ s' => s' = s := by
  induction groups generalizing seen with
  | nil => exact .pure ⟨rfl, by simp⟩
  | cons g rest ih =>
    obtain ⟨hg, hmember⟩ := hgroups g List.mem_cons_self
    refine .bind (.mapError (Ends.read (fun members hmembers => ?_) fun _ => rfl))
    have hrest := ih (fun g hg => hgroups g (List.mem_cons_of_mem _ hg))
    refine .andThen (hrest _) fun others s' h => ?_
    obtain ⟨rfl, hothers⟩ := h
    refine .pure ⟨rfl, fun m hm => ?_⟩
    rcases List.mem_append.mp hm with hm | hm
    · obtain ⟨n, hn, hin, rfl⟩ := Store.listGroupNodes_ok hmembers m (List.mem_of_mem_filter hm)
      exact ⟨n, ⟨hn, g, hg, hmember, hin⟩, rfl⟩
    · exact hothers m hm

theorem meshSection_ends (m : Node) :
    Ends v s (meshSection cfg m).1 (fun o s' => s' = s ∧ ∀ p ∈ o, m.SectionIn s cfg p) fun _ s' => s' = s := by
  unfold meshSection
  split
  · exact .pure ⟨rfl, by simp⟩
  · refine .bind (.attempt (Ends.readAs (fun pick peer hpeer => ?_) fun _ => .pure ⟨rfl, by simp⟩))
    refine .pure ⟨rfl, fun p hp => ?_⟩
    obtain rfl := Option.some.inj hp
    exact ⟨peer, Store.getWireGuardPeerByOwner_ok hpeer, rfl⟩

theorem meshSections_ends (ms : List Node) :
    Ends v s (meshSections cfg ms).1 (fun ps s' => s' = s ∧ ∀ p ∈ ps, ∃ m ∈ ms, m.SectionIn s cfg p)
      fun _ s' => s' = s := by
  induction ms with
  | nil => exact .pure ⟨rfl, by simp⟩
  | cons m rest ih =>
    refine .andThen (meshSection_ends m) fun o s' h => ?_
    obtain ⟨rfl, ho⟩ := h
    refine .andThen ih fun ps s'' h => ?_
    obtain ⟨rfl, hps⟩ := h
    refine .pure ⟨rfl, fun p hp => ?_⟩
    rcases List.mem_append.mp hp with hp | hp
    · exact ⟨m, List.mem_cons_self, ho p (Option.mem_toList.mp hp)⟩
    · obtain ⟨m', hm', hp⟩ := hps p hp
      exact ⟨m', List.mem_cons_of_mem _ hm', hp⟩

theorem generateMeshPeers_ends (node : Node) :
    Ends v s (generateMeshPeers cfg node).1
      (fun r s' => s' = s ∧ ∀ p ∈ r.1, ∃ m, s.SharesGroup node.id m ∧ m.SectionIn s cfg p) fun _ s' => s' = s := by
  refine .bind (.mapError (Ends.read (fun groups hgroups => ?_) fun _ => rfl))
  dsimp only
  split
  · exact .pure ⟨rfl, by simp⟩
  · have hgroups := fun g => (Store.listNodeGroupsByNode_ok hgroups g).mp
    refine .andThen (collectMembers_ends hgroups [node.id]) fun ms s' h => ?_
    obtain ⟨rfl, hms⟩ := h
    refine .andThen (meshSections_ends ms) fun ps s'' h => ?_
    obtain ⟨rfl, hps⟩ := h
    refine .pure ⟨rfl, fun p hp => ?_⟩
    obtain ⟨m, hm, hsection⟩ := hps p hp
    obtain ⟨n, hn, rfl⟩ := hms m hm
    exact ⟨n, hn, hsection⟩

theorem presharedKeyOf_ends (context : String) (p : WireGuardPeer) :
    Ends v s (presharedKeyOf context p).1
      (fun psk s' => s' = s ∧ (psk = "" ∨ v.decrypt p.presharedKey = .ok psk)) fun _ s' => s' = s := by
  unfold presharedKeyOf
  split
  · exact .pure ⟨rfl, .inl rfl⟩
  · exact .mapError (Ends.ask (fun _ psk h => ⟨rfl, .inr (orErr_ok.mp h)⟩) fun _ => rfl)

theorem generateNodeConfig_ends (nodeID : ID) :
    Ends v s (generateNodeConfig cfg nodeID).1
      (fun text s' => s' = s ∧ ∃ (n : Node) (config : WireGuardConfig), s.nodes.find nodeID = some n ∧
        text = config.render ∧ config.IsFor v s cfg n)
      fun _ s' => s' = s := by
  refine .bind (.mapError (Ends.read (fun node hnode => ?_) fun _ => rfl))
  have hfind := selectRow_ok.mp hnode
  obtain rfl : node.id = nodeID := (Table.find_eq_some.mp hfind).2
  refine .bind (.mapError (Ends.readAs (fun pick peer hpeer => ?_) fun _ => rfl))
  have hpeer := Store.getWireGuardPeerByOwner_ok hpeer
  refine .bind (.mapError (Ends.ask (fun _ key hkey => ?_) fun _ => rfl))
  refine .bind (.mapError (Ends.readFirst (fun pick ctrl hctrl => ?_) fun _ => rfl))
  have hctrl := Store.getWireGuardPeerByOwner_ok hctrl
  refine .andThen (presharedKeyOf_ends _ peer) fun psk s' h => ?_
  obtain ⟨rfl, hpsk⟩ := h
  dsimp only
  split
  · exact .fail rfl
  · have hkeys : ∃ p ∈ s'.peersOf .node node.id, v.decrypt p.privateKey = .ok key := ⟨peer, hpeer, orErr_ok.mp hkey⟩
    have hpsk : psk = "" ∨ ∃ p ∈ s'.peersOf .node node.id, v.decrypt p.presharedKey = .ok psk :=
      hpsk.imp_right fun h => ⟨peer, hpeer, h⟩
    split
    · next htopology =>
      refine .bind (.mapError ((generateMeshPeers_ends node).mono (fun r s'' h => ?_) fun _ _ h => h))
      obtain ⟨rfl, hsections⟩ := h
      refine .pure ⟨rfl, node, _, hfind, rfl, rfl, hkeys, _, _, rfl, ⟨ctrl, hctrl, rfl, rfl⟩, hpsk, fun p hp => ?_⟩
      exact ⟨htopology, hsections p hp⟩
    · exact .bind (.pure (.pure ⟨rfl, node, _, hfind, rfl, rfl, hkeys, _, _, rfl, ⟨ctrl, hctrl, rfl, rfl⟩,
        hpsk, by simp⟩))

end

end EdgeFabric
