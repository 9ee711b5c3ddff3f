/-
Enrollment of a node agent (`internal/provisioning/enrollment.go`): a one-time
token is exchanged for a place in the overlay. The calls that create a node's
WireGuard peer are the same here and in the key step of the pipelines
(`steps.go`); they are one program, `createNodePeer`.
-/
import EdgeFabric.Provisioning.WireGuard
import EdgeFabric.Store.Fleet

namespace EdgeFabric

structure WireGuardHub where
  listenPort : Int
  subnet : String
  address : String
  topology : String
  ipv6Subnet : String
  ipv6Address : String
  deriving DecidableEq, Repr

/-- What `DefaultProvisioner` is configured with. -/
structure Provisioner where
  wgConfig : WireGuardHub
  /-- the controller's external URL -/
  extURL : String
  /-- the local binary to upload -/
  binaryPath : String
  /-- the WireGuard config generator, if one is set -/
  wgConfigGen : Option (ID → Reads String)

def enrollmentTokenTTL : Time := Time.hour

structure EnrollmentResult where
  nodeID : ID
  tenantID : Option ID
  wireGuardIP : String
  deriving DecidableEq, Repr

def generateWireGuardKeyPair : Reads (String × String) := ask .random fun v t => orErr (v.keyPair t)

def generatePresharedKey : Reads String := ask .random fun v t => orErr (v.presharedKey t)

/-- `storage.ListParams{Limit: 10000}`. -/
def everything : ListParams := { limit := 10000 }

def generateEnrollmentToken (tenantID targetID : ID) : M EnrollmentToken := do
  let tokenStr ← Reads.under "generate token" (ask .random fun v t => orErr (v.random t))
  let id ← newID
  let t ← now
  let token : EnrollmentToken :=
    { id, tenantID, targetType := .node, targetID, token := tokenStr, expiresAt := t + enrollmentTokenTTL
      usedAt := none, createdAt := 0 }
  (write (Store.createEnrollmentToken token)).under "store enrollment token"

/-- `ValidateEnrollmentToken`: the token exists, is not used and has not expired. -/
def validateEnrollmentToken (tokenStr : String) : Reads EnrollmentToken := do
  let token ← (read (Store.getEnrollmentToken tokenStr)).under "get enrollment token"
  if token.usedAt.isSome then
    Query.fail (.detail .conflict "enrollment token already used")
  else
    let t ← now
    if token.expiresAt < t then Query.fail (.detail .conflict "enrollment token expired") else pure token

/-- The addresses of a new peer: IPv4, and IPv6 if a subnet is configured. -/
def allocateAddresses (cfg : WireGuardHub) (peers : List WireGuardPeer) (nodes : List Node) :
    Except Err (String × Option String) := do
  let overlayIP ← (allocateOverlayIP cfg.subnet cfg.address peers nodes).mapError (.under "allocate overlay IP")
  if cfg.ipv6Subnet = "" then return (overlayIP, none)
  else
    let overlayIPv6 ← (allocateOverlayIP cfg.ipv6Subnet cfg.ipv6Address peers nodes).mapError
      (.under "allocate overlay IPv6")
    return (overlayIP, some overlayIPv6)

/-- `AllowedIPs`: the `/32` entry, and the `/128` entry if there is an IPv6 address. -/
def allowedIPs (overlayIP : String) (overlayIPv6 : Option String) : List String :=
  (overlayIP ++ "/32") :: (overlayIPv6.map (· ++ "/128")).toList

/-- Keys and addresses for a node: its peer record is stored, and the node with its
overlay addresses is returned. -/
def createNodePeer (p : Provisioner) (node : Node) : M Node := do
  let (priv, pub) ← generateWireGuardKeyPair.under "generate WG key pair"
  let psk ← generatePresharedKey.under "generate preshared key"
  let encPriv ← (encryptSecret priv).under "encrypt WG private key"
  let encPSK ← (encryptSecret psk).under "encrypt preshared key"
  let (peers, _) ← (readAs (.listWireGuardPeers node.id) fun _ => Store.listWireGuardPeers everything).under
    "list WG peers"
  let (nodes, _) ← (read (Store.listNodes none everything)).under "list nodes"
  let (overlayIP, overlayIPv6) ← Prog.ofExcept (allocateAddresses p.wgConfig peers nodes)
  let id ← newID
  let peer : WireGuardPeer :=
    { id, ownerType := .node, ownerID := node.id, publicKey := pub, privateKey := encPriv, presharedKey := encPSK
      allowedIPs := allowedIPs overlayIP overlayIPv6
      endpoint := node.publicIP ++ ":" ++ toString p.wgConfig.listenPort
      lastRotatedAt := 0, createdAt := 0, updatedAt := 0 }
  let _ ← (writeAs (.createWireGuardPeer node.id) (Store.createWireGuardPeer peer)).under "create WG peer"
  return { node with wireGuardIP := overlayIP, wireGuardIPv6 := overlayIPv6.getD node.wireGuardIPv6 }

/-- `GetWireGuardPeerByOwner` for a node. -/
def lookupNodePeer (nodeID : ID) : Reads WireGuardPeer :=
  readAs (.getWireGuardPeerByOwner nodeID) (Store.getWireGuardPeerByOwner .node nodeID)

/-- Keys and addresses only if the node has no peer yet. -/
def ensureNodePeer (p : Provisioner) (node : Node) : M Node := do
  match ← (lookupNodePeer node.id).attempt with
  | .ok _ => return node
  | .error .notFound => createNodePeer p node
  | .error e => Prog.fail (.under "check existing WG peer" e)

def completeEnrollment (p : Provisioner) (tokenStr : String) : M EnrollmentResult := do
  let token ← validateEnrollmentToken tokenStr
  let node ← (read (Store.getNode token.targetID)).under "get target node"
  let node ← ensureNodePeer p node
  (write (Store.markEnrollmentTokenUsed token.id)).under "mark token used"
  let node ← (write (Store.updateNode { node with status := .online })).under "update node status"
  return { nodeID := node.id, tenantID := node.tenantID, wireGuardIP := node.wireGuardIP }

/-! ## A small fleet -/

namespace Sample

def node (id tenantID : ID) : Node :=
  { onlineNode id with
    tenantID := some tenantID, name := "edge", hostname := "edge", status := .pending, sshKeyID := some 50 }

def token (id tenantID targetID : ID) (text : String) : EnrollmentToken :=
  { id, tenantID, targetType := .node, targetID, token := text, expiresAt := 1000, usedAt := none, createdAt := 0 }

def sshKey : SSHKey :=
  { id := 50, name := "key", publicKey := "", privateKey := "", fingerprint := "", createdAt := 0, lastRotatedAt := 0 }

def controllerPeer : WireGuardPeer :=
  { id := 30, ownerType := .controller, ownerID := controllerPeerID, publicKey := "hub", privateKey := "hub-private"
    presharedKey := "", allowedIPs := ["10.100.0.0/16"], endpoint := ":51820", lastRotatedAt := 0, createdAt := 0
    updatedAt := 0 }

def fleet : Store :=
  { rented with
    sshKeys := ⟨[sshKey], by decide⟩
    nodes := ⟨[node 10 100, node 11 100], by decide⟩
    wireGuardPeers := ⟨[controllerPeer], by decide⟩
    enrollmentTokens := ⟨[token 20 100 10 "first", token 21 100 11 "second"], by decide⟩
    tokenTexts := by decide }

def onlineFleet : Store := { fleet with nodes := ⟨[{ node 10 100 with status := .online }, node 11 100], by decide⟩ }

def provisioner : Provisioner :=
  { wgConfig :=
      { listenPort := 51820, subnet := "10.100.0.0/16", address := "10.100.0.1/16", topology := "hub-spoke"
        ipv6Subnet := "", ipv6Address := "" }
    extURL := "https://controller", binaryPath := "/opt/edgefabric", wgConfigGen := none }

end Sample

/-! ## What the programs may change -/

theorem createNodePeer_within (p : Provisioner) (node : Node) :
    (createNodePeer p node).Within fun _ w w' =>
      ∃ peers, w'.store = { w.store with wireGuardPeers := peers } := by
  have hread : ∀ {α : Type} (q : Reads α), q.1.Within fun _ w w' =>
      ∃ peers, w'.store = { w.store with wireGuardPeers := peers } :=
    fun q => q.within (R := fun s s' => ∃ peers, s' = { s with wireGuardPeers := peers }) fun s =>
      ⟨s.wireGuardPeers, rfl⟩
  unfold createNodePeer
  refine (hread _).bind fun ⟨priv, pub⟩ => (hread _).bind fun psk => (hread _).bind fun encPriv =>
    (hread _).bind fun encPSK => (hread _).bind fun ⟨peers, _⟩ => (hread _).bind fun ⟨nodes, _⟩ =>
    .bind (.ofExcept _) fun ⟨ip, ip6⟩ => (hread _).bind fun id => .bind (.mapError ?_) fun _ => .pure _
  refine within_writeAs (R := fun s s' => ∃ peers, s' = { s with wireGuardPeers := peers })
    (fun s => ⟨s.wireGuardPeers, rfl⟩) fun t s a s' h => ?_
  obtain ⟨_, rows, _, hs⟩ := Store.createWireGuardPeer_ok h
  exact ⟨rows, hs⟩

theorem createNodePeer_later (p : Provisioner) (node : Node) :
    (createNodePeer p node).Within fun _ => World.Later := by
  refine .bind (.mapError later_ask) fun _ => .bind (.mapError later_ask) fun _ =>
    .bind (.mapError later_ask) fun _ => ?_
  refine .bind (.mapError later_ask) fun _ => .bind (.mapError later_readAs) fun _ => ?_
  refine .bind (.mapError later_readAs) fun _ => .bind (.ofExcept _) fun _ => .bind later_ask fun _ => ?_
  exact .bind (.mapError later_writeAs) fun _ => .pure _

theorem validateEnrollmentToken_ends {v : Env} {s : Store} (tokenStr : String) :
    Ends v s (validateEnrollmentToken tokenStr).1
      (fun token s' => s' = s ∧ token ∈ s.enrollmentTokens ∧ token.token = tokenStr) fun _ s' => s' = s := by
  refine .bind (.mapError (Ends.read (fun token htoken => ?_) fun _ => rfl))
  dsimp only
  split
  · exact .fail rfl
  · refine .bind (Ends.now fun t => ?_)
    dsimp only
    split
    · exact .fail rfl
    · exact .pure ⟨rfl, Store.getEnrollmentToken_ok htoken⟩

theorem validateEnrollmentToken_later (tokenStr : String) :
    (validateEnrollmentToken tokenStr).1.Within fun _ => World.Later := by
  refine .bind (.mapError later_readAs) fun token => ?_
  dsimp only
  split
  · exact .fail _
  · refine .bind later_ask fun t => ?_
    dsimp only
    split
    · exact .fail _
    · exact .pure _

theorem completeEnrollment_later (p : Provisioner) (tokenStr : String) :
    (completeEnrollment p tokenStr).Within fun _ => World.Later := by
  refine .bind (validateEnrollmentToken_later tokenStr) fun token => .bind (.mapError later_readAs) fun node => ?_
  refine .bind (.bind (.attempt later_readAs) fun found => ?_) fun node => ?_
  · split
    · exact .pure _
    · exact createNodePeer_later p node
    · exact .fail _
  · exact .bind (.mapError later_writeAs) fun _ => .bind (.mapError later_writeAs) fun _ => .pure _

theorem validateEnrollmentToken_follows {Q : Type} {T : Q → Call → Env → World → World → Q → Prop}
    {I : Env → World → Prop} {q : Q} {tok : String} {B : EnrollmentToken → Prop}
    (hstay : ∀ l v w w', ¬ l.ChangesPeers → w'.store = w.store → T q l v w w' q)
    (hB : ∀ v w k, I v w → k ∈ w.store.enrollmentTokens → k.token = tok → B k) :
    (validateEnrollmentToken tok).1.Follows T I (fun q' r => q' = q ∧ ∀ k, r = .ok k → B k) q := by
  have hread : (read (Store.getEnrollmentToken tok)).1.Follows T I (fun q' r => q' = q ∧ ∀ k, r = .ok k → B k) q := by
    refine .call fun v w hI => ⟨q, hstay _ _ _ _ (by exact id) rfl, rfl, fun k hk => ?_⟩
    obtain ⟨hmem, htok⟩ := Store.getEnrollmentToken_ok (dbAnswer_ok hk)
    exact hB v w k hI hmem htok
  have hno : ∀ (q' : Q) (e : Err), q' = q → q' = q ∧ ∀ k, (.error e : Except Err EnrollmentToken) = .ok k → B k :=
    fun q' e hq => ⟨hq, fun k h => by cases h⟩
  refine .bind (.mapError_ok hread) ?_ fun q' e h => hno q' e h.1
  rintro q k ⟨rfl, hk⟩
  by_cases hused : k.usedAt.isSome
  · simp only [hused, if_true]
    exact .fail (hno _ _ rfl)
  · simp only [hused]
    refine .bind (P := fun q' _ => q' = q) (.call fun v w _ => ⟨q, hstay _ _ _ _ (by exact id) rfl, rfl⟩) ?_ hno
    rintro q t rfl
    by_cases hlate : k.expiresAt < t
    · simp only [hlate, if_true]
      exact .fail (hno _ _ rfl)
    · simp only [hlate, if_false]
      exact .pure ⟨rfl, fun k' h => by cases h; exact hk k rfl⟩

end EdgeFabric
