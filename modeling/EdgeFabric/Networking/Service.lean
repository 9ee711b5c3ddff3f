/-
The networking service (`internal/networking`): BGP sessions, IP allocations,
and what is known of a node's network.
-/
import EdgeFabric.Networking.WireGuard
import EdgeFabric.Route

namespace EdgeFabric
namespace NetworkingService

structure CreateBGPSessionRequest where
  nodeID : ID
  peerASN : Nat
  peerAddress : String
  localASN : Nat
  announcedPrefixes : List String := []
  importPolicy : String := ""
  exportPolicy : String := ""
  deriving DecidableEq, Repr

structure UpdateBGPSessionRequest where
  peerASN : Option Nat := none
  peerAddress : Option String := none
  localASN : Option Nat := none
  status : Option BGPSessionStatus := none
  announcedPrefixes : Option (List String) := none
  importPolicy : Option String := none
  exportPolicy : Option String := none
  deriving DecidableEq, Repr

structure CreateIPAllocationRequest where
  tenantID : ID
  pfx : String
  type : IPAllocationType
  purpose : IPAllocationPurpose
  deriving DecidableEq, Repr

structure UpdateIPAllocationRequest where
  status : Option IPAllocationStatus := none
  deriving DecidableEq, Repr

/-! ## BGP sessions -/

def checkPeerAddress (address : String) : Except Err Unit :=
  if isIP address then .ok () else .error (.text ("invalid peer_address: " ++ quote address))

def checkBGPSession (req : CreateBGPSessionRequest) : Except Err Unit :=
  if req.peerASN = 0 then .error (.text "peer_asn is required")
  else if req.peerAddress = "" then .error (.text "peer_address is required")
  else do
    checkPeerAddress req.peerAddress
    if req.localASN = 0 then .error (.text "local_asn is required") else .ok ()

def createBGPSession (req : CreateBGPSessionRequest) : Service BGPSession := do
  let _ ← (read (Store.getNode req.nodeID)).under "node not found"
  Query.ofExcept (checkBGPSession req)
  let id ← newID
  (save (Store.createBGPSession
    { id, nodeID := req.nodeID, peerASN := req.peerASN, peerAddress := req.peerAddress, localASN := req.localASN
      status := .configured, announcedPrefixes := req.announcedPrefixes, importPolicy := req.importPolicy
      exportPolicy := req.exportPolicy, metadata := none, createdAt := 0, updatedAt := 0 })).under "create bgp session"

def getBGPSession (id : ID) : Reads BGPSession := read (Store.getBGPSession id)

def listBGPSessions (nodeID : ID) (p : ListParams) : Reads (List BGPSession × Nat) :=
  read (Store.listBGPSessions nodeID p)

def UpdateBGPSessionRequest.apply (req : UpdateBGPSessionRequest) (b : BGPSession) : BGPSession :=
  { b with
    peerASN := req.peerASN.getD b.peerASN
    peerAddress := req.peerAddress.getD b.peerAddress
    localASN := req.localASN.getD b.localASN
    status := req.status.getD b.status
    announcedPrefixes := req.announcedPrefixes.getD b.announcedPrefixes
    importPolicy := req.importPolicy.getD b.importPolicy
    exportPolicy := req.exportPolicy.getD b.exportPolicy }

def updateBGPSession (id : ID) (req : UpdateBGPSessionRequest) : Service BGPSession := do
  let b ← read (Store.getBGPSession id)
  Query.ofExcept (req.peerAddress.elim (.ok ()) checkPeerAddress)
  (save (Store.updateBGPSession (req.apply b))).under "update bgp session"

def deleteBGPSession (id : ID) : Service Unit := save fun _ => Store.deleteBGPSession id

/-! ## IP allocations -/

def checkIPAllocation (req : CreateIPAllocationRequest) : Except Err Unit :=
  if req.pfx = "" then .error (.text "prefix is required")
  else if (IP.parseCIDR req.pfx.toList).isNone then
    .error (.under "invalid CIDR prefix" (.text ("invalid CIDR address: " ++ req.pfx)))
  else if req.type = "" then .error (.text "type is required")
  else if req.purpose = "" then .error (.text "purpose is required")
  else .ok ()

def createIPAllocation (req : CreateIPAllocationRequest) : Service IPAllocation := do
  Query.ofExcept (checkIPAllocation req)
  let id ← newID
  (save (Store.createIPAllocation
    { id, tenantID := req.tenantID, pfx := req.pfx, type := req.type, purpose := req.purpose, status := .pending
      createdAt := 0, updatedAt := 0 })).under "create ip allocation"

def getIPAllocation (id : ID) : Reads IPAllocation := read (Store.getIPAllocation id)

def listIPAllocations (tenantID : ID) (p : ListParams) : Reads (List IPAllocation × Nat) :=
  read (Store.listIPAllocations tenantID p)

def updateIPAllocation (id : ID) (req : UpdateIPAllocationRequest) : Service IPAllocation := do
  let a ← read (Store.getIPAllocation id)
  (save (Store.updateIPAllocation { a with status := req.status.getD a.status })).under "update ip allocation"

def deleteIPAllocation (id : ID) : Service Unit := save fun _ => Store.deleteIPAllocation id

/-! ## WireGuard peers -/

def listWireGuardPeers (p : ListParams) : Reads (List WireGuardPeer × Nat) := read (Store.listWireGuardPeers p)

/-- What is known of a node's network. -/
structure NodeNetworkingState where
  nodeID : ID
  wireGuardIP : String
  wireGuardPeer : Option WireGuardPeer
  bgpSessions : List BGPSession
  deriving DecidableEq, Repr

/-- `GetNodeNetworkingState`. A peer record may be missing. -/
def getNodeNetworkingState (nodeID : ID) : Reads NodeNetworkingState := do
  let node ← (read (Store.getNode nodeID)).under "get node"
  let peer ← (lookupNodePeer nodeID).attempt
  let (bgpSessions, _) ← (read (Store.listBGPSessions nodeID { limit := 1000 })).under "list bgp sessions"
  return { nodeID, wireGuardIP := node.wireGuardIP, wireGuardPeer := peer.toOption, bgpSessions }

end NetworkingService
end EdgeFabric
