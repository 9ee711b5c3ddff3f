/-
Overlay addresses (`internal/provisioning/wireguard.go`): the first address of
the overlay subnet that no peer, no node and not the controller uses.
-/
import EdgeFabric.World
import EdgeFabric.Lib.IP

namespace EdgeFabric

open IP (Addr Net)

/-- `net.ParseCIDR`, falling back to `net.ParseIP`: the address part of a text. -/
def parseAddrOrCIDR (s : String) : Option Addr :=
  match IP.parseCIDR s.toList with
  | some (ip, _) => some ip
  | none => IP.parse s.toList

/-- `ip.To4().String()`; a nil address prints as `<nil>`. -/
def to4Text (ip : Addr) : List Char :=
  match IP.to4 ip with
  | some a => IP.text4 a
  | none => "<nil>".toList

/-! ## IPv4 -/

/-- A network that `AllocateOverlayIP` treats as IPv4: its address, the length of
its mask and the address it reserves as broadcast. -/
structure Subnet4 where
  network : BitVec 32
  ones : Nat
  broadcast : BitVec 32
  deriving DecidableEq, Repr

/-- The family in which `AllocateOverlayIP` looks for an address. -/
inductive Overlay where
  | v4 (n : Subnet4)
  | v6 (network : Addr) (ones : Nat)
  deriving DecidableEq, Repr

/-- IPv4 if `ipNet.IP.To4() != nil`. A mapped IPv6 network has a mask of sixteen
bytes, of which `broadcastAddr` reads the first four: all ones. -/
def overlay : Net → Overlay
  | .v4 a ones => .v4 ⟨a, ones, BitVec.ofNat 32 (a.toNat + (2 ^ (32 - ones) - 1))⟩
  | .v6 a ones =>
    match IP.to4 a with
    | some a4 => .v4 ⟨a4, ones - 96, a4⟩
    | none => .v6 a ones

/-- `ipNet.Contains`, for an IPv4 address. -/
def Subnet4.contains (n : Subnet4) (ip : BitVec 32) : Bool :=
  ip.toNat / 2 ^ (32 - n.ones) = n.network.toNat / 2 ^ (32 - n.ones)

/-- The addresses in use, as texts: network, broadcast, controller, the peers'
allowed IPs and the nodes' overlay addresses. -/
def usedIPv4 (n : Subnet4) (controllerAddr : String) (peers : List WireGuardPeer) (nodes : List Node) :
    List (List Char) :=
  [IP.text4 n.network, IP.text4 n.broadcast] ++
  ((if controllerAddr = "" then none else parseAddrOrCIDR controllerAddr).map to4Text).toList ++
  peers.flatMap (fun p => p.allowedIPs.filterMap fun cidr => (parseAddrOrCIDR cidr).map to4Text) ++
  nodes.filterMap (fun n => (if n.wireGuardIP = "" then none else IP.parse n.wireGuardIP.toList).map to4Text)

/-- The loop from `ip` on, for at most `fuel` addresses. -/
def firstFree4 (n : Subnet4) (used : List (List Char)) : Nat → BitVec 32 → Option (List Char)
  | 0, _ => none
  | fuel + 1, ip =>
    if n.contains ip then
      if used.contains (IP.text4 ip) then firstFree4 n used fuel (ip + 1) else some (IP.text4 ip)
    else none

/-! ## IPv6 -/

/-- The addresses in use: network, controller, the peers' IPv6 allowed IPs and the
nodes' IPv6 overlay addresses. -/
def usedIPv6 (network : Addr) (controllerAddr : String) (peers : List WireGuardPeer) (nodes : List Node) :
    List (List Char) :=
  [IP.text network] ++
  ((if controllerAddr = "" then none else parseAddrOrCIDR controllerAddr).map IP.text).toList ++
  peers.flatMap (fun p => p.allowedIPs.filterMap fun cidr =>
    match parseAddrOrCIDR cidr with
    | some ip => if IP.to4 ip = none then some (IP.text ip) else none
    | none => none) ++
  nodes.filterMap (fun n => (if n.wireGuardIPv6 = "" then none else IP.parse n.wireGuardIPv6.toList).map IP.text)

/-- The loop from `current` on, for `count` addresses. -/
def firstFree6 (used : List (List Char)) : Nat → Nat → Option (List Char)
  | 0, _ => none
  | count + 1, current =>
    let ip := BitVec.ofNat 128 current
    if used.contains (IP.text ip) then firstFree6 used count (current + 1) else some (IP.text ip)

def allocateOverlayIPv6 (network : Addr) (ones : Nat) (controllerAddr : String) (peers : List WireGuardPeer)
    (nodes : List Node) : Except Err String :=
  -- from network + 1 to the last address of the subnet
  match firstFree6 (usedIPv6 network controllerAddr peers nodes) (2 ^ (128 - ones) - 1) (network.toNat + 1) with
  | some cs => .ok (String.ofList cs)
  | none => .error (.detail .conflict
      ("overlay IPv6 subnet " ++ String.ofList (IP.text network) ++ "/" ++ toString ones ++ " exhausted"))

/-- `AllocateOverlayIP`. The IPv4 loop runs until it leaves the subnet; for a `/0`
subnet it wraps around, and after all `2 ^ 32` addresses (where the source would
go on for ever) the subnet counts as exhausted. -/
def allocateOverlayIP (subnet controllerAddr : String) (peers : List WireGuardPeer) (nodes : List Node) :
    Except Err String :=
  match IP.parseCIDR subnet.toList with
  | none => .error (.under ("parse subnet " ++ quote subnet) (.text ("invalid CIDR address: " ++ subnet)))
  | some (_, ipNet) =>
    match overlay ipNet with
    | .v4 n =>
      match firstFree4 n (usedIPv4 n controllerAddr peers nodes) (2 ^ 32) (n.network + 1) with
      | some cs => .ok (String.ofList cs)
      | none => .error (.detail .conflict ("overlay subnet " ++ subnet ++ " exhausted"))
    | .v6 network ones => allocateOverlayIPv6 network ones controllerAddr peers nodes

example : allocateOverlayIP "10.100.0.0/16" "10.100.0.1/16" [] [] = .ok "10.100.0.2" := by decide
example : allocateOverlayIP "fd00:ef::/48" "fd00:ef::1/48" [] [] = .ok "fd00:ef::2" := by decide

/-! ## What is allocated is not in use -/

theorem firstFree4_some {n : Subnet4} {used : List (List Char)} {fuel : Nat} {ip : BitVec 32} {cs : List Char}
    (h : firstFree4 n used fuel ip = some cs) : ∃ a, cs = IP.text4 a ∧ cs ∉ used := by
  induction fuel generalizing ip with
  | zero => cases h
  | succ fuel ih =>
    simp only [firstFree4] at h
    split at h
    · split at h
      · exact ih h
      · next hfree =>
        cases h
        exact ⟨ip, rfl, by simpa using hfree⟩
    · cases h

theorem firstFree6_some {used : List (List Char)} {count current : Nat} {cs : List Char}
    (h : firstFree6 used count current = some cs) :
    ∃ k, current ≤ k ∧ k < current + count ∧ cs = IP.text (BitVec.ofNat 128 k) ∧ cs ∉ used := by
  induction count generalizing current with
  | zero => cases h
  | succ count ih =>
    simp only [firstFree6] at h
    split at h
    · obtain ⟨k, hlo, hhi, hk⟩ := ih h
      exact ⟨k, by omega, by omega, hk⟩
    · next hfree =>
      cases h
      exact ⟨current, le_refl _, by omega, rfl, by simpa using hfree⟩

end EdgeFabric
