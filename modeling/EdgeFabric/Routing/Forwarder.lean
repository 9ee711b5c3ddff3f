/-
The route forwarders (`internal/routeserver/forwarder.go` on a node,
`internal/gatewayrt/forwarder.go` on a gateway): which listeners are open and
what the shared ICMP proxy knows, from one `Start`, `Stop` or `Reconcile` to the
next. The two forwarders differ in where they listen and dial, in what they
compare to see that a route changed, and in what they tell the proxy; a `Side`
has these, the rest is one definition. What is accepted and relayed on an open
listener is not part of this model.

Whether a bind succeeds and in which order a map is ranged over is the operating
system's and the runtime's; a bind may depend on the sockets that are open.
-/
import EdgeFabric.Lib.Dict
import EdgeFabric.Route

namespace EdgeFabric.Routing

inductive Transport where
  | tcp | udp
  deriving DecidableEq, Repr

/-- The host part of an address: an IP address, however it is written, or some other
text. -/
inductive Host where
  | ip (addr : IP.Addr) | name (text : String)
  deriving DecidableEq, Repr

def Host.of (text : String) : Host :=
  match IP.parse text.toList with
  | some addr => .ip addr
  | none => .name text

structure Addr where
  host : Host
  port : Int
  deriving DecidableEq, Repr

def safePort (port : Option Int) : Int := port.getD 0

/-- `net.JoinHostPort` of a host and a port that may be missing. -/
def Addr.of (host : String) (port : Option Int) : Addr := ⟨.of host, safePort port⟩

/-- A listening socket; no two sockets ever opened have the same number. -/
structure Listener where
  number : Nat
  transport : Transport
  addr : Addr
  deriving DecidableEq, Repr

/-- What the operating system and the runtime decide, by the number of the call. -/
structure Os extends RangeOrder where
  bind : Nat → Transport → Addr → List Listener → Bool
  rawSocket : Nat → Bool

/-! ## The two sides -/

/-- What one side's forwarder makes of the items of its configuration. -/
structure Side where
  Item : Type
  /-- an entry of the ICMP proxy's table -/
  Entry : Type
  what : String
  route : Item → Route
  listen : Item → Addr
  dial : Item → Addr
  /-- `routeChanged`, of the item a route runs with and the desired one -/
  routeChanged : Item → Item → Bool
  icmpEntry : Item → Entry
  icmpKey : Entry → String
  /-- what `routeChanged` compares -/
  Fields : Type
  fields : Item → Fields
  routeChanged_iff : ∀ a b, routeChanged a b = true ↔ fields a ≠ fields b
  /-- the traffic of a route depends on what is compared only -/
  traffic : ∀ a b, fields a = fields b →
    listen a = listen b ∧ dial a = dial b ∧ (route a).protocol = (route b).protocol
  icmpTraffic : ∀ a b, fields a = fields b → (route a).id = (route b).id → icmpEntry a = icmpEntry b
  /-- the table has room for routes with different entry addresses -/
  icmpApart : ∀ a b, icmpKey (icmpEntry a) = icmpKey (icmpEntry b) →
    (route a).entryIP = (route b).entryIP ∨ (route a).id = (route b).id

namespace RouteServer
open RouteService (RouteWithGateway)

def routeChanged (existing desired : RouteWithGateway) : Bool :=
  if existing.route.entryIP ≠ desired.route.entryIP then true
  else if existing.route.entryPort ≠ desired.route.entryPort then true
  else if existing.route.protocol ≠ desired.route.protocol then true
  else if existing.gatewayWGIP ≠ desired.gatewayWGIP then true
  else if existing.route.destinationIP ≠ desired.route.destinationIP then true
  else if existing.route.destinationPort ≠ desired.route.destinationPort then true
  else false

structure IcmpRoute where
  routeID : String
  entryIP : String
  gatewayWGIP : String
  destinationIP : String
  deriving DecidableEq, Repr

/-- The forwarder of a node: from a route's entry address to the gateway. -/
def side : Side where
  Item := RouteWithGateway
  Entry := IcmpRoute
  what := "route forwarder"
  route d := d.route
  listen d := .of d.route.entryIP d.route.entryPort
  dial d := .of d.gatewayWGIP d.route.entryPort
  routeChanged := routeChanged
  icmpEntry d :=
    { routeID := d.route.id.text, entryIP := d.route.entryIP, gatewayWGIP := d.gatewayWGIP
      destinationIP := d.route.destinationIP }
  icmpKey := IcmpRoute.entryIP
  Fields := String × Option Int × RouteProtocol × String × String × Option Int
  fields d := (d.route.entryIP, d.route.entryPort, d.route.protocol, d.gatewayWGIP, d.route.destinationIP,
    d.route.destinationPort)
  routeChanged_iff a b := by
    simp only [routeChanged, ne_eq, Prod.mk.injEq, ite_not, Bool.if_true_right]
    grind
  traffic a b h := by
    simp only [Prod.mk.injEq] at h
    obtain ⟨hip, hport, hproto, hgw, _⟩ := h
    exact ⟨by rw [hip, hport], by rw [hgw, hport], hproto⟩
  icmpTraffic a b h hid := by
    simp only [Prod.mk.injEq] at h
    obtain ⟨hip, _, _, hgw, hdest, _⟩ := h
    simp only [hip, hgw, hdest, hid]
  icmpApart _ _ h := .inl h

instance : DecidableEq side.Item := inferInstanceAs (DecidableEq RouteWithGateway)
instance : DecidableEq side.Entry := inferInstanceAs (DecidableEq IcmpRoute)
instance : DecidableEq side.Fields :=
  inferInstanceAs (DecidableEq (String × Option Int × RouteProtocol × String × String × Option Int))

end RouteServer

namespace GatewayRt

def routeChanged (existing desired : Route) : Bool :=
  if existing.entryPort ≠ desired.entryPort then true
  else if existing.protocol ≠ desired.protocol then true
  else if existing.destinationIP ≠ desired.destinationIP then true
  else if existing.destinationPort ≠ desired.destinationPort then true
  else false

structure IcmpRoute where
  routeID : String
  destinationIP : String
  deriving DecidableEq, Repr

/-- The forwarder of a gateway: from its overlay address, at a route's entry port, to the
destination. -/
def side (wireGuardIP : String) : Side where
  Item := Route
  Entry := IcmpRoute
  what := "gateway route forwarder"
  route r := r
  listen r := .of wireGuardIP r.entryPort
  dial r := .of r.destinationIP r.destinationPort
  routeChanged := routeChanged
  icmpEntry r := { routeID := r.id.text, destinationIP := r.destinationIP }
  icmpKey := IcmpRoute.routeID
  Fields := Option Int × RouteProtocol × String × Option Int
  fields r := (r.entryPort, r.protocol, r.destinationIP, r.destinationPort)
  routeChanged_iff a b := by
    simp only [routeChanged, ne_eq, Prod.mk.injEq]
    grind
  traffic a b h := by
    simp only [Prod.mk.injEq] at h
    obtain ⟨hport, hproto, hip, hdport⟩ := h
    exact ⟨by rw [hport], by rw [hip, hdport], hproto⟩
  icmpTraffic a b h hid := by
    simp only [Prod.mk.injEq] at h
    simp only [h.2.2.1, hid]
  icmpApart _ _ h := .inr (Uuid.text_injective (String.ofList_injective h))

instance (ip : String) : DecidableEq (side ip).Item := inferInstanceAs (DecidableEq Route)
instance (ip : String) : DecidableEq (side ip).Entry := inferInstanceAs (DecidableEq IcmpRoute)
instance (ip : String) : DecidableEq (side ip).Fields :=
  inferInstanceAs (DecidableEq (Option Int × RouteProtocol × String × Option Int))

end GatewayRt

/-! ## The forwarder -/

structure Runtime (side : Side) where
  item : side.Item
  tcpListener : Option Listener
  udpConn : Option Listener

variable {side : Side}

def Runtime.id (rt : Runtime side) : ID := (side.route rt.item).id

/-- The service, with the listening sockets that it has open and the number of calls to
the operating system so far. -/
structure Forwarder (side : Side) where
  running : Bool
  routes : Table fun rt : Runtime side => rt.id
  /-- the table of the ICMP proxy, if there is a proxy -/
  icmpProxy : Option (Table side.icmpKey)
  icmpOnce : Bool
  sockets : List Listener
  calls : Nat

inductive StartError where
  | listen (transport : Transport) (addr : Addr)
  | initICMP
  | icmpUnavailable
  | unsupported (protocol : RouteProtocol)
  deriving DecidableEq, Repr

namespace Forwarder

/-- `NewForwarderService`. -/
def new (side : Side) : Forwarder side :=
  { running := false, routes := ∅, icmpProxy := none, icmpOnce := false, sockets := [], calls := 0 }

/-- `net.Listen` or `net.ListenPacket`. -/
def listen (v : Os) (t : Transport) (a : Addr) (s : Forwarder side) : Except StartError Listener × Forwarder side :=
  if v.bind s.calls t a s.sockets then
    (.ok ⟨s.calls, t, a⟩, { s with calls := s.calls + 1, sockets := ⟨s.calls, t, a⟩ :: s.sockets })
  else (.error (.listen t a), { s with calls := s.calls + 1 })

/-- `Close` of a listener that may be missing. -/
def close (l : Option Listener) (s : Forwarder side) : Forwarder side :=
  { s with sockets := s.sockets.filter fun k => l ≠ some k }

/-- The next loop over a map is given an order of its own. -/
def ranged (s : Forwarder side) : Forwarder side := { s with calls := s.calls + 1 }

/-- `icmpOnce.Do`: the proxy is made at the first call only; an error is reported to that
call only. -/
def initICMP (v : Os) (s : Forwarder side) : Except StartError Unit × Forwarder side :=
  if s.icmpOnce then (.ok (), s)
  else if v.rawSocket s.calls then (.ok (), { s with calls := s.calls + 1, icmpOnce := true, icmpProxy := some ∅ })
  else (.error .initICMP, { s with calls := s.calls + 1, icmpOnce := true, icmpProxy := none })

def startICMPRoute (v : Os) (d : side.Item) (s : Forwarder side) : Except StartError Unit × Forwarder side :=
  match s.initICMP v with
  | (.error e, s) => (.error e, s)
  | (.ok _, s) =>
    match s.icmpProxy with
    | none => (.error .icmpUnavailable, s)
    | some table => (.ok (), { s with icmpProxy := some (table.put (side.icmpEntry d)) })

def startRoute (v : Os) (d : side.Item) (s : Forwarder side) : Except StartError (Runtime side) × Forwarder side :=
  let protocol := (side.route d).protocol
  if protocol = .tcp then
    match s.listen v .tcp (side.listen d) with
    | (.error e, s) => (.error e, s)
    | (.ok l, s) => (.ok ⟨d, some l, none⟩, s)
  else if protocol = .udp then
    match s.listen v .udp (side.listen d) with
    | (.error e, s) => (.error e, s)
    | (.ok l, s) => (.ok ⟨d, none, some l⟩, s)
  else if protocol = .all then
    match s.listen v .tcp (side.listen d) with
    | (.error e, s) => (.error e, s)
    | (.ok l, s) =>
      match s.listen v .udp (side.listen d) with
      | (.error e, s) => (.error e, s.close (some l))
      | (.ok k, s) => (.ok ⟨d, some l, some k⟩, s)
  else if protocol = .icmp then
    match s.startICMPRoute v d with
    | (.error e, s) => (.error e, s)
    | (.ok _, s) => (.ok ⟨d, none, none⟩, s)
  else (.error (.unsupported protocol), s)

/-- `stopRouteLocked`, and the deletion from the map that follows it everywhere. -/
def stopRoute (rt : Runtime side) (s : Forwarder side) : Forwarder side :=
  let s := (s.close rt.tcpListener).close rt.udpConn
  { s with routes := s.routes.remove rt.id }

/-- The start of a desired route; a failure is logged and the route left out. -/
def tryStart (v : Os) (d : side.Item) (s : Forwarder side) : Forwarder side :=
  match s.startRoute v d with
  | (.error _, s) => s
  | (.ok rt, s) => { s with routes := s.routes.put rt }

def reconcileRoute (v : Os) (s : Forwarder side) (d : side.Item) : Forwarder side :=
  match s.routes.find (side.route d).id with
  | some existing =>
    if !side.routeChanged existing.item d then s
    else (s.stopRoute existing).tryStart v d
  | none => s.tryStart v d

def desired (config : Option (List side.Item)) : Table fun d : side.Item => (side.route d).id :=
  .ofList (config.getD [])

def stopRemoved (want : Table fun d : side.Item => (side.route d).id) (s : Forwarder side) (rt : Runtime side) :
    Forwarder side :=
  if want.find rt.id = none then s.stopRoute rt else s

def start (s : Forwarder side) : Except Err Unit × Forwarder side :=
  if s.running then (.error (.text (side.what ++ " already running")), s) else (.ok (), { s with running := true })

def stop (v : Os) (s : Forwarder side) : Except Err Unit × Forwarder side :=
  if !s.running then (.error (.text (side.what ++ " not running")), s)
  else
    let s := (v.order s.calls s.routes.rows).foldl (fun s rt => s.stopRoute rt) s.ranged
    (.ok (), { s with icmpProxy := none, running := false })

def stopAllRemoved (v : Os) (want : Table fun d : side.Item => (side.route d).id) (s : Forwarder side) :
    Forwarder side :=
  (v.order s.calls s.routes.rows).foldl (stopRemoved want) s.ranged

def startDesired (v : Os) (want : Table fun d : side.Item => (side.route d).id) (s : Forwarder side) : Forwarder side :=
  (v.order s.calls want.rows).foldl (reconcileRoute v) s.ranged

def reconcileRoutes (v : Os) (config : Option (List side.Item)) (s : Forwarder side) : Forwarder side :=
  (s.stopAllRemoved v (desired config)).startDesired v (desired config)

def reconcile (v : Os) (config : Option (List side.Item)) (s : Forwarder side) : Except Err Unit × Forwarder side :=
  if !s.running then (.error (.text (side.what ++ " not running")), s)
  else (.ok (), s.reconcileRoutes v config)

end Forwarder

inductive ForwarderCall (side : Side) where
  | start
  | stop
  | reconcile (config : Option (List side.Item))

def ForwarderCall.run (v : Os) (s : Forwarder side) : ForwarderCall side → Forwarder side
  | .start => s.start.2
  | .stop => (s.stop v).2
  | .reconcile config => (s.reconcile v config).2

def Forwarder.after (v : Os) (calls : List (ForwarderCall side)) : Forwarder side :=
  calls.foldl (ForwarderCall.run v) (.new side)

def Sample.os : Os :=
  { RangeOrder.asStored with
    bind := fun _ t a held => !held.any fun l => l.transport = t ∧ l.addr = a
    rawSocket := fun _ => true }

end EdgeFabric.Routing
