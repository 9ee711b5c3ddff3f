/-
Where a forwarder sends what it accepts: a listener takes what is sent to its
address, or, at a wildcard address, to its port, and passes it on to the address that
its route dials (`Forwarder.targets`). The sockets that are open are those of the
routes that run, so that the routes decide (`Forwarder.mem_targets`).
-/
import EdgeFabric.Routing.OneReconcile

namespace EdgeFabric.Routing

variable {side : Side}

/-- The host stands for all addresses of the machine. -/
def Host.isWildcard : Host → Bool
  | .ip addr => addr = 0 ∨ addr = IP.of4 0
  | .name text => text = ""

/-- A listener at `a` is given what is sent to `b`. -/
def Addr.Takes (a b : Addr) : Prop := (a.host = b.host ∨ a.host.isWildcard = true) ∧ a.port = b.port

instance (a b : Addr) : Decidable (a.Takes b) :=
  inferInstanceAs (Decidable ((a.host = b.host ∨ a.host.isWildcard = true) ∧ a.port = b.port))

/-- The route accepts what arrives on network `t` at address `a`. -/
def Runtime.accepts (s : Forwarder side) (t : Transport) (a : Addr) (rt : Runtime side) : Bool :=
  (rt.tcpListener.toList ++ rt.udpConn.toList).any fun l => l ∈ s.sockets ∧ l.transport = t ∧ l.addr.Takes a

/-- Where the forwarder sends what arrives on network `t` at address `a`. -/
def Forwarder.targets (s : Forwarder side) (t : Transport) (a : Addr) : List Addr :=
  (s.routes.rows.filter (Runtime.accepts s t a)).map fun rt => side.dial rt.item

theorem Runtime.Shaped.listener {rt : Runtime side} (h : rt.Shaped) {t : Transport} (hu : side.Uses rt.item t) :
    ∃ l, rt.Owns l ∧ l.transport = t ∧ l.addr = side.listen rt.item := by
  cases t with
  | tcp =>
    obtain ⟨l, hl⟩ := Option.isSome_iff_exists.mp (h.tcp.mpr hu)
    exact ⟨l, .inl hl, h.tcpAt l hl⟩
  | udp =>
    obtain ⟨l, hl⟩ := Option.isSome_iff_exists.mp (h.udp.mpr hu)
    exact ⟨l, .inr hl, h.udpAt l hl⟩

theorem Runtime.accepts_iff {s : Forwarder side} {t : Transport} {a : Addr} {rt : Runtime side} :
    rt.accepts s t a = true ↔ ∃ l, rt.Owns l ∧ l ∈ s.sockets ∧ l.transport = t ∧ l.addr.Takes a := by
  simp [Runtime.accepts, Runtime.Owns, or_and_right, exists_or]

theorem Forwarder.mem_targets {s : Forwarder side} (h : s.WF) {t : Transport} {a b : Addr} :
    b ∈ s.targets t a ↔
      ∃ rt ∈ s.routes, side.Uses rt.item t ∧ (side.listen rt.item).Takes a ∧ side.dial rt.item = b := by
  simp only [targets, List.mem_map, List.mem_filter, Runtime.accepts_iff]
  constructor
  · rintro ⟨rt, ⟨hrt, l, hown, _, rfl, htakes⟩, rfl⟩
    have hshaped := h.shaped rt hrt
    exact ⟨rt, hrt, hshaped.uses hown, hshaped.addr hown ▸ htakes, rfl⟩
  · rintro ⟨rt, hrt, hu, htakes, rfl⟩
    obtain ⟨l, hown, htrans, haddr⟩ := (h.shaped rt hrt).listener hu
    exact ⟨rt, ⟨hrt, l, hown, h.opened rt hrt l hown, htrans, haddr ▸ htakes⟩, rfl⟩

end EdgeFabric.Routing
