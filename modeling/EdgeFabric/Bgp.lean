/-
The BGP speaker of a node (`internal/bgp/gobgp.go`): peers and announced prefixes
are brought from what they are to what the controller wants, through an embedded
GoBGP server whose calls may fail at any point of a reconcile.

A reconcile removes the peers that are gone and adds the new ones with their
prefixes. A peer that is there already is skipped, whatever its session says now,
and no prefix is ever withdrawn (`reconcile_ends`). So a reconcile converges where
nothing has to be withdrawn and the sessions of the peers that stay ask for nothing
new, and nowhere else (`reconcile_converges`). What the server makes of a path it is
asked to add is its own affair: the service keeps the identifier it is given.
-/
import EdgeFabric.Lib.Dict
import EdgeFabric.Lib.IP
import EdgeFabric.Lib.Trace
import EdgeFabric.World

namespace EdgeFabric.Bgp

/-! ## The server -/

structure Peer where
  address : String
  asn : Nat
  deriving DecidableEq, Repr

/-- What a path is asked for: the address as it is written and a mask length, in one of the
two families. -/
structure Nlri where
  isIPv6 : Bool
  prefixLen : Nat
  addr : IP.Addr
  deriving DecidableEq, Repr

/-- The peers the GoBGP server is configured with. -/
structure Server where
  peers : Table Peer.address

def Server.new : Server := ⟨∅⟩

/-- What the server and the runtime decide, by the number of the call: failures, the
identifiers of paths, and the order in which a loop visits the keys of a map. -/
structure Gobgp where
  fault : Nat → Option Err
  uuid : Nat → String
  order : Nat → List String → List String
  perm : ∀ n keys, (order n keys).Perm keys

/-! ## The service -/

structure Announcement where
  pfx : String
  uuid : String
  deriving DecidableEq, Repr

structure GoBGPService where
  running : Bool
  routerID : String
  localASN : Nat
  peers : Table fun addr : String => addr
  prefixes : Table Announcement.pfx
  server : Server
  /-- calls so far -/
  calls : Nat

namespace GoBGPService

/-- `NewGoBGPService`. -/
def new : GoBGPService :=
  { running := false, routerID := "", localASN := 0, peers := ∅, prefixes := ∅, server := .new, calls := 0 }

/-- What a step is: a call of the server, or the service's own. -/
inductive Op where
  | own | startBgp | stopBgp | addPeer (addr : String) | deletePeer (addr : String)
  | addPath (n : Nlri) (nextHop : String)
  deriving DecidableEq, Repr

abbrev Method := Prog Op Gobgp GoBGPService Err

def get : Method GoBGPService := .call .own fun _ s => (.ok s, s)

def modify (f : GoBGPService → GoBGPService) : Method Unit := .call .own fun _ s => (.ok (), f s)

def range {α : Type} {key : α → String} (map : GoBGPService → Table key) : Method (List α) :=
  .call .own fun v s =>
    (.ok ((v.order s.calls ((map s).rows.map key)).filterMap fun k => (map s).find k), { s with calls := s.calls + 1 })

/-- A call of the server: atomic, and without effect when it fails. -/
def request {α : Type} (op : Op) (answer : Gobgp → Nat → α) (act : α → Server → Server) : Method α :=
  .call op fun v s =>
    match v.fault s.calls with
    | some e => (.error e, { s with calls := s.calls + 1 })
    | none => (.ok (answer v s.calls), { s with calls := s.calls + 1, server := act (answer v s.calls) s.server })

def startBgp : Method Unit := request .startBgp (fun _ _ => ()) fun _ server => server

def stopBgp : Method Unit := request .stopBgp (fun _ _ => ()) fun _ _ => .new

def addPeer (p : Peer) : Method Unit :=
  request (.addPeer p.address) (fun _ _ => ()) fun _ server => { server with peers := server.peers.put p }

def deletePeer (addr : String) : Method Unit :=
  request (.deletePeer addr) (fun _ _ => ()) fun _ server => { server with peers := server.peers.remove addr }

def addPath (n : Nlri) (nextHop : String) : Method String :=
  request (.addPath n nextHop) Gobgp.uuid fun _ server => server

/-- `Start`: a new server each time. -/
def start (routerID : String) (localASN : Nat) : Method Unit := do
  if (← get).running then .fail (.text "bgp service already running")
  else
    modify fun s => { s with server := .new }
    startBgp.mapError (.under "start bgp")
    modify fun s => { s with running := true, routerID, localASN }

def stop : Method Unit := do
  if !(← get).running then .fail (.text "bgp service not running")
  else
    stopBgp.mapError (.under "stop bgp")
    modify fun s => { s with running := false, peers := ∅, prefixes := ∅ }

def nlri (pfx : String) : Option Nlri :=
  match IP.parseCIDR pfx.toList with
  | some (ip, .v4 _ ones) | some (ip, .v6 _ ones) => some ⟨(IP.to4 ip).isNone, ones, ip⟩
  | none => none

def announcePrefix (pfx nextHop : String) : Method Unit :=
  match nlri pfx with
  | none => .fail (.under "invalid CIDR" (.text ("invalid CIDR address: " ++ pfx)))
  | some n => do
    let uuid ← (addPath n nextHop).mapError (.under "add path")
    modify fun s => { s with prefixes := s.prefixes.put ⟨pfx, uuid⟩ }

def announceNew (pfx : String) : Method Unit := do
  let s ← get
  if (s.prefixes.find pfx).isSome then pure ()
  else (announcePrefix pfx s.routerID).mapError (.under ("announce prefix " ++ pfx))

def removePeer (desiredPeers : Table BGPSession.peerAddress) (addr : String) : Method Unit :=
  if (desiredPeers.find addr).isSome then pure ()
  else do
    (deletePeer addr).mapError (.under ("delete peer " ++ addr))
    modify fun s => { s with peers := s.peers.remove addr }

def peerOf (sess : BGPSession) : Peer := ⟨sess.peerAddress, sess.peerASN⟩

def addSession (sess : BGPSession) : Method Unit := do
  if ((← get).peers.find sess.peerAddress).isSome then
    pure () -- "skip for now (update could be added later)"
  else
    (addPeer (peerOf sess)).mapError (.under ("add peer " ++ sess.peerAddress))
    modify fun s => { s with peers := s.peers.put sess.peerAddress }
    Prog.each announceNew sess.announcedPrefixes

/-- The desired sessions under their peers' addresses; the last of two for one peer
counts. -/
def desiredPeers (desired : List BGPSession) : Table BGPSession.peerAddress := .ofList desired

def reconcile (desired : List BGPSession) : Method Unit := do
  if !(← get).running then .fail (.text "bgp service not running")
  else
    Prog.each (removePeer (desiredPeers desired)) (← range GoBGPService.peers)
    Prog.each addSession (← range fun _ => desiredPeers desired)

inductive Call where
  | start (routerID : String) (localASN : Nat)
  | stop
  | reconcile (desired : List BGPSession)

def Call.run : Call → Method Unit
  | .start routerID localASN => GoBGPService.start routerID localASN
  | .stop => GoBGPService.stop
  | .reconcile desired => GoBGPService.reconcile desired

def after (v : Gobgp) (calls : List Call) : GoBGPService := Session.final Call.run v calls .new

/-! ## What the calls do -/

def Announces (s : GoBGPService) (pfx : String) : Prop := ∃ a ∈ s.prefixes, a.pfx = pfx

instance (s : GoBGPService) (pfx : String) : Decidable (s.Announces pfx) :=
  inferInstanceAs (Decidable (∃ a ∈ s.prefixes, a.pfx = pfx))

/-- The service knows what the server has. -/
structure Synced (s : GoBGPService) : Prop where
  peers : ∀ addr, addr ∈ s.peers ↔ ∃ p ∈ s.server.peers, p.address = addr
  stopped : s.running = false → s.peers = ∅ ∧ s.prefixes = ∅

section
variable {v : Gobgp} {s s₁ : GoBGPService}
variable {α : Type} {E : Err → GoBGPService → Prop} {seen : List String} {want : Table BGPSession.peerAddress}

theorem request_ends {op : Op} (answer : Gobgp → Nat → α) (act : α → Server → Server) :
    (request op answer act).Ensures id v s
      (fun a s' => s' = { s with calls := s.calls + 1, server := act a s.server })
      fun _ s' => s' = { s with calls := s.calls + 1 } := by
  refine .call ?_
  rintro s rfl
  dsimp only [id]
  cases v.fault s.calls <;> rfl

theorem modify_ends {Q : Unit → GoBGPService → Prop} {f : GoBGPService → GoBGPService}
    (h : Q () (f s)) : (modify f).Ensures id v s Q E := by
  refine .call ?_
  rintro s rfl
  exact h

theorem get_bind {f : GoBGPService → Method α} {Q : α → GoBGPService → Prop}
    (h : (f s).Ensures id v s Q E) : (get >>= f).Ensures id v s Q E := by
  refine .bind (.call ?_)
  rintro s rfl
  exact h

theorem range_bind {β : Type} {key : α → String} {map : GoBGPService → Table key} {f : List α → Method β}
    {Q : β → GoBGPService → Prop}
    (h : ∀ l, l.Perm (map s).rows → (f l).Ensures id v { s with calls := s.calls + 1 } Q E) :
    (range map >>= f).Ensures id v s Q E := by
  refine .bind (.call ?_)
  rintro s rfl
  have hperm := (v.perm s.calls ((map s).rows.map key)).filterMap fun k => (map s).find k
  rw [Table.filterMap_find] at hperm
  exact h _ hperm

theorem Synced.next (h : s.Synced) (n : Nat) : { s with calls := n }.Synced := ⟨h.peers, h.stopped⟩

theorem Synced.announce (h : s.Synced) (hrun : s.running = true) (prefixes : Table Announcement.pfx) (calls : Nat) :
    { s with calls, prefixes }.Synced where
  peers := h.peers
  stopped hstop := absurd (hrun.symm.trans hstop) Bool.noConfusion

theorem Synced.addPeer (h : s.Synced) (hrun : s.running = true) (p : Peer) (calls : Nat) :
    { s with
      calls, server := { s.server with peers := s.server.peers.put p }, peers := s.peers.put p.address }.Synced where
  peers addr := by
    have hput : addr ∈ s.peers.put p.address ↔ addr ∈ s.peers ∨ addr = p.address := by
      simp only [Table.mem_put]
      tauto
    exact hput.trans ((or_congr_left (h.peers addr)).trans Table.exists_mem_put.symm)
  stopped hstop := absurd (hrun.symm.trans hstop) Bool.noConfusion

theorem Synced.removePeer (h : s.Synced) (hrun : s.running = true) (addr : String) (calls : Nat) :
    { s with calls, server := { s.server with peers := s.server.peers.remove addr },
             peers := s.peers.remove addr }.Synced where
  peers a := Table.mem_remove.trans ((and_congr_left' (h.peers a)).trans Table.exists_mem_remove.symm)
  stopped hstop := absurd (hrun.symm.trans hstop) Bool.noConfusion

/-- From `s`, the prefixes `pfxs` were announced. -/
structure Announcing (s : GoBGPService) (pfxs : List String) (s' : GoBGPService) : Prop where
  synced : s'.Synced
  running : s'.running = true
  peers : s'.server.peers = s.server.peers
  announces : ∀ q, s'.Announces q ↔ s.Announces q ∨ q ∈ pfxs

theorem announceNew_ends (h : Announcing s seen s₁) (pfx : String) :
    (announceNew pfx).Ensures id v s₁ (fun _ => Announcing s (seen ++ [pfx])) fun _ => Synced := by
  refine get_bind ?_
  split
  · next hfind =>
    obtain ⟨a, ha⟩ := Option.isSome_iff_exists.mp hfind
    have hhas : s₁.Announces pfx := ⟨a, Table.find_eq_some.mp ha⟩
    refine .pure ⟨h.synced, h.running, h.peers, fun q => ?_⟩
    have hq := h.announces q
    grind
  · refine .mapError ?_
    unfold announcePrefix
    split
    · exact .fail h.synced
    · refine .bind (.mapError ((request_ends _ _).mono ?_ ?_))
      · rintro uuid _ rfl
        refine modify_ends ⟨h.synced.announce h.running _ _, h.running, h.peers, fun q => ?_⟩
        have hput : s₁.Announces q ∨ q = pfx ↔ s.Announces q ∨ q ∈ seen ++ [pfx] := by
          rw [h.announces q, List.mem_append, List.mem_singleton, or_assoc]
        exact Table.exists_mem_put.trans hput
      · rintro e _ rfl
        exact h.synced.next _

/-- From `s`, the sessions `seen` were gone through: those of new peers were added. -/
structure Added (s : GoBGPService) (seen : List BGPSession) (s' : GoBGPService) : Prop where
  synced : s'.Synced
  running : s'.running = true
  peers : ∀ p, p ∈ s'.server.peers ↔
    p ∈ s.server.peers ∨ ∃ d ∈ seen, d.peerAddress ∉ s.peers ∧ p = peerOf d
  announces : ∀ q, s'.Announces q ↔
    s.Announces q ∨ ∃ d ∈ seen, d.peerAddress ∉ s.peers ∧ q ∈ d.announcedPrefixes

theorem Added.mem_peers {seen : List BGPSession} (hs : s.Synced) (h : Added s seen s₁) {addr : String}
    (hother : ∀ d ∈ seen, d.peerAddress ≠ addr) : addr ∈ s₁.peers ↔ addr ∈ s.peers := by
  rw [h.synced.peers, hs.peers]
  constructor
  · rintro ⟨p, hp, rfl⟩
    rcases (h.peers p).mp hp with hp | ⟨d, hd, _, rfl⟩
    · exact ⟨p, hp, rfl⟩
    · exact absurd rfl (hother d hd)
  · rintro ⟨p, hp, rfl⟩
    exact ⟨p, (h.peers p).mpr (.inl hp), rfl⟩

theorem addSession_ends {seen : List BGPSession} (hs : s.Synced) (h : Added s seen s₁) {d : BGPSession}
    (hother : ∀ d' ∈ seen, d'.peerAddress ≠ d.peerAddress) :
    (addSession d).Ensures id v s₁ (fun _ => Added s (seen ++ [d])) fun _ => Synced := by
  have hnew := h.mem_peers hs hother
  refine get_bind ?_
  split
  · next hfind =>
    obtain ⟨addr, haddr⟩ := Option.isSome_iff_exists.mp hfind
    obtain ⟨hmem, rfl⟩ := Table.find_eq_some.mp haddr
    have hold := hnew.mp hmem
    refine .pure ⟨h.synced, h.running, fun p => ?_, fun q => ?_⟩
    · rw [h.peers p]
      simp [or_and_right, exists_or, hold]
    · rw [h.announces q]
      simp [or_and_right, exists_or, hold]
  · next hfind =>
    have hno : d.peerAddress ∉ s₁.peers := fun hmem => hfind (by rw [Table.find_eq_some.mpr ⟨hmem, rfl⟩]; rfl)
    have hno' : d.peerAddress ∉ s.peers := fun hmem => hno (hnew.mpr hmem)
    refine .bind (.mapError ((request_ends _ _).mono ?_ ?_))
    · rintro _ _ rfl
      refine .bind (modify_ends ?_)
      have hadded := h.synced.addPeer h.running (peerOf d) (s₁.calls + 1)
      refine (Prog.Ensures.each (I := Announcing _) ⟨hadded, h.running, rfl, fun q => by simp⟩
        fun seen pfx _ y _ hy => announceNew_ends hy pfx).mono ?_ fun _ _ he => he
      rintro _ s' hs'
      refine ⟨hs'.synced, hs'.running, fun p => ?_, fun q => ?_⟩
      · have hfresh : p ∈ s₁.server.peers → p.address ≠ (peerOf d).address := fun hp he =>
          hno ((h.synced.peers _).mpr ⟨p, hp, he⟩)
        rw [hs'.peers, Table.mem_put, and_iff_left_of_imp hfresh, h.peers p]
        simp [or_and_right, exists_or, hno', or_assoc]
      · rw [hs'.announces q]
        have hq : s₁.Announces q ∨ q ∈ d.announcedPrefixes ↔ _ := or_congr_left (h.announces q)
        refine hq.trans ?_
        simp [or_and_right, exists_or, hno', or_assoc]
    · rintro e _ rfl
      exact h.synced.next _

/-- From `s`, the peers `seen` were gone through: those that nobody wants were removed. -/
structure Removed (s : GoBGPService) (want : Table BGPSession.peerAddress) (seen : List String) (s' : GoBGPService) :
    Prop where
  synced : s'.Synced
  running : s'.running = true
  prefixes : s'.prefixes = s.prefixes
  peers : ∀ p, p ∈ s'.server.peers ↔
    p ∈ s.server.peers ∧ (p.address ∈ seen → ∃ d ∈ want, d.peerAddress = p.address)

theorem removePeer_ends (h : Removed s want seen s₁)
    (addr : String) :
    (removePeer want addr).Ensures id v s₁ (fun _ => Removed s want (seen ++ [addr])) fun _ => Synced := by
  unfold removePeer
  split
  · next hfind =>
    obtain ⟨d, hd⟩ := Option.isSome_iff_exists.mp hfind
    have hwant := Table.find_eq_some.mp hd
    refine .pure ⟨h.synced, h.running, h.prefixes, fun p => ?_⟩
    rw [h.peers p]
    grind
  · next hfind =>
    have hnone := Table.find_eq_none.mp (Option.not_isSome_iff_eq_none.mp hfind)
    refine .bind (.mapError ((request_ends _ _).mono ?_ ?_))
    · rintro _ _ rfl
      refine modify_ends ⟨h.synced.removePeer h.running addr _, h.running, h.prefixes, fun p => ?_⟩
      rw [Table.mem_remove, h.peers p]
      grind
    · rintro e _ rfl
      exact h.synced.next _

theorem Removed.mem_peers (hs : s.Synced)
    (h : Removed s want seen s₁) {d : BGPSession} (hd : d ∈ want) :
    d.peerAddress ∈ s₁.peers ↔ d.peerAddress ∈ s.peers := by
  rw [h.synced.peers, hs.peers]
  constructor
  · rintro ⟨p, hp, heq⟩
    exact ⟨p, ((h.peers p).mp hp).1, heq⟩
  · rintro ⟨p, hp, heq⟩
    exact ⟨p, (h.peers p).mpr ⟨hp, fun _ => ⟨d, hd, heq.symm⟩⟩, heq⟩

/-- What a reconcile with the sessions `want` makes of `s`. -/
structure Reconciled (s : GoBGPService) (want : Table BGPSession.peerAddress) (s' : GoBGPService) : Prop where
  synced : s'.Synced
  peers : ∀ p, p ∈ s'.server.peers ↔
    (p ∈ s.server.peers ∧ ∃ d ∈ want, d.peerAddress = p.address) ∨ ∃ d ∈ want, d.peerAddress ∉ s.peers ∧ p = peerOf d
  announces : ∀ q, s'.Announces q ↔
    s.Announces q ∨ ∃ d ∈ want, d.peerAddress ∉ s.peers ∧ q ∈ d.announcedPrefixes

theorem Removed.added {addrs : List String} {sessions : List BGPSession}
    {s' : GoBGPService} (hs : s.Synced) (hremoved : Removed s want addrs s₁) (hadded : Added s₁ sessions s')
    (haddrs : ∀ addr, addr ∈ addrs ↔ addr ∈ s.peers) (hsessions : ∀ d, d ∈ sessions ↔ d ∈ want) :
    Reconciled s want s' := by
  have hnew : ∀ P : BGPSession → Prop, (∃ d ∈ sessions, d.peerAddress ∉ s₁.peers ∧ P d) ↔
      ∃ d ∈ want, d.peerAddress ∉ s.peers ∧ P d := by
    intro P
    refine exists_congr fun d => ?_
    rw [hsessions d]
    refine and_congr_right fun hd => ?_
    rw [hremoved.mem_peers hs hd]
  refine ⟨hadded.synced, fun p => ?_, fun q => ?_⟩
  · have hstays : p ∈ s₁.server.peers ↔ p ∈ s.server.peers ∧ ∃ d ∈ want, d.peerAddress = p.address := by
      rw [hremoved.peers p]
      refine and_congr_right fun hp => ?_
      have hmem : p.address ∈ addrs := (haddrs _).mpr ((hs.peers _).mpr ⟨p, hp, rfl⟩)
      exact ⟨fun h => h hmem, fun h _ => h⟩
    rw [hadded.peers p, hstays, hnew]
  · rw [hadded.announces q, hnew, Announces, hremoved.prefixes]
    rfl

theorem reconcile_ends (hs : s.Synced) (desired : List BGPSession) :
    (reconcile desired).Ensures id v s (fun _ => Reconciled s (desiredPeers desired)) fun _ => Synced := by
  refine get_bind ?_
  split
  · exact .fail hs
  · next hrun =>
    replace hrun : s.running = true := by simpa using hrun
    refine range_bind fun addrs haddrs => .bind ?_
    have hremove : (Prog.each (removePeer (desiredPeers desired)) addrs).Ensures id v { s with calls := s.calls + 1 }
        (fun _ => Removed s (desiredPeers desired) addrs) fun _ => Synced :=
      .each ⟨hs.next _, hrun, rfl, fun p => by simp⟩ fun _ addr _ _ _ hy => removePeer_ends hy addr
    refine hremove.mono ?_ fun _ _ he => he
    rintro _ s₁ h₁
    refine range_bind fun sessions hsessions => ?_
    have hadd : (Prog.each addSession sessions).Ensures id v { s₁ with calls := s₁.calls + 1 }
        (fun _ => Added s₁ sessions) fun _ => Synced := by
      refine .each ⟨h₁.synced.next _, h₁.running, fun p => by simp, fun q => (or_iff_left (by simp)).symm⟩ ?_
      intro seen d rest y hl hy
      have hnodup := (hsessions.map BGPSession.peerAddress).nodup_iff.mpr (desiredPeers desired).nodup
      refine addSession_ends h₁.synced hy fun d' hd' he => ?_
      rw [hl, List.map_append, List.nodup_append] at hnodup
      exact hnodup.2.2 _ (List.mem_map_of_mem hd') _ (List.mem_map_of_mem List.mem_cons_self) he
    refine hadd.mono ?_ fun _ _ he => he
    intro _ s' h'
    exact h₁.added hs h' (fun _ => haddrs.mem_iff) fun _ => hsessions.mem_iff

theorem start_ends (hs : s.Synced) (routerID : String) (localASN : Nat) :
    (start routerID localASN).Ensures id v s (fun _ => Synced) fun _ => Synced := by
  refine get_bind ?_
  split
  · exact .fail hs
  · next hrun =>
    obtain ⟨hpeers, hprefixes⟩ := hs.stopped (by simpa using hrun)
    have hempty : ∀ running routerID localASN calls, GoBGPService.Synced
        { s with running, routerID, localASN, calls, server := .new } := by
      intro running routerID localASN calls
      rw [hpeers, hprefixes]
      exact ⟨by simp [Server.new], fun _ => ⟨rfl, rfl⟩⟩
    refine .bind (modify_ends (.bind (.mapError ((request_ends _ _).mono ?_ ?_))))
    · rintro _ _ rfl
      exact modify_ends (hempty _ _ _ _)
    · rintro _ _ rfl
      exact hempty _ _ _ _

theorem stop_ends (hs : s.Synced) : stop.Ensures id v s (fun _ => Synced) fun _ => Synced := by
  refine get_bind ?_
  split
  · exact .fail hs
  · refine .bind (.mapError ((request_ends _ _).mono ?_ ?_))
    · rintro _ _ rfl
      exact modify_ends ⟨by simp [Server.new], fun _ => ⟨rfl, rfl⟩⟩
    · rintro _ _ rfl
      exact hs.next _

theorem Synced.run (hs : s.Synced) (c : Call) : (c.run.exec v s).2.Synced := by
  have hends : c.run.Ensures id v s (fun _ => Synced) fun _ => Synced := by
    cases c with
    | start routerID localASN => exact start_ends hs routerID localASN
    | stop => exact stop_ends hs
    | reconcile desired => exact (reconcile_ends hs desired).mono (fun _ _ h => h.synced) fun _ _ h => h
  exact hends.exec_view rfl

theorem Synced.new : GoBGPService.new.Synced :=
  ⟨by simp [GoBGPService.new, Server.new], fun _ => ⟨rfl, rfl⟩⟩

theorem Synced.after (v : Gobgp) (calls : List Call) : (after v calls).Synced := by
  have hany : Session.Along Call.run v (fun _ _ => True) calls .new := .of_mem (fun _ _ _ => trivial) _
  exact Session.final_invariant (fun c _ hs _ => hs.run c) .new hany

end

/-! ## Convergence -/

/-- Nothing has to be withdrawn or updated to get to the sessions `desired`: every prefix
announced is still wanted, every peer that stays has the number its session asks for, and
its prefixes are announced or come with a new peer. -/
structure Fits (s : GoBGPService) (desired : List BGPSession) : Prop where
  wanted : ∀ a ∈ s.prefixes, ∃ d ∈ desired, a.pfx ∈ d.announcedPrefixes
  asn : ∀ p ∈ s.server.peers, ∀ d ∈ desired, d.peerAddress = p.address → d.peerASN = p.asn
  announced : ∀ d ∈ desired, d.peerAddress ∈ s.peers → ∀ q ∈ d.announcedPrefixes,
    s.Announces q ∨ ∃ d' ∈ desired, d'.peerAddress ∉ s.peers ∧ q ∈ d'.announcedPrefixes

/-- The prefixes announced are those of the desired sessions, and every peer is one of them with the number its session
asks for. -/
structure Converged (s : GoBGPService) (desired : List BGPSession) : Prop where
  announces : ∀ q, s.Announces q ↔ ∃ d ∈ desired, q ∈ d.announcedPrefixes
  peers : ∀ p ∈ s.server.peers, ∃ d ∈ desired, p = ⟨d.peerAddress, d.peerASN⟩

section
variable {s s' : GoBGPService} {desired : List BGPSession}

theorem Fits.converged (hfits : s.Fits desired) (h : Reconciled s (desiredPeers desired) s')
    (hdesired : ∀ d, d ∈ desiredPeers desired ↔ d ∈ desired) : s'.Converged desired where
  announces q := by
    simp only [h.announces q, hdesired]
    constructor
    · rintro (⟨a, ha, rfl⟩ | ⟨d, hd, _, hq⟩)
      · exact hfits.wanted a ha
      · exact ⟨d, hd, hq⟩
    · rintro ⟨d, hd, hq⟩
      by_cases hold : d.peerAddress ∈ s.peers
      · exact hfits.announced d hd hold q hq
      · exact .inr ⟨d, hd, hold, hq⟩
  peers p hp := by
    simp only [h.peers p, hdesired] at hp
    rcases hp with ⟨hp, d, hd, haddr⟩ | ⟨d, hd, _, rfl⟩
    · exact ⟨d, hd, by rw [haddr, hfits.asn p hp d hd haddr]⟩
    · exact ⟨d, hd, rfl⟩

theorem Converged.fits (hconv : s'.Converged desired) (h : Reconciled s (desiredPeers desired) s')
    (hdesired : ∀ d, d ∈ desiredPeers desired ↔ d ∈ desired) : s.Fits desired where
  wanted a ha := (hconv.announces a.pfx).mp ((h.announces a.pfx).mpr (.inl ⟨a, ha, rfl⟩))
  asn p hp d hd haddr := by
    obtain ⟨d', hd', hp'⟩ := hconv.peers p ((h.peers p).mpr (.inl ⟨hp, d, (hdesired d).mpr hd, haddr⟩))
    have hsame : d = d' := Table.key_inj ((hdesired d).mpr hd) ((hdesired d').mpr hd')
      (haddr.trans (congrArg Peer.address hp'))
    rw [hsame, hp']
  announced d hd _ q hq := by
    have hq' := (h.announces q).mp ((hconv.announces q).mpr ⟨d, hd, hq⟩)
    simpa only [hdesired] using hq'

end

/-- **Announcements converge**: whatever was called before and failed, a reconcile that returns no error announces the
prefixes of the desired sessions and no other, and leaves every peer with the number of its session, precisely if
nothing had to be withdrawn or updated. -/
theorem reconcile_converges (v : Gobgp) (calls : List Call) (desired : List BGPSession) (s' : GoBGPService)
    (hdistinct : (desired.map BGPSession.peerAddress).Nodup)
    (hok : (reconcile desired).exec v (after v calls) = (.ok (), s')) :
    s'.Converged desired ↔ (after v calls).Fits desired := by
  have hend : Reconciled _ (desiredPeers desired) s' := (reconcile_ends (.after v calls) desired).ok rfl hok
  have hdesired : ∀ d, d ∈ desiredPeers desired ↔ d ∈ desired := fun d => Table.mem_ofList hdistinct
  exact ⟨fun hconv => hconv.fits hend hdesired, fun hfits => hfits.converged hend hdesired⟩

/-! ## Runs -/

namespace Sample

def gobgp (failing : List Nat) : Gobgp :=
  { fault := fun n => if n ∈ failing then some (.text "unavailable") else none
    uuid := fun n => toString n
    order := fun _ keys => keys
    perm := fun _ _ => .refl _ }

def session (peerASN : Nat) (announcedPrefixes : List String) : BGPSession :=
  { id := 50, nodeID := 20, peerASN, peerAddress := "192.0.2.1", localASN := 64512, status := .configured
    announcedPrefixes, importPolicy := "", exportPolicy := "", metadata := none, createdAt := 0, updatedAt := 0 }

def told (failing : List Nat) (desired : List BGPSession) : GoBGPService :=
  after (gobgp failing) [.start "192.0.2.2" 64512, .reconcile desired]

end Sample

/-- The first reconcile of a started service. -/
theorem reconcile_converges_first :
    ∃ s', (reconcile [Sample.session 64500 ["203.0.113.0/24"]]).exec (Sample.gobgp [])
        (after (Sample.gobgp []) [.start "192.0.2.2" 64512]) = (.ok (), s') ∧
      s'.Converged [Sample.session 64500 ["203.0.113.0/24"]] := by
  have hok : ((reconcile [Sample.session 64500 ["203.0.113.0/24"]]).exec (Sample.gobgp [])
      (after (Sample.gobgp []) [.start "192.0.2.2" 64512])).1 = .ok () := by
    decide
  have hrun := Prod.ext hok rfl
  have hfits : (after (Sample.gobgp []) [.start "192.0.2.2" 64512]).Fits [Sample.session 64500 ["203.0.113.0/24"]] :=
    ⟨by decide, by decide, by decide⟩
  exact ⟨_, hrun, (reconcile_converges _ _ _ _ (by decide) hrun).mpr hfits⟩

/-- After one session with one prefix: a reconcile that wants the session without the prefix
leaves it announced; one that wants another number leaves the peer with the old one. After
a reconcile that failed to announce the prefix, the same one again returns no error and
announces nothing. -/
theorem reconcile_leaves_stale :
    (let r := (reconcile [Sample.session 64500 []]).exec (Sample.gobgp [])
      (Sample.told [] [Sample.session 64500 ["203.0.113.0/24"]])
     r.1 = .ok () ∧ r.2.prefixes.rows.map Announcement.pfx = ["203.0.113.0/24"]) ∧
    (let r := (reconcile [Sample.session 64501 ["203.0.113.0/24"]]).exec (Sample.gobgp [])
       (Sample.told [] [Sample.session 64500 ["203.0.113.0/24"]])
     r.1 = .ok () ∧ r.2.server.peers.rows = [⟨"192.0.2.1", 64500⟩]) ∧
    (let r := (reconcile [Sample.session 64500 ["203.0.113.0/24"]]).exec (Sample.gobgp [4])
       (Sample.told [4] [Sample.session 64500 ["203.0.113.0/24"]])
     r.1 = .ok () ∧ r.2.prefixes.rows = []) := by
  decide

end GoBGPService
end EdgeFabric.Bgp
