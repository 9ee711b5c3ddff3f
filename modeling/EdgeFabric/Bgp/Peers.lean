/-
The peers of the BGP speaker and those of its server. Each call of the server is followed
by the entry or the removal of the peer in the service's own map, and a call that fails is
followed by neither, so that the two agree in every state (`Synced`). A reconcile asks the
server only about peers that change (`reconcile_guarded`).
-/
import EdgeFabric.Bgp

namespace EdgeFabric.Bgp.GoBGPService

def Server.HasPeer (server : Server) (addr : String) : Prop := ∃ p ∈ server.peers, p.address = addr

/-! ## Which peers a reconcile asks about -/

section
variable {addr : String}

def Knows (addr : String) (s : GoBGPService) : Prop := addr ∈ s.peers

def Op.Spares (addr : String) (op : Op) : Prop := op ≠ .deletePeer addr ∧ op ≠ .addPeer addr

theorem request_guarded {α : Type} {op : Op} {answer : Gobgp → Nat → α} {act : α → Server → Server}
    (h : op.Spares addr) : (request op answer act).Guarded (Knows addr) (Op.Spares addr) := by
  refine .call h fun v s hs => ?_
  cases v.fault s.calls <;> exact hs

theorem modify_guarded {f : GoBGPService → GoBGPService} (h : ∀ s, Knows addr s → Knows addr (f s)) :
    (modify f).Guarded (Knows addr) (Op.Spares addr) :=
  .call ⟨Op.noConfusion, Op.noConfusion⟩ fun _ s hs => h s hs

theorem get_guarded {α : Type} {f : GoBGPService → Method α}
    (h : ∀ s, Knows addr s → (f s).Guarded (Knows addr) (Op.Spares addr)) :
    (get >>= f).Guarded (Knows addr) (Op.Spares addr) := by
  refine .call_bind ⟨Op.noConfusion, Op.noConfusion⟩ fun _ s hs => ⟨hs, fun a ha => ?_⟩
  cases ha
  exact h s hs

theorem range_guarded {α β : Type} {key : α → String} {map : GoBGPService → Table key} {f : List α → Method β}
    (h : ∀ s l, Knows addr s → (∀ a ∈ l, a ∈ map s) → (f l).Guarded (Knows addr) (Op.Spares addr)) :
    (range map >>= f).Guarded (Knows addr) (Op.Spares addr) := by
  refine .call_bind ⟨Op.noConfusion, Op.noConfusion⟩ fun v s hs => ⟨hs, fun l hl => ?_⟩
  cases hl
  refine h s _ hs fun a ha => ?_
  obtain ⟨k, -, hfind⟩ := List.mem_filterMap.mp ha
  exact (Table.find_eq_some.mp hfind).1

theorem removePeer_guarded {want : Table BGPSession.peerAddress} (hwant : ∃ d ∈ want, d.peerAddress = addr)
    (addr' : String) : (removePeer want addr').Guarded (Knows addr) (Op.Spares addr) := by
  unfold removePeer
  split
  · exact .pure ()
  · next hfind =>
    have hnone := Table.find_eq_none.mp (Option.not_isSome_iff_eq_none.mp hfind)
    have hne : addr ≠ addr' := by
      rintro rfl
      obtain ⟨d, hd, rfl⟩ := hwant
      exact hnone d hd rfl
    have hspares : (Op.deletePeer addr').Spares addr := ⟨fun h => hne (Op.deletePeer.inj h).symm, Op.noConfusion⟩
    exact .bind (.mapError (request_guarded hspares)) fun _ =>
      modify_guarded fun s hs => Table.mem_remove.mpr ⟨hs, hne⟩

theorem announceNew_guarded (pfx : String) : (announceNew pfx).Guarded (Knows addr) (Op.Spares addr) := by
  refine get_guarded fun s hs => ?_
  split
  · exact .pure ()
  · refine .mapError ?_
    unfold announcePrefix
    split
    · exact .fail _
    · exact .bind (.mapError (request_guarded ⟨Op.noConfusion, Op.noConfusion⟩)) fun _ => modify_guarded fun s hs => hs

theorem addSession_guarded (d : BGPSession) : (addSession d).Guarded (Knows addr) (Op.Spares addr) := by
  refine get_guarded fun s hs => ?_
  split
  · exact .pure ()
  · next hfind =>
    -- a peer that is added was not known
    have hne : addr ≠ d.peerAddress := by
      rintro rfl
      exact hfind (by rw [Table.find_eq_some.mpr ⟨hs, rfl⟩]; rfl)
    have hspares : (Op.addPeer (peerOf d).address).Spares addr :=
      ⟨Op.noConfusion, fun h => hne (Op.addPeer.inj h).symm⟩
    refine .bind (.mapError (request_guarded hspares)) fun _ => .bind (modify_guarded fun s hs => ?_) fun _ =>
      .each fun pfx _ => announceNew_guarded pfx
    exact Table.mem_put.mpr (.inl ⟨hs, hne⟩)

theorem reconcile_guarded {desired : List BGPSession} (hdesired : ∃ d ∈ desired, d.peerAddress = addr) :
    (reconcile desired).Guarded (Knows addr) (Op.Spares addr) := by
  have hwant : ∃ d ∈ desiredPeers desired, d.peerAddress = addr := by
    obtain ⟨d, hd, rfl⟩ := hdesired
    exact Table.exists_mem_ofList hd
  refine get_guarded fun s hs => ?_
  split
  · exact .fail _
  · refine range_guarded fun s l hs _ => .bind (.each fun addr' _ => removePeer_guarded hwant addr') fun _ => ?_
    exact range_guarded fun s l hs _ => .each fun d _ => addSession_guarded d

end

theorem exists_mem_desiredPeers {desired : List BGPSession} {addr : String} :
    (∃ d ∈ desiredPeers desired, d.peerAddress = addr) ↔ ∃ d ∈ desired, d.peerAddress = addr := by
  constructor
  · rintro ⟨d, hd, rfl⟩
    exact ⟨d, Table.mem_of_mem_ofList hd, rfl⟩
  · rintro ⟨d, hd, rfl⟩
    exact Table.exists_mem_ofList hd

theorem Reconciled.hasPeer_iff {s s' : GoBGPService} {desired : List BGPSession} (hs : s.Synced)
    (h : Reconciled s (desiredPeers desired) s') (addr : String) :
    Server.HasPeer s'.server addr ↔ ∃ d ∈ desired, d.peerAddress = addr := by
  rw [← exists_mem_desiredPeers]
  constructor
  · rintro ⟨p, hp, rfl⟩
    rcases (h.peers p).mp hp with ⟨-, hwant⟩ | ⟨d, hd, -, rfl⟩
    · exact hwant
    · exact ⟨d, hd, rfl⟩
  · rintro ⟨d, hd, rfl⟩
    by_cases hknown : d.peerAddress ∈ s.peers
    · obtain ⟨p, hp, haddr⟩ := (hs.peers _).mp hknown
      exact ⟨p, (h.peers p).mpr (.inl ⟨hp, d, hd, haddr.symm⟩), haddr⟩
    · exact ⟨peerOf d, (h.peers _).mpr (.inr ⟨d, hd, hknown, rfl⟩), rfl⟩

/-- Whatever was called and failed, the service has the peers of its server while it runs; a reconcile
without an error leaves the peers of the desired sessions and no others, on both; and no reconcile
deletes or adds a peer that the server had and a desired session has. -/
theorem peers_mirrored (v : Gobgp) (calls : List Call) :
    ((after v calls).running = true → ∀ addr, addr ∈ (after v calls).peers ↔
      Server.HasPeer (after v calls).server addr) ∧
    ∀ desired : List BGPSession,
      (∀ s', (reconcile desired).exec v (after v calls) = (.ok (), s') → ∀ addr,
        (Server.HasPeer s'.server addr ↔ ∃ d ∈ desired, d.peerAddress = addr) ∧
          (addr ∈ s'.peers ↔ ∃ d ∈ desired, d.peerAddress = addr)) ∧
      ∀ addr, Server.HasPeer (after v calls).server addr → (∃ d ∈ desired, d.peerAddress = addr) →
        .deletePeer addr ∉ (reconcile desired).trace v (after v calls) ∧
          .addPeer addr ∉ (reconcile desired).trace v (after v calls) := by
  have hsynced := Synced.after v calls
  refine ⟨fun _ => hsynced.peers, fun desired => ⟨fun s' hok addr => ?_, fun addr hhas hdesired => ?_⟩⟩
  · have hend : Reconciled _ (desiredPeers desired) s' := (reconcile_ends hsynced desired).ok rfl hok
    have hiff := hend.hasPeer_iff hsynced addr
    exact ⟨hiff, (hend.synced.peers addr).trans hiff⟩
  · have hknows : Knows addr (after v calls) := (hsynced.peers addr).mpr hhas
    have hspared := (reconcile_guarded hdesired).trace (v := v) hknows
    exact ⟨fun h => (hspared _ h).1 rfl, fun h => (hspared _ h).2 rfl⟩

end EdgeFabric.Bgp.GoBGPService
