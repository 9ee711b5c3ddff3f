/-
Who is in whose mesh (`internal/networking/mesh.go`). Each node's sections come from
a traversal of its own groups, with a set of the nodes seen so far. As long as the
database answers, the traversal finds the other members of the node's groups, each
once (`collectMembers_returns`); so two nodes with addresses and keys list each other
or neither lists the other.
-/
import EdgeFabric.Networking.WireGuard

namespace EdgeFabric

theorem filterMap_eq_of_unique {α β : Type} {f : α → Option β} {a : α} {l : List α} (hl : l.Nodup)
    (h : ∀ b ∈ l, f b ≠ none → b = a) : (a ∈ l → l.filterMap f = (f a).toList) ∧ (a ∉ l → l.filterMap f = []) := by
  induction l with
  | nil => simp
  | cons b l ih =>
    obtain ⟨hb, hl⟩ := List.nodup_cons.mp hl
    obtain ⟨hmem, hnot⟩ := ih hl fun c hc => h c (List.mem_cons_of_mem _ hc)
    by_cases hba : b = a
    · subst hba
      refine ⟨fun _ => ?_, fun hn => absurd List.mem_cons_self hn⟩
      rw [List.filterMap_cons, hnot hb]
      cases f b <;> rfl
    · have hnone : f b = none := by
        by_contra hsome
        exact hba (h b List.mem_cons_self hsome)
      rw [List.filterMap_cons, hnone]
      refine ⟨fun ha => hmem ?_, fun hn => hnot fun ha => hn (List.mem_cons_of_mem _ ha)⟩
      exact (List.mem_cons.mp ha).resolve_left fun he => hba he.symm

namespace Store

def OnePeerEach (s : Store) : Prop := ∀ n ∈ s.nodes, (s.peersOf .node n.id).length ≤ 1

def DistinctKeys (s : Store) : Prop :=
  ∀ p ∈ s.wireGuardPeers, ∀ q ∈ s.wireGuardPeers, p.publicKey = q.publicKey → p = q

def meshPeerOf (s : Store) (cfg : WireGuardHub) (m : Node) : Option WireGuardPeerConfig :=
  if m.wireGuardIP = "" then none else (s.peersOf .node m.id).head?.map fun p => m.meshPeer cfg p.publicKey

def Lists (s : Store) (cfg : WireGuardHub) (ps : List WireGuardPeerConfig) (m : Node) : Prop :=
  ∃ r ∈ s.peersOf .node m.id, m.meshPeer cfg r.publicKey ∈ ps

structure MeshPeers (s : Store) (cfg : WireGuardHub) (a : Node) (ps : List WireGuardPeerConfig) : Prop where
  /-- each is the section of another member of one of the node's groups -/
  only : ∀ p ∈ ps, ∃ m, m.id ≠ a.id ∧ s.SharesGroup a.id m ∧ m.wireGuardIP ≠ "" ∧ m.SectionIn s cfg p
  /-- the sections with the key of a member that has an address: its own, once -/
  once : ∀ b ∈ s.nodes, b.id ≠ a.id → s.SharesGroup a.id b → b.wireGuardIP ≠ "" → ∀ r ∈ s.peersOf .node b.id,
    ps.filter (fun p => p.publicKey = r.publicKey) = [b.meshPeer cfg r.publicKey]
  /-- the key of any other node has no section -/
  absent : ∀ b ∈ s.nodes, b.id = a.id ∨ ¬ s.SharesGroup a.id b ∨ b.wireGuardIP = "" → ∀ r ∈ s.peersOf .node b.id,
    ∀ p ∈ ps, p.publicKey ≠ r.publicKey

end Store

section
variable {v : Env} {s : Store} (cfg : WireGuardHub) (hv : ∀ t, v.fault t = none)
include hv

theorem collectMembers_returns (groups : List NodeGroup) (seen : List ID) :
    Ends v s (collectMembers groups seen).1
      (fun ms s' => s' = s ∧ (ms.map Node.id).Nodup ∧ ∀ m, m ∈ ms ↔ m.id ∉ seen ∧
        ∃ n ∈ s.nodes, (∃ g ∈ groups, (g.id, n.id) ∈ s.memberships) ∧ m = { n with capabilities := [] })
      fun _ _ => False := by
  induction groups generalizing seen with
  | nil => exact .pure ⟨rfl, List.nodup_nil, by simp⟩
  | cons g rest ih =>
    refine .bind (.mapError (Ends.read_cases (fun members hmembers => ?_) (by simp [hv]) fun e he => by cases he))
    have hnodup := Store.listGroupNodes_nodup hmembers
    have hmem := fun m => Store.mem_listGroupNodes hmembers (m := m)
    refine .andThen (ih _) fun others s' h => ?_
    obtain ⟨rfl, hdistinct, hothers⟩ := h
    refine .pure ⟨rfl, ?_, fun m => ?_⟩
    · rw [List.map_append, List.nodup_append]
      refine ⟨hnodup.sublist (List.filter_sublist.map _), hdistinct, fun x hx y hy hxy => ?_⟩
      obtain ⟨m, hm, rfl⟩ := List.mem_map.mp hy
      exact ((hothers m).mp hm).1 (List.mem_append_left _ (hxy ▸ hx))
    · simp only [List.mem_append, List.mem_filter, hmem, hothers, List.contains_eq_mem, decide_eq_true_eq]
      constructor
      · rintro (⟨⟨n, hn, hin, rfl⟩, hseen⟩ | ⟨hfresh, n, hn, ⟨g', hg', hin⟩, rfl⟩)
        · exact ⟨hseen, n, hn, ⟨g, List.mem_cons_self, hin⟩, rfl⟩
        · exact ⟨fun h => hfresh (.inr h), n, hn, ⟨g', List.mem_cons_of_mem _ hg', hin⟩, rfl⟩
      · rintro ⟨hseen, n, hn, ⟨g', hg', hin⟩, rfl⟩
        by_cases hg : (g.id, n.id) ∈ s'.memberships
        · exact .inl ⟨⟨n, hn, hg, rfl⟩, hseen⟩
        · refine .inr ⟨?_, n, hn, ?_, rfl⟩
          · -- nodes are found by their identifiers, so no other node of the group has this one's
            rintro (h | h)
            · obtain ⟨m, hm, he⟩ := List.mem_map.mp h
              obtain ⟨n', hn', hin', rfl⟩ := (hmem m).mp (List.mem_of_mem_filter hm)
              obtain rfl := Table.key_inj hn' hn he
              exact hg hin'
            · exact hseen h
          · rcases List.mem_cons.mp hg' with rfl | hg'
            · exact absurd hin hg
            · exact ⟨g', hg', hin⟩

theorem meshSection_returns {m : Node} (hone : (s.peersOf .node m.id).length ≤ 1) :
    Ends v s (meshSection cfg m).1 (fun o s' => s' = s ∧ o = s.meshPeerOf cfg m) fun _ _ => False := by
  unfold meshSection Store.meshPeerOf
  split
  · exact .pure ⟨rfl, rfl⟩
  · refine .bind (.attempt (Ends.readAs_cases (fun pick peer hpeer => ?_) (by simp [hv]) fun pick e he => ?_))
    · rw [Store.getWireGuardPeerByOwner_single hone] at hpeer
      cases hrow : (s.peersOf .node m.id).head? with
      | none => simp [hrow] at hpeer
      | some r =>
        rw [hrow] at hpeer
        cases hpeer
        exact .pure ⟨rfl, rfl⟩
    · rw [Store.getWireGuardPeerByOwner_error he]
      exact .pure ⟨rfl, rfl⟩

theorem meshSections_returns {ms : List Node} (hone : ∀ m ∈ ms, (s.peersOf .node m.id).length ≤ 1) :
    Ends v s (meshSections cfg ms).1 (fun ps s' => s' = s ∧ ps = ms.filterMap (s.meshPeerOf cfg)) fun _ _ => False := by
  induction ms with
  | nil => exact .pure ⟨rfl, rfl⟩
  | cons m rest ih =>
    refine .andThen (meshSection_returns cfg hv (hone m List.mem_cons_self)) fun o s' h => ?_
    obtain ⟨rfl, rfl⟩ := h
    refine .andThen (ih fun m hm => hone m (List.mem_cons_of_mem _ hm)) fun ps s'' h => ?_
    obtain ⟨rfl, rfl⟩ := h
    refine .pure ⟨rfl, ?_⟩
    rw [List.filterMap_cons]
    cases s''.meshPeerOf cfg m <;> rfl

theorem generateMeshPeers_returns (hone : s.OnePeerEach) (a : Node) :
    Ends v s (generateMeshPeers cfg a).1
      (fun r s' => s' = s ∧ ∃ ms : List Node, (ms.map Node.id).Nodup ∧
        (∀ m, m ∈ ms ↔ m.id ≠ a.id ∧ ∃ n, s.SharesGroup a.id n ∧ m = { n with capabilities := [] }) ∧
        r.1 = ms.filterMap (s.meshPeerOf cfg))
      fun _ _ => False := by
  refine .bind (.mapError (Ends.read_cases (fun groups hgroups => ?_) (by simp [hv]) fun e he => by cases he))
  have hgroups := Store.listNodeGroupsByNode_ok hgroups
  dsimp only
  split
  · next hempty =>
    refine .pure ⟨rfl, [], List.nodup_nil, fun m => ⟨fun h => absurd h List.not_mem_nil, ?_⟩, rfl⟩
    rintro ⟨_, n, ⟨_, g, hg, hin, _⟩, _⟩
    have := (hgroups g).mpr ⟨hg, hin⟩
    rw [List.isEmpty_iff.mp hempty] at this
    cases this
  · refine .andThen (collectMembers_returns hv groups [a.id]) fun ms s' h => ?_
    obtain ⟨rfl, hnodup, hms⟩ := h
    have hmembers : ∀ m, m ∈ ms ↔ m.id ≠ a.id ∧ ∃ n, s'.SharesGroup a.id n ∧ m = { n with capabilities := [] } := by
      intro m
      rw [hms, List.mem_singleton]
      refine and_congr_right fun _ => exists_congr fun n => ?_
      simp only [Store.SharesGroup, hgroups, and_assoc]
    have honeMs : ∀ m ∈ ms, (s'.peersOf .node m.id).length ≤ 1 := by
      intro m hm
      obtain ⟨_, n, hn, rfl⟩ := (hmembers m).mp hm
      exact hone n hn.1
    refine .andThen (meshSections_returns cfg hv honeMs) fun ps s'' h => ?_
    obtain ⟨rfl, rfl⟩ := h
    exact .pure ⟨rfl, ms, hnodup, hmembers, rfl⟩

end

namespace Store
variable {s : Store} {cfg : WireGuardHub} {a : Node} {ms : List Node}

theorem meshPeerOf_some {m : Node} {p : WireGuardPeerConfig} (h : s.meshPeerOf cfg m = some p) :
    m.wireGuardIP ≠ "" ∧ ∃ r ∈ s.peersOf .node m.id, p = m.meshPeer cfg r.publicKey := by
  unfold meshPeerOf at h
  split at h
  · cases h
  · next hip =>
    obtain ⟨r, hr, rfl⟩ := Option.map_eq_some_iff.mp h
    exact ⟨hip, r, List.mem_of_head? hr, rfl⟩

theorem meshPeerOf_of_mem (hone : s.OnePeerEach) {m : Node} (hm : m ∈ s.nodes) (hip : m.wireGuardIP ≠ "")
    {r : WireGuardPeer} (hr : r ∈ s.peersOf .node m.id) : s.meshPeerOf cfg m = some (m.meshPeer cfg r.publicKey) := by
  have hlen := hone m hm
  unfold meshPeerOf
  rw [if_neg hip]
  rcases hrows : s.peersOf .node m.id with _ | ⟨r', _ | ⟨r'', rest⟩⟩
  · rw [hrows] at hr
    cases hr
  · rw [hrows, List.mem_singleton] at hr
    subst hr
    rfl
  · simp [hrows] at hlen

theorem owner_of_key (hkeys : s.DistinctKeys) {m b : Node} {p : WireGuardPeerConfig} {r : WireGuardPeer}
    (hp : s.meshPeerOf cfg m = some p) (hr : r ∈ s.peersOf .node b.id) (he : p.publicKey = r.publicKey) :
      m.id = b.id := by
  obtain ⟨_, r', hr', rfl⟩ := meshPeerOf_some hp
  obtain ⟨hmem', _, hid'⟩ := mem_peersOf.mp hr'
  obtain ⟨hmem, _, hid⟩ := mem_peersOf.mp hr
  have hrr : r' = r := hkeys r' hmem' r hmem he
  rw [← hid', ← hid, hrr]

theorem MeshPeers.of_members (hone : s.OnePeerEach) (hkeys : s.DistinctKeys) (hnodup : (ms.map Node.id).Nodup)
    (hms : ∀ m, m ∈ ms ↔ m.id ≠ a.id ∧ ∃ n, s.SharesGroup a.id n ∧ m = { n with capabilities := [] }) :
    s.MeshPeers cfg a (ms.filterMap (s.meshPeerOf cfg)) := by
  have hfound : ∀ p ∈ ms.filterMap (s.meshPeerOf cfg), ∃ m, m.id ≠ a.id ∧ s.SharesGroup a.id m ∧
      s.meshPeerOf cfg m = some p := by
    intro p hp
    obtain ⟨m, hm, hp⟩ := List.mem_filterMap.mp hp
    obtain ⟨hne, n, hn, rfl⟩ := (hms m).mp hm
    exact ⟨n, hne, hn, hp⟩
  refine ⟨fun p hp => ?_, fun b hb hne hshares hip r hr => ?_, fun b hb hnot r hr p hp he => ?_⟩
  · obtain ⟨m, hne, hshares, hm⟩ := hfound p hp
    obtain ⟨hip, hsection⟩ := meshPeerOf_some hm
    exact ⟨m, hne, hshares, hip, hsection⟩
  · have hmem : { b with capabilities := [] } ∈ ms := (hms _).mpr ⟨hne, b, hshares, rfl⟩
    rw [List.filter_filterMap]
    -- of the members only this one has a section with the key
    rw [(filterMap_eq_of_unique (a := { b with capabilities := [] }) (List.Nodup.of_map _ hnodup) ?_).1 hmem]
    · have hsection : s.meshPeerOf cfg { b with capabilities := [] } = some (b.meshPeer cfg r.publicKey) :=
        meshPeerOf_of_mem hone hb hip hr
      rw [hsection]
      simp [Option.filter, Node.meshPeer]
    · intro m hm hsome
      obtain ⟨p, hp⟩ := Option.ne_none_iff_exists'.mp hsome
      obtain ⟨hp, hkey⟩ := Option.filter_eq_some_iff.mp hp
      have hid := owner_of_key hkeys hp hr (by simpa using hkey)
      exact List.inj_on_of_nodup_map hnodup hm hmem hid
  · obtain ⟨m, hne, hshares, hm⟩ := hfound p hp
    have hid := owner_of_key hkeys hm hr he
    obtain rfl : m = b := Table.key_inj hshares.1 hb hid
    rcases hnot with h | h | h
    · exact hne h
    · exact h hshares
    · exact (meshPeerOf_some hm).1 h

theorem SharesGroup.symm {b : Node} (ha : a ∈ s.nodes) (h : s.SharesGroup a.id b) : s.SharesGroup b.id a := by
  obtain ⟨_, g, hg, hina, hinb⟩ := h
  exact ⟨ha, g, hg, hinb, hina⟩

theorem MeshPeers.lists_iff {b : Node} {ps : List WireGuardPeerConfig} (h : s.MeshPeers cfg a ps) (hb : b ∈ s.nodes)
    (hne : b.id ≠ a.id) (hip : b.wireGuardIP ≠ "") (hrec : s.peersOf .node b.id ≠ []) :
    s.Lists cfg ps b ↔ s.SharesGroup a.id b := by
  constructor
  · rintro ⟨r, hr, hmem⟩
    by_contra hnot
    exact h.absent b hb (.inr (.inl hnot)) r hr _ hmem rfl
  · intro hshares
    obtain ⟨r, hr⟩ := List.exists_mem_of_ne_nil _ hrec
    have honce := h.once b hb hne hshares hip r hr
    exact ⟨r, hr, List.mem_of_mem_filter (honce ▸ List.mem_singleton_self _)⟩

end Store

/-- While the database answers, the mesh peers of two nodes are generated. Each has the
section of every other member of its groups that has an address and a peer record, once,
and no other, its own least of all; so of two nodes that have both, each lists the other
or none does. -/
theorem mesh_peering_symmetric {v : Env} (hv : ∀ t, v.fault t = none) {s : Store} (hone : s.OnePeerEach)
    (hkeys : s.DistinctKeys) (cfg : WireGuardHub) {a b : Node} (ha : a ∈ s.nodes) (hb : b ∈ s.nodes) (hne : a.id ≠ b.id)
    (w w' : World) (hw : w.store = s) (hw' : w'.store = s) :
    ∃ psA psB portA portB, ((generateMeshPeers cfg a).1.exec v w).1 = .ok (psA, portA) ∧
      ((generateMeshPeers cfg b).1.exec v w').1 = .ok (psB, portB) ∧
      s.MeshPeers cfg a psA ∧ s.MeshPeers cfg b psB ∧
      (a.wireGuardIP ≠ "" → b.wireGuardIP ≠ "" → s.peersOf .node a.id ≠ [] → s.peersOf .node b.id ≠ [] →
        (s.Lists cfg psA b ↔ s.Lists cfg psB a)) := by
  have hrun : ∀ (n : Node) (w : World), w.store = s →
      ∃ ps port, ((generateMeshPeers cfg n).1.exec v w).1 = .ok (ps, port) ∧ s.MeshPeers cfg n ps := by
    intro n w hw
    have hends := generateMeshPeers_returns cfg hv hone n
    rcases hx : (generateMeshPeers cfg n).1.exec v w with ⟨_ | ⟨ps, port⟩, w'⟩
    · exact (hends.error hw hx).elim
    · obtain ⟨_, ms, hnodup, hms, rfl⟩ := hends.ok hw hx
      exact ⟨_, port, rfl, .of_members hone hkeys hnodup hms⟩
  obtain ⟨psA, portA, hA, hmeshA⟩ := hrun a w hw
  obtain ⟨psB, portB, hB, hmeshB⟩ := hrun b w' hw'
  refine ⟨psA, psB, portA, portB, hA, hB, hmeshA, hmeshB, fun hipA hipB hrecA hrecB => ?_⟩
  rw [hmeshA.lists_iff hb hne.symm hipB hrecB, hmeshB.lists_iff ha hne hipA hrecA]
  exact ⟨fun h => h.symm ha, fun h => h.symm hb⟩

namespace Sample

def enrolledNode (id : ID) (ip : String) : Node := { node id 100 with wireGuardIP := ip, status := .online }

def nodePeer (id ownerID : ID) (key ip : String) : WireGuardPeer :=
  { id, ownerType := .node, ownerID, publicKey := key, privateKey := key ++ "-private", presharedKey := key ++ "-psk"
    allowedIPs := [ip ++ "/32"], endpoint := "", lastRotatedAt := 0, createdAt := 0, updatedAt := 0 }

def meshFleet : Store :=
  { fleet with
    nodes := ⟨[enrolledNode 10 "10.100.0.2", enrolledNode 11 "10.100.0.3", enrolledNode 12 "10.100.0.4"], by decide⟩
    nodeGroups := ⟨[group 60 100 "eu"], by decide⟩
    memberships := ⟨[(60, 10), (60, 11)], by decide⟩
    wireGuardPeers := ⟨[controllerPeer, nodePeer 31 10 "first" "10.100.0.2", nodePeer 32 11 "second" "10.100.0.3",
      nodePeer 33 12 "third" "10.100.0.4"], by decide⟩ }

end Sample

theorem mesh_peering_symmetric_pair :
    ∃ psA psB portA portB,
      ((generateMeshPeers Sample.provisioner.wgConfig (Sample.enrolledNode 10 "10.100.0.2")).1.exec Env.calm
        ⟨0, Sample.meshFleet⟩).1 = .ok (psA, portA) ∧
      ((generateMeshPeers Sample.provisioner.wgConfig (Sample.enrolledNode 11 "10.100.0.3")).1.exec Env.calm
        ⟨5, Sample.meshFleet⟩).1 = .ok (psB, portB) ∧
      Sample.meshFleet.Lists Sample.provisioner.wgConfig psA (Sample.enrolledNode 11 "10.100.0.3") ∧
      Sample.meshFleet.Lists Sample.provisioner.wgConfig psB (Sample.enrolledNode 10 "10.100.0.2") := by
  have hone : Sample.meshFleet.OnePeerEach := by unfold Store.OnePeerEach; decide
  have hkeys : Sample.meshFleet.DistinctKeys := by unfold Store.DistinctKeys; decide
  have hb : Sample.enrolledNode 11 "10.100.0.3" ∈ Sample.meshFleet.nodes := by decide
  obtain ⟨psA, psB, portA, portB, hA, hB, hmesh, -, hiff⟩ :=
    mesh_peering_symmetric (v := Env.calm) (fun _ => rfl) hone hkeys Sample.provisioner.wgConfig
      (a := Sample.enrolledNode 10 "10.100.0.2") (by decide) hb (by decide) ⟨0, _⟩ ⟨5, _⟩ rfl rfl
  have hshares : Sample.meshFleet.SharesGroup 10 (Sample.enrolledNode 11 "10.100.0.3") :=
    ⟨hb, _, List.mem_singleton_self _, by decide, by decide⟩
  have hlists := (hmesh.lists_iff hb (by decide) (by decide) (by decide)).mpr hshares
  exact ⟨psA, psB, portA, portB, hA, hB, hlists, (hiff (by decide) (by decide) (by decide) (by decide)).mp hlists⟩

end EdgeFabric
