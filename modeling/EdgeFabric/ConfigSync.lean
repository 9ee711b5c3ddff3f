/-
What a node is told by the DNS, the CDN and the route service: precisely the active
zones, sites and routes whose node group has the node as a member and is of their
tenant, each once, every zone with all its records and every site with all its
origins (`node_configs_exact`).

The three functions are one program over different tables (`ConfigSync.config`). Its
outer loop goes through the groups of the node, which may be of several tenants, its
inner one through the rows of a group's tenant, and a row that was listed is not
listed again. `Listing` is the invariant of both loops; that nothing is missing
follows from the rows that were visited.
-/
import EdgeFabric.Cdn
import EdgeFabric.Routing.Configs

namespace EdgeFabric

/-- The node group has the node as a member, and is of the tenant. -/
def Store.Assigned (s : Store) (nodeID tenantID : ID) (nodeGroupID : Option ID) : Prop :=
  ∃ g ∈ s.nodeGroups, (g.id, nodeID) ∈ s.memberships ∧ nodeGroupID = some g.id ∧ tenantID = g.tenantID

/-! ## Rows for nodes -/

/-- A table whose rows are for the nodes of a group. -/
structure Syncable (α : Type) where
  id : α → ID
  tenantID : α → ID
  nodeGroupID : α → Option ID
  active : α → Bool
  table : Store → Table id

namespace Syncable
variable {α ρ : Type} (k : Syncable α) (s : Store) (nodeID : ID) (row : ρ → α) (Whole : ρ → Prop)

/-- The row is for the node. -/
structure Wanted (a : α) : Prop where
  mem : a ∈ k.table s
  active : k.active a
  assigned : s.Assigned nodeID (k.tenantID a) (k.nodeGroupID a)

/-- A configuration with precisely the rows that are for the node, each once, and with what
comes with them. -/
structure Exact (cs : List ρ) : Prop where
  once : (cs.map fun c => k.id (row c)).Nodup
  precisely : ∀ a, (∃ c ∈ cs, row c = a) ↔ k.Wanted s nodeID a
  whole : ∀ c ∈ cs, Whole c

/-- What is listed so far is for the node, and the rows seen are the ones listed. -/
structure Listing (out : List ρ) (seen : List ID) : Prop where
  once : (out.map fun c => k.id (row c)).Nodup
  wanted : ∀ c ∈ out, k.Wanted s nodeID (row c)
  whole : ∀ c ∈ out, Whole c
  seen : ∀ id, id ∈ seen ↔ ∃ c ∈ out, k.id (row c) = id

/-- What a round of the inner loop makes of the list: a row of the group that is active and
was not seen is added, and any other left out. -/
def Round (group : NodeGroup) (a : α) (out : List ρ) (seen : List ID) (out' : List ρ) (seen' : List ID) : Prop :=
  if k.nodeGroupID a = some group.id ∧ k.active a ∧ k.id a ∉ seen then
    ∃ c, row c = a ∧ Whole c ∧ out' = out ++ [c] ∧ seen' = k.id a :: seen
  else out' = out ∧ seen' = seen

variable {k s nodeID row Whole} {out out' : List ρ} {seen seen' : List ID} {group : NodeGroup} {a : α}

theorem Listing.nil : k.Listing s nodeID row Whole [] [] :=
  ⟨List.nodup_nil, by simp, by simp, by simp⟩

theorem Wanted.of_group (hgroup : group ∈ s.nodeGroups) (hmember : (group.id, nodeID) ∈ s.memberships)
    (ha : a ∈ k.table s) (htenant : k.tenantID a = group.tenantID) (hof : k.nodeGroupID a = some group.id)
    (hactive : k.active a) : k.Wanted s nodeID a :=
  ⟨ha, hactive, group, hgroup, hmember, hof, htenant⟩

theorem Listing.add (h : k.Listing s nodeID row Whole out seen) {c : ρ} (hwanted : k.Wanted s nodeID (row c))
    (hwhole : Whole c) (hnew : k.id (row c) ∉ seen) :
    k.Listing s nodeID row Whole (out ++ [c]) (k.id (row c) :: seen) := by
  refine ⟨?_, List.forall_mem_concat h.wanted hwanted, List.forall_mem_concat h.whole hwhole, fun id => ?_⟩
  · have hfree : k.id (row c) ∉ out.map fun c => k.id (row c) := fun hmem => by
      obtain ⟨x, hx, hid⟩ := List.mem_map.mp hmem
      exact hnew ((h.seen _).mpr ⟨x, hx, hid⟩)
    rw [List.map_append]
    exact h.once.append (List.nodup_singleton _) (by simpa using hfree)
  · rw [List.mem_cons, h.seen]
    constructor
    · intro hid
      rcases hid with rfl | ⟨x, hx, hid⟩
      · exact ⟨c, by simp, rfl⟩
      · exact ⟨x, List.mem_append_left _ hx, hid⟩
    · intro hid
      obtain ⟨x, hx, hid⟩ := hid
      rcases List.mem_append.mp hx with hx | hx
      · exact .inr ⟨x, hx, hid⟩
      · rw [List.mem_singleton.mp hx] at hid
        exact .inl hid.symm

/-- After a round the list is one of the node's rows still, nothing that was seen is
forgotten, and the row has been seen if it is for the node through this group. -/
theorem Listing.round (h : k.Listing s nodeID row Whole out seen) (hgroup : group ∈ s.nodeGroups)
    (hmember : (group.id, nodeID) ∈ s.memberships) (ha : a ∈ k.table s) (htenant : k.tenantID a = group.tenantID)
    (hround : k.Round row Whole group a out seen out' seen') :
    k.Listing s nodeID row Whole out' seen' ∧ (∀ id ∈ seen, id ∈ seen') ∧
      (k.nodeGroupID a = some group.id → k.active a → k.id a ∈ seen') := by
  unfold Round at hround
  split at hround
  · next hadd =>
    obtain ⟨hof, hactive, hnew⟩ := hadd
    obtain ⟨c, rfl, hwhole, rfl, rfl⟩ := hround
    have hwanted := Wanted.of_group hgroup hmember ha htenant hof hactive
    exact ⟨h.add hwanted hwhole hnew, fun _ hid => List.mem_cons_of_mem _ hid, fun _ _ => List.mem_cons_self⟩
  · next hskip =>
    obtain ⟨rfl, rfl⟩ := hround
    refine ⟨h, fun _ hid => hid, fun hof hactive => ?_⟩
    by_contra hnew
    exact hskip ⟨hof, hactive, hnew⟩

theorem Listing.exact (h : k.Listing s nodeID row Whole out seen) (hall : ∀ a, k.Wanted s nodeID a → k.id a ∈ seen) :
    k.Exact s nodeID row Whole out := by
  refine ⟨h.once, fun a => ⟨fun hc => ?_, fun ha => ?_⟩, h.whole⟩
  · obtain ⟨c, hc, rfl⟩ := hc
    exact h.wanted c hc
  · obtain ⟨c, hc, hid⟩ := (h.seen _).mp (hall a ha)
    exact ⟨c, hc, Table.key_inj (h.wanted c hc).mem ha.mem hid⟩

end Syncable

/-! ## The program -/

/-- What the three functions differ in: the rows, the list a configuration is made of, the
read of a tenant's rows, and the body of the inner loop with its variables. -/
structure ConfigSync (α ρ L : Type) extends Syncable α where
  row : ρ → α
  rows : L → List ρ
  seen : L → List ID
  start : L
  list : ID → Store → Except Err (List α × Nat)
  message : NodeGroup → String
  add : NodeGroup → L → α → Reads L

namespace ConfigSync
variable {α ρ L : Type} (c : ConfigSync α ρ L)

def addGroup (l : L) (group : NodeGroup) : Reads L := do
  let (rows, _) ← (read (c.list group.tenantID)).under (c.message group)
  Query.fold (c.add group) l rows

def config (nodeID : ID) : Reads (List ρ) := do
  let _ ← (read (Store.getNode nodeID)).under "get node"
  let groups ← (read (Store.listNodeGroupsByNode nodeID)).under "list node groups"
  let l ← Query.fold c.addGroup c.start groups
  return c.rows l

variable {v : Env} {s : Store} {nodeID : ID} {Whole : ρ → Prop} {E : Err → Store → Prop} {c}

/-- The loop variables after some groups: a list of the node's rows, in which no row of
those groups is missing. -/
def After (c : ConfigSync α ρ L) (s : Store) (nodeID : ID) (Whole : ρ → Prop) (groups : List NodeGroup) (l : L) :
    Prop :=
  c.Listing s nodeID c.row Whole (c.rows l) (c.seen l) ∧
    ∀ g ∈ groups, ∀ a ∈ c.table s, c.tenantID a = g.tenantID → c.nodeGroupID a = some g.id → c.active a →
      c.id a ∈ c.seen l

theorem addGroup_ends {groups : List NodeGroup} {group : NodeGroup} {l : L} (hl : c.After s nodeID Whole groups l)
    (hgroup : group ∈ s.nodeGroups) (hmember : (group.id, nodeID) ∈ s.memberships)
    (hlist : ∃ page, c.list group.tenantID s = .ok page ∧
      ∀ a, a ∈ page.1 ↔ a ∈ c.table s ∧ c.tenantID a = group.tenantID)
    (hadd : ∀ l a, a ∈ c.table s → c.tenantID a = group.tenantID → Ends v s (c.add group l a).1
      (fun l' s' => s' = s ∧ c.Round c.row Whole group a (c.rows l) (c.seen l) (c.rows l') (c.seen l')) E)
    (hfault : ∀ t msg e, v.fault t = some msg → E e s) :
    Ends v s (c.addGroup l group).1 (fun l' s' => s' = s ∧ c.After s nodeID Whole (groups ++ [group]) l') E := by
  obtain ⟨page, hpage, hmem⟩ := hlist
  refine .bind (.mapError (Ends.read_cases (fun page' hpage' => ?_) (fun t msg h => hfault t msg _ h) fun e he => ?_))
  · obtain rfl : page = page' := Except.ok.inj (hpage.symm.trans hpage')
    -- the rows of the group that the inner loop has visited were seen
    let I := fun (rows : List α) (l' : L) => c.Listing s nodeID c.row Whole (c.rows l') (c.seen l') ∧
      (∀ id ∈ c.seen l, id ∈ c.seen l') ∧
      ∀ a ∈ rows, c.nodeGroupID a = some group.id → c.active a → c.id a ∈ c.seen l'
    refine (Prog.Ensures.fold_visited (I := I) ⟨hl.1, fun _ h => h, by simp⟩ fun rows a rest l₁ has h₁ => ?_).mono ?_
      fun _ _ h => h
    · obtain ⟨hlisting, hkept, hrows⟩ := h₁
      have ha := (hmem a).mp (has ▸ by simp)
      refine (hadd l₁ a ha.1 ha.2).mono (fun l₂ s' h₂ => ?_) fun _ _ h => h
      obtain ⟨rfl, hround⟩ := h₂
      obtain ⟨hlisting', hkept', ha'⟩ := hlisting.round hgroup hmember ha.1 ha.2 hround
      refine ⟨rfl, hlisting', fun id hid => hkept' id (hkept id hid), fun b hb hof hactive => ?_⟩
      rcases List.mem_append.mp hb with hb | hb
      · exact hkept' _ (hrows b hb hof hactive)
      · obtain rfl := List.mem_singleton.mp hb
        exact ha' hof hactive
    · intro l' s' h
      obtain ⟨rfl, hlisting, hkept, hrows⟩ := h
      refine ⟨rfl, hlisting, fun g hg a ha htenant hof hactive => ?_⟩
      rcases List.mem_append.mp hg with hg | hg
      · exact hkept _ (hl.2 g hg a ha htenant hof hactive)
      · obtain rfl := List.mem_singleton.mp hg
        exact hrows a ((hmem a).mpr ⟨ha, htenant⟩) hof hactive
  · rw [hpage] at he
    exact absurd he (by simp)

theorem config_ends {n : Node} (hn : n ∈ s.nodes) (hrows : c.rows c.start = []) (hseen : c.seen c.start = [])
    (hlist : ∀ g ∈ s.nodeGroups, (g.id, n.id) ∈ s.memberships → ∃ page, c.list g.tenantID s = .ok page ∧
      ∀ a, a ∈ page.1 ↔ a ∈ c.table s ∧ c.tenantID a = g.tenantID)
    (hadd : ∀ g ∈ s.nodeGroups, (g.id, n.id) ∈ s.memberships → ∀ l a, a ∈ c.table s → c.tenantID a = g.tenantID →
      Ends v s (c.add g l a).1
        (fun l' s' => s' = s ∧ c.Round c.row Whole g a (c.rows l) (c.seen l) (c.rows l') (c.seen l')) E)
    (hfault : ∀ t msg e, v.fault t = some msg → E e s) :
    Ends v s (c.config n.id).1 (fun cs s' => s' = s ∧ c.Exact s n.id c.row Whole cs) E := by
  refine .bind (.mapError (Ends.read_cases (fun _ _ => ?_) (fun t msg h => hfault t msg _ h) fun e he => ?_))
  · refine .bind (.mapError (Ends.read_cases (fun groups hgroups => ?_) (fun t msg h => hfault t msg _ h)
      fun e he => absurd he (by simp [Store.listNodeGroupsByNode])))
    have hmem := Store.listNodeGroupsByNode_ok hgroups
    refine .andThen (Prog.Ensures.fold_visited (I := c.After s n.id Whole)
      ⟨by rw [hrows, hseen]; exact .nil, by simp⟩ fun before g rest l hgs hl => ?_) ?_
    · obtain ⟨hgroup, hmember⟩ := (hmem g).mp (hgs ▸ by simp)
      exact addGroup_ends hl hgroup hmember (hlist g hgroup hmember) (hadd g hgroup hmember) hfault
    · intro l s' h
      obtain ⟨rfl, hlisting, hall⟩ := h
      refine .pure ⟨rfl, hlisting.exact fun a ha => ?_⟩
      obtain ⟨g, hgroup, hmember, hof, htenant⟩ := ha.assigned
      exact hall g ((hmem g).mpr ⟨hgroup, hmember⟩) a ha.mem htenant hof ha.active
  · have hfound : s.getNode n.id = .ok n := selectRow_ok.mpr (Table.find_eq_some.mpr ⟨hn, rfl⟩)
    rw [hfound] at he
    exact absurd he (by simp)

end ConfigSync

/-! ## The three services -/

/-- No tenant of the node's groups has more rows than the services ask for. -/
def Syncable.Fits {α : Type} (k : Syncable α) (s : Store) (nodeID : ID) : Prop :=
  ∀ g ∈ s.nodeGroups, (g.id, nodeID) ∈ s.memberships →
    ((k.table s).rows.filter (k.tenantID · = g.tenantID)).length ≤ 10000

theorem page_perm {α : Type} {f : α → String} {rows : List α} (h : rows.length ≤ 10000) :
    (({ limit := 10000 : ListParams }).page (byName f rows)).Perm rows := by
  have hpage : ({ limit := 10000 : ListParams }).page (byName f rows) = byName f rows :=
    ListParams.page_eq_self rfl (by rw [byName, List.length_insertionSort]; exact h)
  rw [hpage]
  exact List.perm_insertionSort _ rows

theorem Syncable.Fits.mem_page {α : Type} {k : Syncable α} {s : Store} {nodeID : ID} (h : k.Fits s nodeID)
    {g : NodeGroup} (hg : g ∈ s.nodeGroups) (hmember : (g.id, nodeID) ∈ s.memberships) {f : α → String} (a : α) :
    a ∈ ({ limit := 10000 : ListParams }).page (byName f ((k.table s).rows.filter (k.tenantID · = g.tenantID))) ↔
      a ∈ k.table s ∧ k.tenantID a = g.tenantID := by
  rw [(page_perm (h g hg hmember)).mem_iff, List.mem_filter, decide_eq_true_eq, Table.mem_def]

theorem Syncable.round_ends {α ρ L : Type} {k : Syncable α} {row : ρ → α} {Whole : ρ → Prop} (rows : L → List ρ)
    (seen : L → List ID) {v : Env} {s : Store} {nodeID : ID} {g : NodeGroup} {a : α} {l : L} {add : Reads L}
    {E : Err → Store → Prop} {p : Prop} [Decidable p]
    (hp : p ↔ k.nodeGroupID a = some g.id ∧ k.active a ∧ k.id a ∉ seen l) (hg : g ∈ s.nodeGroups)
    (hmember : (g.id, nodeID) ∈ s.memberships) (ha : a ∈ k.table s) (htenant : k.tenantID a = g.tenantID)
    (hadd : k.Wanted s nodeID a → Ends v s add.1
      (fun l' s' => s' = s ∧ ∃ c, row c = a ∧ Whole c ∧ rows l' = rows l ++ [c] ∧ seen l' = k.id a :: seen l) E) :
    Ends v s (if p then add else pure l : Reads L).1
      (fun l' s' => s' = s ∧ k.Round row Whole g a (rows l) (seen l) (rows l') (seen l')) E := by
  unfold Round
  by_cases h : p
  · have hkeep := hp.mp h
    simp only [if_pos h, if_pos hkeep]
    exact hadd (.of_group hg hmember ha htenant hkeep.1 hkeep.2.1)
  · simp only [if_neg h, if_neg fun hkeep => h (hp.mpr hkeep)]
    exact .pure ⟨rfl, rfl, rfl⟩

def Store.recordsOf (s : Store) (zoneID : ID) : List DNSRecord := s.dnsRecords.rows.filter (·.zoneID = zoneID)

def Store.originsOf (s : Store) (siteID : ID) : List CDNOrigin := s.cdnOrigins.rows.filter (·.siteID = siteID)

section
variable {v : Env} {s : Store} {n : Node}

namespace DNSService

def zones : Syncable DNSZone :=
  { id := (·.id), tenantID := (·.tenantID), nodeGroupID := (·.nodeGroupID), active := (·.status = .active)
    table := (·.dnsZones) }

def sync : ConfigSync DNSZone ZoneWithRecords ConfigLoop :=
  { zones with
    row := (·.zone), rows := (·.zones), seen := (·.seenZones), start := { zones := [], seenZones := [] }
    list := fun tenantID => Store.listDNSZones tenantID { limit := 10000 }
    message := fun group => "list zones for group " ++ group.id.text
    add := addZone }

theorem getNodeDNSConfig_eq (nodeID : ID) : getNodeDNSConfig nodeID = sync.config nodeID := rfl

/-- No list that `GetNodeDNSConfig` asks for is longer than it asks for. -/
structure Fits (s : Store) (nodeID : ID) : Prop where
  rows : zones.Fits s nodeID
  records : ∀ z, zones.Wanted s nodeID z → (s.recordsOf z.id).length ≤ 10000

theorem addZone_round (hfits : Fits s n.id) {g : NodeGroup} (hg : g ∈ s.nodeGroups)
    (hmember : (g.id, n.id) ∈ s.memberships) (l : ConfigLoop) {z : DNSZone} (hz : z ∈ s.dnsZones)
    (htenant : z.tenantID = g.tenantID) :
    Ends v s (addZone g l z).1
      (fun l' s' => s' = s ∧ zones.Round (·.zone) (fun c => c.records.Perm (s.recordsOf c.zone.id)) g z
        l.zones l.seenZones l'.zones l'.seenZones)
      fun _ s' => s' = s ∧ ∃ t, v.fault t ≠ none := by
  refine Syncable.round_ends ConfigLoop.zones ConfigLoop.seenZones (by simp [zones]) hg hmember hz htenant
    fun hwanted => ?_
  refine .bind (.mapError (Ends.read_cases (fun page hpage => ?_) (fun t msg h => ⟨rfl, t, by simp [h]⟩)
    fun e he => absurd he (by simp [Store.listDNSRecords])))
  cases hpage
  have hlength : (byName DNSRecord.type (s.recordsOf z.id)).length ≤ 10000 := by
    rw [byName, List.length_insertionSort]
    exact hfits.records z hwanted
  exact .pure ⟨rfl, _, rfl, (page_perm hlength).trans (List.perm_insertionSort _ _), rfl, rfl⟩

theorem getNodeDNSConfig_exact (hn : n ∈ s.nodes) (hfits : Fits s n.id) :
    Ends v s (getNodeDNSConfig n.id).1
      (fun cs s' => s' = s ∧ zones.Exact s n.id (·.zone) (fun c => c.records.Perm (s.recordsOf c.zone.id)) cs)
      fun _ s' => s' = s ∧ ∃ t, v.fault t ≠ none := by
  rw [getNodeDNSConfig_eq]
  exact ConfigSync.config_ends hn rfl rfl
    (fun g hg hmember => ⟨_, rfl, hfits.rows.mem_page hg hmember⟩)
    (fun g hg hmember l z hz htenant => addZone_round hfits hg hmember l hz htenant)
    fun t msg _ h => ⟨rfl, t, by simp [h]⟩

end DNSService

namespace CDNService

def sites : Syncable CDNSite :=
  { id := (·.id), tenantID := (·.tenantID), nodeGroupID := (·.nodeGroupID), active := (·.status = .active)
    table := (·.cdnSites) }

def sync : ConfigSync CDNSite SiteWithOrigins ConfigLoop :=
  { sites with
    row := (·.site), rows := (·.sites), seen := (·.seenSites), start := { sites := [], seenSites := [] }
    list := fun tenantID => Store.listCDNSites tenantID { limit := 10000 }
    message := fun group => "list sites for group " ++ group.id.text
    add := addSite }

theorem getNodeCDNConfig_eq (nodeID : ID) : getNodeCDNConfig nodeID = sync.config nodeID := rfl

/-- No list that `GetNodeCDNConfig` asks for is longer than it asks for. -/
structure Fits (s : Store) (nodeID : ID) : Prop where
  rows : sites.Fits s nodeID
  origins : ∀ c, sites.Wanted s nodeID c → (s.originsOf c.id).length ≤ 10000

theorem addSite_round (hfits : Fits s n.id) {g : NodeGroup} (hg : g ∈ s.nodeGroups)
    (hmember : (g.id, n.id) ∈ s.memberships) (l : ConfigLoop) {c : CDNSite} (hc : c ∈ s.cdnSites)
    (htenant : c.tenantID = g.tenantID) :
    Ends v s (addSite g l c).1
      (fun l' s' => s' = s ∧ sites.Round (·.site) (fun c => c.origins.Perm (s.originsOf c.site.id)) g c
        l.sites l.seenSites l'.sites l'.seenSites)
      fun _ s' => s' = s ∧ ∃ t, v.fault t ≠ none := by
  refine Syncable.round_ends ConfigLoop.sites ConfigLoop.seenSites (by simp [sites]) hg hmember hc htenant
    fun hwanted => ?_
  refine .bind (.mapError (Ends.read_cases (fun page hpage => ?_) (fun t msg h => ⟨rfl, t, by simp [h]⟩)
    fun e he => absurd he (by simp [Store.listCDNOrigins])))
  cases hpage
  exact .pure ⟨rfl, _, rfl, page_perm (hfits.origins c hwanted), rfl, rfl⟩

theorem getNodeCDNConfig_exact (hn : n ∈ s.nodes) (hfits : Fits s n.id) :
    Ends v s (getNodeCDNConfig n.id).1
      (fun cs s' => s' = s ∧ sites.Exact s n.id (·.site) (fun c => c.origins.Perm (s.originsOf c.site.id)) cs)
      fun _ s' => s' = s ∧ ∃ t, v.fault t ≠ none := by
  rw [getNodeCDNConfig_eq]
  exact ConfigSync.config_ends hn rfl rfl
    (fun g hg hmember => ⟨_, rfl, hfits.rows.mem_page hg hmember⟩)
    (fun g hg hmember l c hc htenant => addSite_round hfits hg hmember l hc htenant)
    fun t msg _ h => ⟨rfl, t, by simp [h]⟩

end CDNService

namespace RouteService

def routes : Syncable Route :=
  { id := (·.id), tenantID := (·.tenantID), nodeGroupID := (·.nodeGroupID), active := (·.status = .active)
    table := (·.routes) }

def sync : ConfigSync Route RouteWithGateway ConfigLoop :=
  { routes with
    row := (·.route), rows := (·.routes), seen := (·.seenRoutes)
    start := { routes := [], seenRoutes := [], gwCache := [] }
    list := fun tenantID => Store.listRoutes tenantID { limit := 10000 }
    message := fun group => "list routes for group " ++ group.id.text
    add := addRoute }

theorem getNodeRouteConfig_eq (nodeID : ID) : getNodeRouteConfig nodeID = sync.config nodeID := rfl

/-- A route for the node is through a gateway that is not stored. -/
def Dangling (s : Store) (nodeID : ID) : Prop :=
  ∃ r, routes.Wanted s nodeID r ∧ ∀ gw ∈ s.gateways, gw.id ≠ r.gatewayID

theorem addRoute_round {g : NodeGroup} (hg : g ∈ s.nodeGroups) (hmember : (g.id, n.id) ∈ s.memberships)
    (l : ConfigLoop) {r : Route} (hr : r ∈ s.routes) (htenant : r.tenantID = g.tenantID) :
    Ends v s (addRoute g l r).1
      (fun l' s' => s' = s ∧ routes.Round (·.route) (fun _ => True) g r l.routes l.seenRoutes l'.routes l'.seenRoutes)
      fun _ s' => s' = s ∧ ((∃ t, v.fault t ≠ none) ∨ Dangling s n.id) := by
  refine Syncable.round_ends ConfigLoop.routes ConfigLoop.seenRoutes (by simp [routes]) hg hmember hr htenant
    fun hwanted => ?_
  have hgateway : Ends v s (gatewayIP l.gwCache r.gatewayID).1 (fun _ s' => s' = s)
      fun _ s' => s' = s ∧ ((∃ t, v.fault t ≠ none) ∨ Dangling s n.id) := by
    unfold gatewayIP
    split
    · exact .pure rfl
    · refine .bind (.mapError (Ends.read_cases (fun gw _ => .pure rfl) (fun t msg h => ⟨rfl, .inl ⟨t, by simp [h]⟩⟩)
        fun e he => ⟨rfl, .inr ⟨r, hwanted, fun gw hgw hid => ?_⟩⟩))
      have hfound : s.getGateway r.gatewayID = .ok gw := selectRow_ok.mpr (Table.find_eq_some.mpr ⟨hgw, hid⟩)
      rw [hfound] at he
      exact absurd he (by simp)
  refine .andThen hgateway fun ip s' hs' => ?_
  obtain rfl := hs'
  exact .pure ⟨rfl, _, rfl, trivial, rfl, rfl⟩

theorem getNodeRouteConfig_exact (hn : n ∈ s.nodes) (hfits : routes.Fits s n.id) :
    Ends v s (getNodeRouteConfig n.id).1
      (fun cs s' => s' = s ∧ routes.Exact s n.id (·.route) (fun _ => True) cs)
      fun _ s' => s' = s ∧ ((∃ t, v.fault t ≠ none) ∨ Dangling s n.id) := by
  rw [getNodeRouteConfig_eq]
  exact ConfigSync.config_ends hn rfl rfl
    (fun g hg hmember => ⟨_, rfl, hfits.mem_page hg hmember⟩)
    (fun g hg hmember l r hr htenant => addRoute_round hg hmember l hr htenant)
    fun t msg _ h => ⟨rfl, .inl ⟨t, by simp [h]⟩⟩

end RouteService
end

/-- The three configurations of a stored node are exact. A call fails only if the
database does, or, for routes, if the store holds a route without its gateway. -/
theorem node_configs_exact (v : Env) (s : Store) (n : Node) (hn : n ∈ s.nodes) :
    (DNSService.Fits s n.id → Ends v s (DNSService.getNodeDNSConfig n.id).1
      (fun cs s' => s' = s ∧
        DNSService.zones.Exact s n.id (·.zone) (fun c => c.records.Perm (s.recordsOf c.zone.id)) cs)
      fun _ s' => s' = s ∧ ∃ t, v.fault t ≠ none) ∧
    (CDNService.Fits s n.id → Ends v s (CDNService.getNodeCDNConfig n.id).1
      (fun cs s' => s' = s ∧
        CDNService.sites.Exact s n.id (·.site) (fun c => c.origins.Perm (s.originsOf c.site.id)) cs)
      fun _ s' => s' = s ∧ ∃ t, v.fault t ≠ none) ∧
    (RouteService.routes.Fits s n.id → Ends v s (RouteService.getNodeRouteConfig n.id).1
      (fun cs s' => s' = s ∧ RouteService.routes.Exact s n.id (·.route) (fun _ => True) cs)
      fun _ s' => s' = s ∧ ((∃ t, v.fault t ≠ none) ∨ RouteService.Dangling s n.id)) :=
  ⟨DNSService.getNodeDNSConfig_exact hn, CDNService.getNodeCDNConfig_exact hn,
    RouteService.getNodeRouteConfig_exact hn⟩

namespace Sample

def servedZone : DNSZone :=
  { id := 50, tenantID := 100, name := "example.org", status := .active, serial := 1, ttl := 300
    nodeGroupID := some 25, transferAllowedIPs := [], createdAt := 0, updatedAt := 0 }

def servedSite : CDNSite :=
  { id := 60, tenantID := 100, name := "www", domains := ["www.example.org"], tlsMode := "auto", tlsCertID := none
    cacheEnabled := true, cacheTTL := 60, compressionEnabled := true, rateLimitRPS := none, nodeGroupID := some 25
    headerRules := none, wafEnabled := false, wafMode := "", status := .active, createdAt := 0, updatedAt := 0 }

def served : Store :=
  { edge 80 with
    dnsZones := ⟨[servedZone], by decide⟩
    dnsRecords := ⟨[{ id := 51, zoneID := 50, name := "www", type := .a, value := "192.0.2.7", ttl := none
                      priority := none, weight := none, port := none, createdAt := 0, updatedAt := 0 }], by decide⟩
    cdnSites := ⟨[servedSite], by decide⟩
    cdnOrigins := ⟨[{ id := 61, siteID := 60, address := "10.0.0.1:80", scheme := "http", weight := 1
                      healthCheckPath := "/", healthCheckInterval := none, status := .unknown, createdAt := 0
                      updatedAt := 0 }], by decide⟩ }

end Sample

theorem node_configs_exact_served :
    Ends Env.calm Sample.served (DNSService.getNodeDNSConfig 20).1
      (fun cs s' => s' = Sample.served ∧ DNSService.zones.Exact Sample.served 20 (·.zone)
        (fun c => c.records.Perm (Sample.served.recordsOf c.zone.id)) cs)
      (fun _ s' => s' = Sample.served ∧ ∃ t, Env.calm.fault t ≠ none) ∧
    Ends Env.calm Sample.served (CDNService.getNodeCDNConfig 20).1
      (fun cs s' => s' = Sample.served ∧ CDNService.sites.Exact Sample.served 20 (·.site)
        (fun c => c.origins.Perm (Sample.served.originsOf c.site.id)) cs)
      (fun _ s' => s' = Sample.served ∧ ∃ t, Env.calm.fault t ≠ none) ∧
    Ends Env.calm Sample.served (RouteService.getNodeRouteConfig 20).1
      (fun cs s' => s' = Sample.served ∧ RouteService.routes.Exact Sample.served 20 (·.route) (fun _ => True) cs)
      (fun _ s' => s' = Sample.served ∧
        ((∃ t, Env.calm.fault t ≠ none) ∨ RouteService.Dangling Sample.served 20)) ∧
    DNSService.zones.Wanted Sample.served 20 Sample.servedZone ∧
    CDNService.sites.Wanted Sample.served 20 Sample.servedSite ∧
    RouteService.routes.Wanted Sample.served 20 (Sample.edgeRoute 41 "a" "192.0.2.7" 80 "10.0.0.1") := by
  have hfew : ∀ {α : Type} (p : α → Bool) (rows : List α), rows.length ≤ 10000 → (rows.filter p).length ≤ 10000 :=
    fun p rows h => (List.length_filter_le p rows).trans h
  obtain ⟨hdns, hcdn, hroute⟩ := node_configs_exact Env.calm Sample.served Sample.edgeNode (by decide)
  refine ⟨hdns ⟨fun _ _ _ => hfew _ _ (by decide), fun _ _ => hfew _ _ (by decide)⟩,
    hcdn ⟨fun _ _ _ => hfew _ _ (by decide), fun _ _ => hfew _ _ (by decide)⟩,
    hroute fun _ _ _ => hfew _ _ (by decide), ⟨by decide, rfl, ?_⟩, ⟨by decide, rfl, ?_⟩, ⟨by decide, rfl, ?_⟩⟩
  all_goals exact ⟨_, List.mem_cons_self, by decide, rfl, rfl⟩

end EdgeFabric
