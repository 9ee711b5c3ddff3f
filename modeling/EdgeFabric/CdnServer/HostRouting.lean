/-
Which site a request goes to. `Reconcile` enters every domain of every site, in lower
case, into one table, and `ServeHTTP` looks the host of a request up in it, in lower case
and without a port. Nothing removes the dot that a name may end with, so `www.example.org.`
is not found where `www.example.org` is configured; and nothing keeps sites of two tenants
on one node from listing the same domain, of which the table keeps one (`host_misrouted`).

A host goes to the last site of the configuration that lists it as it is spelled, the dot
included; and sites of two tenants with one domain are in a configuration precisely if they
are stored for the node (`hosts_routed`).
-/
import EdgeFabric.CdnServer.Entries
import EdgeFabric.ConfigSync

namespace EdgeFabric.CDNService

/-- The site has passed `validateSite` or `validateSiteUpdate`. -/
def Accepted (site : CDNSite) : Prop :=
  ∃ needsDomain v w w', (validateSiteFields needsDomain site).1.exec v w = (.ok (), w')

/-- Two active sites of different tenants are stored for groups of the node and list one domain. -/
def Contested (lower : String → List UInt8) (s : Store) (nodeID : ID) : Prop :=
  ∃ a b, sites.Wanted s nodeID a ∧ sites.Wanted s nodeID b ∧ a.tenantID ≠ b.tenantID ∧
    ∃ d ∈ a.domains, ∃ d' ∈ b.domains, lower d = lower d'

theorem forM_ok {α : Type} {f : α → Except Err Unit} {xs : List α} (h : xs.forM f = .ok ()) :
    ∀ x ∈ xs, f x = .ok () := by
  induction xs with
  | nil => simp
  | cons x xs ih =>
    obtain ⟨u, hx, hxs⟩ := bind_ok.mp (show (f x >>= fun _ => xs.forM f) = .ok () from h)
    intro y hy
    rcases List.mem_cons.mp hy with rfl | hy
    · exact hx
    · exact ih hxs y hy

theorem Accepted.domain {site : CDNSite} (h : Accepted site) {d : String} (hd : d ∈ site.domains) :
    validateDomain d = .ok () := by
  obtain ⟨needsDomain, v, w, w', h⟩ := h
  obtain ⟨u, w₁, hfields, -⟩ := Prog.exec_bind_ok.mp h
  have hfields := congrArg Prod.fst hfields
  simp only [Query.ofExcept, Prog.exec_ofExcept] at hfields
  split at hfields
  · cases hfields
  · split at hfields
    · cases hfields
    · split at hfields
      · cases hfields
      · obtain ⟨u, hdomains, -⟩ := bind_ok.mp hfields
        have := forM_ok hdomains d hd
        cases hvalid : validateDomain d with
        | ok u => rfl
        | error e =>
          rw [hvalid] at this
          cases this

theorem contested_iff {lower : String → List UInt8} {v : Env} {w w' : World} {node : EdgeFabric.Node}
    {config : List SiteWithOrigins} (hnode : node ∈ w.store.nodes) (hfits : Fits w.store node.id)
    (hconfig : (getNodeCDNConfig node.id).1.exec v w = (.ok config, w')) :
    (∀ a ∈ config, ∀ b ∈ config, a.site.tenantID ≠ b.site.tenantID → ∀ d ∈ a.site.domains, ∀ d' ∈ b.site.domains,
      lower d ≠ lower d') ↔ ¬ Contested lower w.store node.id := by
  have hexact := ((getNodeCDNConfig_exact hnode hfits).ok rfl hconfig).2.precisely
  constructor
  · rintro hapart ⟨a, b, ha, hb, htenants, d, hd, d', hd', hsame⟩
    obtain ⟨ca, hca, rfl⟩ := (hexact a).mpr ha
    obtain ⟨cb, hcb, rfl⟩ := (hexact b).mpr hb
    exact hapart ca hca cb hcb htenants d hd d' hd' hsame
  · intro hnot a ha b hb htenants d hd d' hd' hsame
    exact hnot ⟨a.site, b.site, (hexact _).mp ⟨a, ha, rfl⟩, (hexact _).mp ⟨b, hb, rfl⟩, htenants, d, hd, d', hd', hsame⟩

end EdgeFabric.CDNService

namespace EdgeFabric.CdnServer
open Text (bytes)

def IsPort (port : Bytes) : Prop := port = [] ∨ ∃ digits : Bytes, (∀ b ∈ digits, 48 ≤ b ∧ b ≤ 57) ∧ port = 58 :: digits

/-- The host is the domain, up to the case of its letters and a port. -/
def Spells (host : Bytes) (d : String) : Prop :=
  ∃ name port : Bytes, host = name ++ port ∧ name.map asciiLower = (bytes d).map asciiLower ∧ IsPort port

def undotted (name : Bytes) : Bytes := if name.getLast? = some 46 then name.dropLast else name

/-- The host is the domain, up to the case of its letters, a port and a dot at the end. -/
def Means (host : Bytes) (d : String) : Prop :=
  ∃ name port : Bytes, host = name ++ port ∧ undotted (name.map asciiLower) = undotted ((bytes d).map asciiLower) ∧
    IsPort port

def Node.Handles (lib : ProxyLib) (r : Request) (site : CDNSite) (n : Node) : Prop :=
  ∃ i s, n.site i = some s ∧ s.runtime.site = site ∧ ∀ x, n.serveHTTP lib r x =
    (s.serve lib r x n.now).map fun (outcome, s') => (some (i, site.id), outcome, n.setSite i s')

/-- The site whose runtime `ServeHTTP` finds. -/
def Node.route (lib : ProxyLib) (r : Request) (n : Node) : Option CDNSite :=
  (n.proxy.sites.find (requestHost lib.toPlatform r)).bind fun row => n.proxy.runtimes[row.2]?.map (·.site)

/-- The last site of the configuration that lists the host, as it is spelled, is this one. -/
def LastLists (config : List CDNService.SiteWithOrigins) (site : CDNSite) (host : Bytes) : Prop :=
  ∃ (i : Nat) (swo : CDNService.SiteWithOrigins), config[i]? = some swo ∧ swo.site = site ∧
    (∃ d ∈ swo.site.domains, Spells host d) ∧ ∀ (j : Nat) (other : CDNService.SiteWithOrigins),
      config[j]? = some other → i < j → ∀ d ∈ other.site.domains, ¬ Spells host d

/-! ## The host of a request -/

theorem asciiLower_digit {b : UInt8} (h : b ≤ 58) : asciiLower b = b := by
  unfold asciiLower
  split
  · grind
  · rfl

theorem lt_of_asciiLower {b : UInt8} (h : asciiLower b < 128) : b < 128 := by
  unfold asciiLower at h
  split at h <;> grind

theorem splitHostPort_name {name : Bytes} (h : ∀ b ∈ name, b ≠ 58 ∧ b ≠ 91 ∧ b ≠ 93) : splitHostPort name = none := by
  have hdrop : name.dropWhile (· ≠ 58) = [] := by
    rw [List.dropWhile_eq_nil_iff]
    exact fun b hb => by simpa using (h b hb).1
  unfold splitHostPort
  split
  · next rest => exact absurd rfl (h 91 List.mem_cons_self).2.1
  · rw [hdrop]

theorem splitHostPort_port {name digits : Bytes} (h : ∀ b ∈ name, b ≠ 58 ∧ b ≠ 91 ∧ b ≠ 93)
    (hdigits : ∀ b ∈ digits, 48 ≤ b ∧ b ≤ 57) : splitHostPort (name ++ 58 :: digits) = some (name, digits) := by
  have hall : ∀ b ∈ name, (decide (b ≠ 58)) = true := fun b hb => by simpa using (h b hb).1
  have hno : ∀ c : UInt8, 57 < c → c ∉ digits := fun c hc hmem => by have := hdigits c hmem; grind
  have hnone : ∀ c : UInt8, c = 91 ∨ c = 93 → c ∉ name ++ 58 :: digits := fun c hc hmem => by
    rcases List.mem_append.mp hmem with hmem | hmem
    · have := h c hmem
      grind
    · rcases List.mem_cons.mp hmem with rfl | hmem
      · revert hc
        decide
      · exact hno c (by grind) hmem
  unfold splitHostPort
  split
  · next rest heq => exact absurd (heq ▸ List.mem_cons_self) (hnone 91 (.inl rfl))
  · rw [List.dropWhile_append_of_pos hall, List.takeWhile_append_of_pos hall]
    simp [hno 58 (by decide), hnone 91 (.inl rfl), hnone 93 (.inr rfl)]

theorem mem_undotted {name : Bytes} {b : UInt8} (h : b ∈ name) : b ∈ undotted name ∨ b = 46 := by
  unfold undotted
  split
  · next hlast =>
    rw [← List.dropLast_append_getLast? 46 hlast, List.mem_append, List.mem_singleton] at h
    exact h
  · exact .inl h

theorem mem_of_undotted {name : Bytes} {b : UInt8} (h : b ∈ undotted name) : b ∈ name := by
  unfold undotted at h
  split at h
  · exact List.mem_of_mem_dropLast h
  · exact h

/-- The host without its port, in lower case. -/
theorem requestHost_eq (v : Platform) {r : Request} {name port : Bytes} (hhost : r.host = name ++ port)
    (hport : IsPort port) (hbytes : ∀ b ∈ name.map asciiLower, b ≠ 58 ∧ b ≠ 91 ∧ b ≠ 93 ∧ b < 128) :
    requestHost v r = name.map asciiLower := by
  have hsplit : ∀ b ∈ name.map asciiLower, b ≠ 58 ∧ b ≠ 91 ∧ b ≠ 93 := fun b hb =>
    ⟨(hbytes b hb).1, (hbytes b hb).2.1, (hbytes b hb).2.2.1⟩
  have hascii : ∀ b ∈ name, b < 128 := fun b hb => lt_of_asciiLower (hbytes _ (List.mem_map_of_mem hb)).2.2.2
  rw [requestHost, hhost]
  rcases hport with rfl | ⟨digits, hdigits, rfl⟩
  · rw [List.append_nil, v.toLower_text name hascii]
    simp [splitHostPort_name hsplit]
  · have hlower : v.toLower (name ++ 58 :: digits) = name.map asciiLower ++ 58 :: digits := by
      rw [v.toLower_text, List.map_append, List.map_cons]
      · refine congrArg _ (congrArg _ ?_)
        conv_rhs => rw [← List.map_id digits]
        exact List.map_congr_left fun b hb => asciiLower_digit (by have := hdigits b hb; grind)
      · intro b hb
        rcases List.mem_append.mp hb with hb | hb
        · exact hascii b hb
        · rcases List.mem_cons.mp hb with rfl | hb
          · decide
          · have := hdigits b hb
            grind
    rw [hlower]
    simp [splitHostPort_port hsplit hdigits]

/-- Of a host that means a domain, the table is asked what it spells. -/
theorem Means.spells_iff (v : Platform) {r : Request} {d d' : String} (hd : CDNService.validateDomain d = .ok ())
    (hd' : CDNService.validateDomain d' = .ok ()) (h : Means r.host d) :
    Spells r.host d' ↔ v.toLower (bytes d') = requestHost v r := by
  constructor
  · rintro ⟨name, port, hhost, hname, hport⟩
    rw [toLower_domain v hd', ← hname]
    refine (requestHost_eq v hhost hport fun b hb => ?_).symm
    have := lower_domain_bytes hd' (hname ▸ hb)
    grind
  · intro hlower
    obtain ⟨name, port, hhost, hname, hport⟩ := h
    refine ⟨name, port, hhost, ?_, hport⟩
    rw [← toLower_domain v hd', hlower]
    refine (requestHost_eq v hhost hport fun b hb => ?_).symm
    rcases mem_undotted hb with hb | rfl
    · have := lower_domain_bytes hd (mem_of_undotted (hname ▸ hb))
      grind
    · decide

/-! ## The table of hosts -/

/-- The runtimes are those of the configured sites, and the table has their domains, each with the
place of a site that lists it. -/
structure ProxyService.Routes (lib : ProxyLib) (config : List CDNService.SiteWithOrigins)
    (p : ProxyService) : Prop where
  runtimes : p.runtimes.map (·.site) = config.map (·.site)
  row : ∀ row ∈ p.sites, ∃ swo, config[row.2]? = some swo ∧ ∃ d ∈ swo.site.domains, row.1 = lib.toLower (bytes d)
  found : ∀ swo ∈ config, ∀ d ∈ swo.site.domains, ∃ row ∈ p.sites, row.1 = lib.toLower (bytes d)
  last : ∀ row ∈ p.sites, ∀ j swo, config[j]? = some swo → row.2 < j → ∀ d ∈ swo.site.domains,
    lib.toLower (bytes d) ≠ row.1

theorem mem_putDomains {lib : ProxyLib} {i : Nat} {domains : List String}
    {sites : Table (Prod.fst : Bytes × Nat → Bytes)}
    {row : Bytes × Nat} (h : row ∈ domains.foldl (fun sites d => sites.put (lib.toLower (bytes d), i)) sites) :
    (row ∈ sites ∧ ∀ d ∈ domains, lib.toLower (bytes d) ≠ row.1) ∨ ∃ d ∈ domains, row = (lib.toLower (bytes d), i) := by
  induction domains generalizing sites with
  | nil => exact .inl ⟨h, fun d hd => absurd hd List.not_mem_nil⟩
  | cons d domains ih =>
    rcases ih h with ⟨hrow, hothers⟩ | ⟨d', hd', rfl⟩
    · rcases Table.mem_put.mp hrow with ⟨hrow, hne⟩ | rfl
      · exact .inl ⟨hrow, List.forall_mem_cons.mpr ⟨hne.symm, hothers⟩⟩
      · exact .inr ⟨d, List.mem_cons_self, rfl⟩
    · exact .inr ⟨d', List.mem_cons_of_mem _ hd', rfl⟩

theorem exists_mem_putDomains {lib : ProxyLib} {i : Nat} {domains : List String}
    {sites : Table (Prod.fst : Bytes × Nat → Bytes)} {host : Bytes}
    (h : (∃ row ∈ sites, row.1 = host) ∨ ∃ d ∈ domains, host = lib.toLower (bytes d)) :
    ∃ row ∈ domains.foldl (fun sites d => sites.put (lib.toLower (bytes d), i)) sites, row.1 = host := by
  induction domains generalizing sites with
  | nil => exact h.resolve_right (by simp)
  | cons d domains ih =>
    refine ih ?_
    rcases h with h | ⟨d', hd', rfl⟩
    · exact .inl (Table.exists_mem_put.mpr (.inl h))
    · rcases List.mem_cons.mp hd' with rfl | hd'
      · exact .inl (Table.exists_mem_put.mpr (.inr rfl))
      · exact .inr ⟨d', hd', rfl⟩

section
variable {lib : ProxyLib} {config : List CDNService.SiteWithOrigins} {p : ProxyService} {choice : ReconcileChoice}
  {n n' : Node}

theorem ProxyService.Routes.addSite {dirs : ID → Dir} {now : ℚ} {swo : CDNService.SiteWithOrigins}
    (h : p.Routes lib config) : (CdnServer.addSite lib choice dirs now p swo).Routes lib (config ++ [swo]) := by
  have hlength : p.runtimes.length = config.length := by simpa using congrArg List.length h.runtimes
  refine ⟨?_, fun row hrow => ?_, fun other hother d hd => exists_mem_putDomains ?_,
    fun row hrow j other hother hj => ?_⟩
  · simp [CdnServer.addSite, h.runtimes, newSiteRuntime]
  · rcases mem_putDomains hrow with ⟨hrow, -⟩ | ⟨d, hd, rfl⟩
    · obtain ⟨other, hother, hlists⟩ := h.row row hrow
      obtain ⟨hlt, -⟩ := List.getElem?_eq_some_iff.mp hother
      exact ⟨other, by rw [List.getElem?_append_left hlt, hother], hlists⟩
    · exact ⟨swo, by rw [hlength]; exact List.getElem?_concat_length, d, hd, rfl⟩
  · rcases List.mem_append.mp hother with hother | hother
    · exact .inl (h.found other hother d hd)
    · obtain rfl := List.mem_singleton.mp hother
      exact .inr ⟨d, hd, rfl⟩
  · rw [List.getElem?_append] at hother
    split at hother
    · next hlt =>
      rcases mem_putDomains hrow with ⟨hrow, -⟩ | ⟨d, -, rfl⟩
      · exact h.last row hrow j other hother hj
      · exact absurd (hj.trans hlt) (by simp [hlength])
    · obtain rfl := List.mem_singleton.mp (List.mem_of_getElem? hother)
      rcases mem_putDomains hrow with ⟨-, hothers⟩ | ⟨d, -, rfl⟩
      · exact hothers
      · obtain ⟨hlt, -⟩ := List.getElem?_eq_some_iff.mp hother
        simp only [List.length_singleton, hlength] at hlt hj
        omega

theorem Node.reconcile_routes (h : n.reconcile lib config choice = .ok n') : n'.proxy.Routes lib config := by
  have hloop : ∀ (rest before : List CDNService.SiteWithOrigins) (p : ProxyService), p.Routes lib before →
      (rest.foldl (addSite lib choice n.dirs n.now) p).Routes lib (before ++ rest) := by
    intro rest
    induction rest with
    | nil =>
      intro before p hp
      rwa [List.append_nil]
    | cons swo rest ih =>
      intro before p hp
      rw [List.foldl_cons, List.append_cons]
      exact ih (before ++ [swo]) _ hp.addSite
  unfold Node.reconcile at h
  split at h
  · cases h
    exact hloop config [] _ ⟨rfl, fun row hrow => absurd hrow Table.not_mem_empty,
      fun swo hswo => absurd hswo List.not_mem_nil, fun row hrow => absurd hrow Table.not_mem_empty⟩
  · cases h

theorem ProxyService.Routes.route_iff {r : Request} {site : CDNSite} (h : n.proxy.Routes lib config) :
    n.route lib r = some site ↔ ∃ (i : Nat) (swo : CDNService.SiteWithOrigins), config[i]? = some swo ∧
      swo.site = site ∧ (∃ d ∈ swo.site.domains, lib.toLower (bytes d) = requestHost lib.toPlatform r) ∧
      ∀ (j : Nat) (other : CDNService.SiteWithOrigins), config[j]? = some other → i < j → ∀ d ∈ other.site.domains,
        lib.toLower (bytes d) ≠ requestHost lib.toPlatform r := by
  have hsite : ∀ i : Nat, n.proxy.runtimes[i]?.map (·.site) = config[i]?.map (·.site) := fun i => by
    rw [← List.getElem?_map, ← List.getElem?_map, h.runtimes]
  unfold Node.route
  constructor
  · intro hroute
    obtain ⟨row, hfind, hruntime⟩ := Option.bind_eq_some_iff.mp hroute
    obtain ⟨hrow, hhost⟩ := Table.find_eq_some.mp hfind
    obtain ⟨swo, hswo, d, hd, hlists⟩ := h.row row hrow
    rw [hsite, hswo, Option.map_some, Option.some.injEq] at hruntime
    refine ⟨row.2, swo, hswo, hruntime, ⟨d, hd, hlists.symm.trans hhost⟩, ?_⟩
    rw [← hhost]
    exact h.last row hrow
  · rintro ⟨i, swo, hswo, rfl, ⟨d, hd, hlists⟩, hlast⟩
    obtain ⟨row, hrow, hkey⟩ := h.found swo (List.mem_of_getElem? hswo) d hd
    obtain ⟨other, hother, d', hd', hlists'⟩ := h.row row hrow
    have hfind := Table.find_eq_some.mpr ⟨hrow, hkey.trans hlists⟩
    -- the row is of the last site that lists the host
    obtain rfl : i = row.2 := by
      refine le_antisymm (not_lt.mp fun hlt => ?_) (not_lt.mp fun hlt => ?_)
      · exact h.last row hrow i swo hswo hlt d hd hkey.symm
      · exact hlast row.2 other hother hlt d' hd' (hlists'.symm.trans (hkey.trans hlists))
    rw [hfind, Option.bind_some, hsite, hswo, Option.map_some]

theorem Node.route_handles {r : Request} {site : CDNSite} (h : n.route lib r = some site) : n.Handles lib r site := by
  obtain ⟨row, hfind, hfound⟩ := Option.bind_eq_some_iff.mp h
  obtain ⟨runtime, hruntime, rfl⟩ := Option.map_eq_some_iff.mp hfound
  have hstate : n.site row.2 = some { runtime, dir := n.dirs runtime.site.id } := by rw [Node.site, hruntime]; rfl
  refine ⟨row.2, _, hstate, rfl, fun x => ?_⟩
  rw [Node.serveHTTP, hfind]
  simp only [hstate, Option.bind_eq_bind, Option.bind_some]
  cases SiteState.serve lib r x n.now { runtime, dir := n.dirs runtime.site.id } <;> rfl

end

/-! ## Runs -/

section
variable {lib : ProxyLib} {s s' : NodeRun} {m : NodeMove} {config : List CDNService.SiteWithOrigins}

theorem SiteState.Serves.site {r : Request} {x : Exchange} {now : ℚ} {s s' : SiteState} {outcome : Outcome}
    (h : s.Serves lib r x now outcome s') : s'.runtime.site = s.runtime.site := by
  rw [h.recached.1, SiteState.allow_runtime]

theorem map_site_set {runtimes : List SiteRuntime} {i : Nat} {sr sr' : SiteRuntime} (h : runtimes[i]? = some sr)
    (hsite : sr'.site = sr.site) : (runtimes.set i sr').map (·.site) = runtimes.map (·.site) := by
  refine List.ext_getElem? fun j => ?_
  rw [List.getElem?_map, List.getElem?_map, List.getElem?_set]
  split
  · next hij =>
    obtain ⟨hlt, -⟩ := List.getElem?_eq_some_iff.mp h
    rw [if_pos (hij ▸ hlt), ← hij, h, Option.map_some, Option.map_some, hsite]
  · rfl

theorem NodeRun.Steps.sites (h : s.Steps lib m s') (hm : ∀ config choice, m ≠ .reconcile config choice) :
    s'.node.proxy.runtimes.map (·.site) = s.node.proxy.runtimes.map (·.site) := by
  cases h with
  | request hserve =>
    rcases Node.serveHTTP_inv hserve with ⟨-, -, rfl⟩ | ⟨i, st, st', -, hst, hserves, rfl⟩
    · rfl
    · exact map_site_set (Node.site_eq hst).1 hserves.site
  | probe hprobe =>
    obtain ⟨sr, hc, oh, hsr, -, -, rfl⟩ := Node.probe_inv hprobe
    exact map_site_set hsr rfl
  | advance => rfl
  | purge hpurge =>
    rcases Node.purgeCache_ok hpurge with rfl | ⟨i, st, b, hst, -, rfl⟩
    · rfl
    · exact map_site_set (Node.site_eq hst).1 rfl
  | @reconcile config choice => exact absurd rfl (hm config choice)
  | refused => rfl

theorem NodeRun.Steps.routes (h : s.Steps lib m s') (hm : ∀ config choice, m ≠ .reconcile config choice)
    (hs : s.node.proxy.Routes lib config) : s'.node.proxy.Routes lib config := by
  refine ⟨(h.sites hm).trans hs.runtimes, ?_, ?_, ?_⟩
  · rw [h.proxy.2 hm]
    exact hs.row
  · rw [h.proxy.2 hm]
    exact hs.found
  · rw [h.proxy.2 hm]
    exact hs.last

end

/-- After `Reconcile` and until the next one, a request whose host means a domain of an accepted site is handled by that
site precisely if it is the last one that lists the host as it is spelled; and a node is told no sites of two tenants
that list one domain precisely if none are stored for it. -/
theorem hosts_routed (lib : ProxyLib) (config : List CDNService.SiteWithOrigins)
    (haccepted : ∀ swo ∈ config, ∃ site, CDNService.Accepted site ∧ swo.site.domains.Perm site.domains)
    (choice : ReconcileChoice) (start n : Node) (hreconcile : start.reconcile lib config choice = .ok n)
    (moves : List NodeMove) (hmoves : ∀ m ∈ moves, ∀ config choice, m ≠ .reconcile config choice) (s : NodeRun)
    (hrun : Machine.run (NodeRun.step lib) moves { node := n, log := [] } = some s) :
    (∀ swo ∈ config, ∀ d ∈ swo.site.domains, ∀ r : Request, Means r.host d →
      (s.node.route lib r = some swo.site ∧ s.node.Handles lib r swo.site ↔ LastLists config swo.site r.host)) ∧
    ∀ v w w' node, node ∈ w.store.nodes → CDNService.Fits w.store node.id →
      (CDNService.getNodeCDNConfig node.id).1.exec v w = (.ok config, w') →
      ((∀ a ∈ config, ∀ b ∈ config, a.site.tenantID ≠ b.site.tenantID → ∀ d ∈ a.site.domains, ∀ d' ∈ b.site.domains,
        lib.toLower (bytes d) ≠ lib.toLower (bytes d')) ↔
        ¬ CDNService.Contested (fun d => lib.toLower (bytes d)) w.store node.id) := by
  have hmoves : Machine.Along (NodeRun.step lib) (fun m _ => ∀ config choice, m ≠ .reconcile config choice) moves
      { node := n, log := [] } := .of_mem hmoves
  have hroutes : s.node.proxy.Routes lib config :=
    Machine.run_invariant (I := fun s => s.node.proxy.Routes lib config)
      (fun m s s' hs hm hstep => (NodeRun.step_inv hstep).routes hm hs) (Node.reconcile_routes hreconcile) hmoves hrun
  have hvalid : ∀ swo ∈ config, ∀ d ∈ swo.site.domains, CDNService.validateDomain d = .ok () := by
    intro swo hswo d hd
    obtain ⟨site, hsite, hdomains⟩ := haccepted swo hswo
    exact hsite.domain (hdomains.mem_iff.mp hd)
  refine ⟨fun swo hswo d hd r hmeans => ?_, fun v w w' node hnode hfits hconfig =>
    CDNService.contested_iff hnode hfits hconfig⟩
  have hspells : ∀ other ∈ config, ∀ d' ∈ other.site.domains,
      (Spells r.host d' ↔ lib.toLower (bytes d') = requestHost lib.toPlatform r) := fun other hother d' hd' =>
    hmeans.spells_iff lib.toPlatform (hvalid swo hswo d hd) (hvalid other hother d' hd')
  rw [and_iff_left_of_imp Node.route_handles, hroutes.route_iff, LastLists]
  refine exists_congr fun i => exists_congr fun other => and_congr_right fun hother => and_congr_right fun _ =>
    and_congr (exists_congr fun d' => and_congr_right fun hd' => ?_) ?_
  · exact (hspells other (List.mem_of_getElem? hother) d' hd').symm
  · refine forall_congr' fun j => forall_congr' fun later => imp_congr_right fun hlater => imp_congr_right fun _ =>
      forall_congr' fun d' => imp_congr_right fun hd' => not_congr ?_
    exact (hspells later (List.mem_of_getElem? hlater) d' hd').symm

namespace Sample

def hosted (host : String) : Request := { request "/" "" with host := bytes host }

def shared : Store :=
  { EdgeFabric.Sample.served with
    nodeGroups := ⟨EdgeFabric.Sample.served.nodeGroups.rows ++ [EdgeFabric.Sample.group 26 101 "h"], by decide⟩
    memberships := ⟨[(25, 20), (26, 20)], by decide⟩ }

def rival : CDNService.CreateSiteRequest :=
  { tenantID := 101, name := "www", domains := ["www.example.org"], tlsMode := "auto", nodeGroupID := some 26 }

theorem site_accepted : CDNService.Accepted site := ⟨true, Env.calm, { tick := 0, store := shared }, _, rfl⟩

theorem hosted_spells : Spells (hosted "WWW.example.org:8443").host "www.example.org" :=
  ⟨bytes "WWW.example.org", bytes ":8443", by decide, by decide,
    .inr ⟨bytes "8443", by decide +kernel, by decide⟩⟩

def contested : World := ((CDNService.createSite rival).1.exec Env.calm { tick := 0, store := shared }).2

end Sample

theorem hosts_routed_port :
    (Sample.configured "" (fun _ => ∅) Sample.caching).Handles .plain (Sample.hosted "WWW.example.org:8443")
      Sample.site := by
  obtain ⟨name, port, hhost, hname, hport⟩ := Sample.hosted_spells
  have hlast : LastLists Sample.caching Sample.site (Sample.hosted "WWW.example.org:8443").host := by
    refine ⟨0, _, rfl, rfl, ⟨"www.example.org", List.mem_cons_self, Sample.hosted_spells⟩, fun j other hother hj => ?_⟩
    have : j < 1 := (List.getElem?_eq_some_iff.mp hother).1
    omega
  exact (((hosts_routed .plain Sample.caching
    (fun swo hswo => ⟨Sample.site, Sample.site_accepted, by rw [List.mem_singleton.mp hswo]⟩) Sample.reconcileChoice _ _
    (Sample.reconcile_configured "" (fun _ => ∅) Sample.caching) [] (by simp) _ rfl).1 _ List.mem_cons_self
      "www.example.org"
    List.mem_cons_self _ ⟨name, port, hhost, congrArg undotted hname, hport⟩).mpr hlast).2

/-- The domain with a dot at its end is not found; and once the second tenant has created its site, the
node is told sites of two tenants with one domain. -/
theorem host_misrouted :
    CDNService.Accepted Sample.site ∧ Sample.site.domains = ["www.example.org"] ∧
      ((Sample.configured "" (fun _ => ∅) Sample.caching).serveHTTP .plain (Sample.hosted "www.example.org.")
        (Sample.answering (Sample.page 1))).map (·.2.1) = some .noSite ∧
      (((CDNService.getNodeCDNConfig 20).1.exec Env.calm Sample.contested).1.toOption.map
        fun config => config.map fun swo => (swo.site.tenantID, swo.site.domains)) =
          some [(100, ["www.example.org"]), (101, ["www.example.org"])] := by
  refine ⟨Sample.site_accepted, rfl, by decide, by decide⟩

end EdgeFabric.CdnServer
