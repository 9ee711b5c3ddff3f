/-
What the cache serves, against what the origin would have answered. A key has the host,
the path and the parameters of a request, so an entry is served to every request for the
same, whatever its headers: the part of a page that was sent to a request with a `Range`
is served, as status 206, to one without (`cache_alters_answers`).

If the origin answers requests for the same alike, and no path has a question mark in it,
every hit has the status and the body that the origin would have sent
(`hits_match_origin`).
-/
import EdgeFabric.CdnServer.HostRouting

namespace EdgeFabric.CdnServer
open Text (bytes)

structure Response.Alike (r r' : Response) : Prop where
  statusCode : r.statusCode = r'.statusCode
  body : r.body = r'.body

/-- Every response from the cache has the status and the body of the origin's answer to that very
request. -/
def Faithful (origin : Request → Response) (log : List NodeEvent) : Prop :=
  ∀ i siteID r e time, .served i siteID r (.hit e) time ∈ log → e.response.Alike (origin r)

/-- A whole answer of an origin to a request is this function of the request; the configuration
stays as it is. -/
def NodeMove.AnsweredBy (origin : Request → Response) : NodeMove → Prop
  | .request r x => ∀ o answer, x.fetch o = .whole answer → answer = origin r
  | .reconcile _ _ => False
  | _ => True

def requests (moves : List NodeMove) : List Request :=
  moves.filterMap fun
    | .request r _ => some r
    | _ => none

/-- The requests for the same are answered alike, and no path has a question mark in it. -/
structure Distinct (v : Platform) (origin : Request → Response) (rs : List Request) : Prop where
  alike : ∀ q ∈ rs, ∀ r ∈ rs, q.method = methodGet → r.method = methodGet → SameResource v q r →
    (origin q).Alike (origin r)
  path : ∀ r ∈ rs, r.method = methodGet → 63 ∉ r.path

/-! ## Entries and answers -/

/-- The entry is what the origin answers to each of the requests that have its key. -/
def CacheEntry.Matches (v : Platform) (origin : Request → Response) (rs : List Request) (e : CacheEntry) : Prop :=
  ∀ q ∈ rs, q.method = methodGet → 124 ∉ requestHost v q → requestKey v q = e.key → e.toResponse.Alike (origin q)

theorem CacheEntry.Matches.movable (v : Platform) (origin : Request → Response) (rs : List Request) :
    Movable v v.names (CacheEntry.Matches v origin rs) where
  spill := fun _ _ he key hkey =>
    v.names_spill (P := CacheEntry.Matches v origin rs) (fun q hq hget hbar heq =>
      have halike := he q hq hget hbar heq
      ⟨halike.statusCode, halike.body⟩) key hkey
  promote := fun _ _ he => he

section
variable {lib : ProxyLib} {r : Request} {x : Exchange} {n n' : Node} {place : Option (Nat × ID)} {outcome : Outcome}

theorem Node.serveHTTP_host {spot : Nat × ID} (h : n.serveHTTP lib r x = some (some spot, outcome, n')) :
    ∃ row ∈ n.proxy.sites, row.1 = requestHost lib.toPlatform r := by
  unfold Node.serveHTTP at h
  split at h
  · cases h
  · next host i hfind =>
    obtain ⟨hrow, hhost⟩ := Table.find_eq_some.mp hfind
    exact ⟨_, hrow, hhost⟩

theorem Node.serveHTTP_hit {e : CacheEntry} (h : n.serveHTTP lib r x = some (place, .hit e, n')) :
    r.method = methodGet := by
  rcases Node.serveHTTP_inv h with ⟨-, hout, -⟩ | ⟨i, s, s', -, -, hserves, -⟩
  · cases hout
  · cases hserves with
    | answered _ hanswer =>
      cases hanswer with
      | hit hlookup =>
        unfold SiteState.lookup at hlookup
        split at hlookup
        · split at hlookup
          · next hget => exact hget
          · cases hlookup
        · cases hlookup

theorem Node.reconcile_hosts {config : List CDNService.SiteWithOrigins} {choice : ReconcileChoice}
    (h : n.reconcile lib config choice = .ok n') :
    ∀ row ∈ n'.proxy.sites, ∃ swo ∈ config, ∃ d ∈ swo.site.domains, row.1 = lib.toLower (bytes d) := by
  intro row hrow
  obtain ⟨swo, hswo, hd⟩ := (reconcile_routes h).row row hrow
  exact ⟨swo, List.mem_of_getElem? hswo, hd⟩

end

/-! ## Runs -/

/-- The caches hold what matches the origin's answers, and hosts have no bar in them. -/
structure NodeRun.Agrees (lib : ProxyLib) (origin : Request → Response) (rs : List Request) (s : NodeRun) : Prop where
  holds : s.node.Holds lib.toPlatform lib.toPlatform.names fun _ => CacheEntry.Matches lib.toPlatform origin rs
  hosts : ∀ row ∈ s.node.proxy.sites, 124 ∉ row.1
  log : Faithful origin s.log

section
variable {lib : ProxyLib} {origin : Request → Response} {rs : List Request} {s s' : NodeRun}

theorem NodeRun.Agrees.request {r : Request} {x : Exchange} {place : Option (Nat × ID)} {outcome : Outcome} {n : Node}
    (hs : s.Agrees lib origin rs) (hdistinct : Distinct lib.toPlatform origin rs) (hr : r ∈ rs)
    (horigin : ∀ o answer, x.fetch o = .whole answer → answer = origin r)
    (hserve : s.node.serveHTTP lib r x = some (place, outcome, n)) :
    NodeRun.Agrees lib origin rs { node := n, log := logged place r outcome s.node.now :: s.log } := by
  have hbar : ∀ spot, place = some spot → 124 ∉ requestHost lib.toPlatform r := fun spot hplace => by
    rw [hplace] at hserve
    obtain ⟨row, hrow, hhost⟩ := Node.serveHTTP_host hserve
    rw [← hhost]
    exact hs.hosts row hrow
  -- what is stored matches the answers to all requests with its key
  obtain ⟨hholds, hfound⟩ := hs.holds.request (fun _ => CacheEntry.Matches.movable _ _ _) hserve
    fun i id hplace o answer reply resp hout ttl q hq hget hqbar hkey => by
      rw [hplace, hout] at hserve
      obtain ⟨sr, -, -, hfetch, hresp, -, hmethod⟩ := Node.serveHTTP_stored hserve
      have hanswer := horigin o answer hfetch
      have hsame := SameResource.of_requestKey_eq (hget.trans hmethod.symm) hqbar (hbar _ hplace)
        (hdistinct.path q hq hget) (hdistinct.path r hr hmethod) hkey
      have halike := hdistinct.alike q hq r hr hget hmethod hsame
      rw [hresp, hanswer]
      exact ⟨halike.statusCode.symm, halike.body.symm⟩
  refine ⟨hholds, ?_, fun i id r' e time hev => ?_⟩
  · have hsites := (NodeRun.Steps.request hserve).proxy.2 fun _ _ h => by cases h
    rw [hsites]
    exact hs.hosts
  · rcases List.mem_cons.mp hev with hev | hev
    · cases hplace : place with
      | none =>
        rw [hplace] at hev
        cases hev
      | some spot =>
        rw [hplace] at hev
        obtain ⟨rfl, rfl, rfl, rfl, -⟩ := NodeEvent.served.inj hev
        have hget : r'.method = methodGet := Node.serveHTTP_hit hserve
        obtain ⟨hmatches, hkey, -⟩ := hfound _ _ hplace e rfl
        have halike := hmatches r' hr hget (hbar spot hplace) hkey.symm
        exact ⟨halike.statusCode, halike.body⟩
    · exact hs.log i id r' e time hev

theorem NodeRun.Agrees.step {m : NodeMove} (hs : s.Agrees lib origin rs)
    (hdistinct : Distinct lib.toPlatform origin rs) (hm : m.AnsweredBy origin)
      (hsent : ∀ r x, m = .request r x → r ∈ rs)
    (hstep : s.step lib m = some s') : s'.Agrees lib origin rs := by
  have hsteps := NodeRun.step_inv hstep
  have hhosts : (∀ config choice, m ≠ .reconcile config choice) →
      ∀ row ∈ s'.node.proxy.sites, 124 ∉ row.1 := fun hm => by
    rw [hsteps.proxy.2 hm]
    exact hs.hosts
  cases hsteps with
  | @request r x place outcome n hserve => exact hs.request hdistinct (hsent r x rfl) hm hserve
  | probe hprobe =>
    refine ⟨hs.holds.probe hprobe, hhosts (fun _ _ h => by cases h), fun i id r e time hev => ?_⟩
    rcases List.mem_cons.mp hev with hev | hev
    · cases hev
    · exact hs.log i id r e time hev
  | advance hd => exact ⟨⟨hs.holds.cached, hs.holds.files⟩, hs.hosts, hs.log⟩
  | purge hpurge => exact ⟨hs.holds.purgeCache hpurge, hhosts (fun _ _ h => by cases h), hs.log⟩
  | reconcile => exact hm.elim
  | refused => exact hs

end

/-- In every run of a node that starts with empty caches, and whose origins answer by a function of
the request that is the same for requests for the same, every hit has the status and the body
that the origin would have sent. -/
theorem hits_match_origin (lib : ProxyLib) (start n : Node) (config : List CDNService.SiteWithOrigins)
    (choice : ReconcileChoice) (hstart : start.reconcile lib config choice = .ok n)
    (hempty : ∀ id, start.dirs id = ∅)
    (hdomains : ∀ swo ∈ config, ∀ d ∈ swo.site.domains, CDNService.validateDomain d = .ok ())
    (origin : Request → Response) (moves : List NodeMove) (s : NodeRun) (horigin : ∀ m ∈ moves, m.AnsweredBy origin)
    (hdistinct : Distinct lib.toPlatform origin (requests moves))
    (hrun : Machine.run (NodeRun.step lib) moves { node := n, log := [] } = some s) : Faithful origin s.log := by
  have hfirst : NodeRun.Agrees lib origin (requests moves) { node := n, log := [] } := by
    have hno : ∀ id f, f ∉ start.dirs id := fun id f hf => by
      rw [hempty id] at hf
      exact Table.not_mem_empty hf
    refine ⟨Node.Holds.reconcile (fun id f hf => absurd hf (hno id f)) (fun _ _ => rfl)
      (fun _ id f hf => absurd hf (hno id f)) hstart, fun row hrow => ?_, fun _ _ _ _ _ h => absurd h List.not_mem_nil⟩
    obtain ⟨swo, hswo, d, hd, hrow⟩ := Node.reconcile_hosts hstart row hrow
    rw [hrow]
    exact bar_not_mem_domain lib.toPlatform (hdomains swo hswo d hd)
  have hall : Machine.Along (NodeRun.step lib)
      (fun m _ => m.AnsweredBy origin ∧ ∀ r x, m = .request r x → r ∈ requests moves) moves { node := n, log := [] } :=
    Machine.Along.of_mem fun m hm => ⟨horigin m hm, fun r x heq =>
      List.mem_filterMap.mpr ⟨m, hm, by rw [heq]⟩⟩
  exact (Machine.run_invariant (fun m s s' hs hm hstep => NodeRun.Agrees.step hs hdistinct hm.1 hm.2 hstep) hfirst hall
    hrun).log

namespace Sample

def ranged : Request := { request "/" "" with headers := Header.set (bytes "Range") (bytes "bytes=0-0") ∅ }

def ranging (r : Request) : Response :=
  if r.headers.values (bytes "Range") = [] then { page 1 with body := [1, 2] } else { page 1 with statusCode := 206 }

def asking (origin : Request → Response) (rs : List Request) : List NodeMove :=
  rs.map fun r => .request r (answering (origin r))

theorem asking_answered {origin : Request → Response} {rs : List Request} :
    ∀ m ∈ asking origin rs, m.AnsweredBy origin := fun m hm => by
  obtain ⟨r, -, rfl⟩ := List.mem_map.mp hm
  intro o answer hanswer
  cases hanswer
  rfl

theorem caching_valid : ∀ swo ∈ caching, ∀ d ∈ swo.site.domains, CDNService.validateDomain d = .ok () :=
  fun swo hswo => by
    cases List.mem_singleton.mp hswo
    exact site_valid

def byPath (r : Request) : Response := { page 1 with body := r.path }

end Sample

/-- The parameters come in another order, and the page is served from the cache. -/
theorem hits_match_origin_params :
    ∃ s, Machine.run (NodeRun.step .plain)
        (Sample.asking Sample.byPath [Sample.request "/a" "x=1&y=2", Sample.request "/b" "",
          Sample.request "/a" "y=2&x=1"])
        { node := Sample.configured "" (fun _ => ∅) Sample.caching, log := [] } = some s ∧
      (∃ e, s.log.head? = some (.served 0 60 (Sample.request "/a" "y=2&x=1") (.hit e) 0) ∧ e.body = bytes "/a") ∧
      Faithful Sample.byPath s.log := by
  have hrun : (Sample.cachingLog (Sample.asking Sample.byPath
      [Sample.request "/a" "x=1&y=2", Sample.request "/b" "", Sample.request "/a" "y=2&x=1"])).map (·.head?) =
        some (some (.served 0 60 (Sample.request "/a" "y=2&x=1") (.hit { Sample.byPath (Sample.request "/a" "") with
          key := requestKey .plain (Sample.request "/a" "x=1&y=2"), storedAt := 0, ttl := ttl Sample.site }) 0)) := by
    decide +kernel
  obtain ⟨log, hlog, hhead⟩ := Option.map_eq_some_iff.mp hrun
  obtain ⟨s, hs, rfl⟩ := Option.map_eq_some_iff.mp hlog
  refine ⟨s, hs, ⟨_, hhead, rfl⟩, hits_match_origin .plain _ _ Sample.caching Sample.reconcileChoice
    (Sample.reconcile_configured _ _ _) (fun _ => rfl) Sample.caching_valid Sample.byPath _ s Sample.asking_answered
    ⟨fun q _ r _ _ _ h => ⟨rfl, h.path⟩, fun r hr _ => ?_⟩ hs⟩
  revert r
  decide

/-- The part of the page that a request with a range has got is served to one without. -/
theorem cache_alters_answers :
    (∀ m ∈ Sample.asking Sample.ranging [Sample.ranged, Sample.request "/" ""], m.AnsweredBy Sample.ranging) ∧
    ∃ s, Machine.run (NodeRun.step .plain) (Sample.asking Sample.ranging [Sample.ranged, Sample.request "/" ""])
        { node := Sample.configured "" (fun _ => ∅) Sample.caching, log := [] } = some s ∧
      s.log.head? = some (.served 0 60 (Sample.request "/" "") (.hit (Sample.entry (Sample.ranging Sample.ranged))) 0) ∧
      ¬ Faithful Sample.ranging s.log := by
  have hrun : (Sample.cachingLog (Sample.asking Sample.ranging [Sample.ranged, Sample.request "/" ""])).map (·.head?) =
      some (some (.served 0 60 (Sample.request "/" "") (.hit (Sample.entry (Sample.ranging Sample.ranged))) 0)) := by
    decide +kernel
  obtain ⟨log, hlog, hhead⟩ := Option.map_eq_some_iff.mp hrun
  obtain ⟨s, hs, rfl⟩ := Option.map_eq_some_iff.mp hlog
  refine ⟨Sample.asking_answered, s, hs, hhead, fun h => ?_⟩
  have halike := h 0 60 _ _ 0 (List.mem_of_head? hhead)
  exact absurd halike.statusCode (by decide)

end EdgeFabric.CdnServer
