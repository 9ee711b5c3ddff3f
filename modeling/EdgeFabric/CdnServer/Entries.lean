/-
What a node's caches hold. `Node.Holds leads P` says that every entry in the caches of a
site, in memory and in its directory, satisfies the site's `P`; requests, purges and
reconciliations keep it, if `P` is kept by moves between memory and disk and is true of
what a request stores.

With it, hits are traced back: an entry is a copy of a response that the site has stored
in a part of the log (`StemsFrom`), and `Steps.stems` says what becomes of that part in
one move of the node.
-/
import EdgeFabric.CdnServer.Proxy

namespace EdgeFabric.CdnServer
open Text (bytes)

/-! ## Entries of a site -/

/-- Every entry that can be read from the directory satisfies `P`. -/
def FilesHold (leads : Bytes → Bytes → Prop) (P : CacheEntry → Prop) (dir : Dir) : Prop :=
  ∀ f ∈ dir, ∀ key body m, leads f.hash key → f.body = some body → f.metadata = some m → P (m.entry key body)

/-- Every entry of the cache satisfies `P`. -/
def Backend.Holds (v : Platform) (leads : Bytes → Bytes → Prop) (P : CacheEntry → Prop) (dir : Dir) : Backend → Prop
  | .memory c => c.Holds P
  | .hybrid m d => (∀ key, leads (v.sha256 key) key) ∧ Hybrid.Holds leads P { memory := m, disk := { cache := d, dir } }

/-- Every entry of the site, in its cache and in its directory, satisfies `P`. -/
structure SiteState.Holds (v : Platform) (leads : Bytes → Bytes → Prop) (P : CacheEntry → Prop)
    (s : SiteState) : Prop where
  cached : ∀ b ∈ s.runtime.cache, b.Holds v leads P s.dir
  files : FilesHold leads P s.dir

structure Node.Holds (v : Platform) (leads : Bytes → Bytes → Prop) (P : ID → CacheEntry → Prop) (n : Node) : Prop where
  cached : ∀ sr ∈ n.proxy.runtimes, ∀ b ∈ sr.cache, b.Holds v leads (P sr.site.id) (n.dirs sr.site.id)
  files : ∀ id, FilesHold leads (P id) (n.dirs id)

section
variable {v : Platform} {leads : Bytes → Bytes → Prop} {P Q : CacheEntry → Prop} {b b' : Backend} {dir dir' : Dir}
  {choices : List DiskChoice} {key : Bytes} {now : Time}

theorem FilesHold.mono (h : FilesHold leads P dir) (hPQ : ∀ e, P e → Q e) : FilesHold leads Q dir :=
  fun f hf key body m hleads hbody hm => hPQ _ (h f hf key body m hleads hbody hm)

theorem Backend.Holds.mono (h : b.Holds v leads P dir) (hPQ : ∀ e, P e → Q e) : b.Holds v leads Q dir := by
  cases b with
  | memory c => exact Cache.Holds.mono h hPQ
  | hybrid m d => exact ⟨h.1, h.2.mono hPQ⟩

theorem Backend.Holds.redirect (h : b.Holds v leads P dir) (hfiles : FilesHold leads P dir') :
    b.Holds v leads P dir' := by
  cases b with
  | memory c => exact h
  | hybrid m d => exact ⟨h.1, h.2.memory, h.2.disk.index, hfiles⟩

theorem Backend.Holds.get {entry : Option CacheEntry} (h : b.Holds v leads P dir) (hfiles : FilesHold leads P dir)
    (hmovable : Movable v leads P) (hget : b.get v choices key now dir = some (entry, b', dir')) :
    b'.Holds v leads P dir' ∧ FilesHold leads P dir' ∧ ∀ e ∈ entry, e.Found P key now := by
  cases b with
  | memory c =>
    cases hget
    obtain ⟨hmemory, hfound⟩ := Cache.Holds.get h key now
    exact ⟨hmemory, hfiles, hfound⟩
  | hybrid m d =>
    obtain ⟨⟨e, hyb⟩, hrun, heq⟩ := Option.map_eq_some_iff.mp hget
    cases heq
    obtain ⟨hnames, hholds⟩ := h
    obtain ⟨hall, hfound⟩ := hholds.get hnames hmovable hrun
    exact ⟨⟨hnames, hall⟩, hall.disk.files, hfound⟩

theorem Backend.Holds.put {r : Response} {ttl : Int} (h : b.Holds v leads P dir) (hfiles : FilesHold leads P dir)
    (hmovable : Movable v leads P) (hnew : cacheable v r = true → P { r with key, storedAt := now, ttl })
    (hput : b.put v choices key r now ttl dir = some (b', dir')) :
    b'.Holds v leads P dir' ∧ FilesHold leads P dir' := by
  cases b with
  | memory c =>
    obtain ⟨⟨c', evicted⟩, hrun, heq⟩ := Option.map_eq_some_iff.mp hput
    cases heq
    exact ⟨Cache.Holds.put h hnew hrun, hfiles⟩
  | hybrid m d =>
    obtain ⟨hyb, hrun, heq⟩ := Option.map_eq_some_iff.mp hput
    cases heq
    obtain ⟨hnames, hholds⟩ := h
    have hall := hholds.put hnames hmovable hnew hrun
    exact ⟨⟨hnames, hall⟩, hall.disk.files⟩

theorem Backend.Holds.purge (h : b.Holds v leads P dir) (hfiles : FilesHold leads P dir) :
    (b.purge dir).1.Holds v leads P (b.purge dir).2 ∧ FilesHold leads P (b.purge dir).2 := by
  cases b with
  | memory c => exact ⟨⟨[], .purge, fun e he => absurd he List.not_mem_nil⟩, hfiles⟩
  | hybrid m d =>
    have hrest : FilesHold leads P (Disk.purge { cache := d, dir }).dir := fun f hf =>
      hfiles f (Table.mem_filter.mp hf).1
    exact ⟨⟨h.1, ⟨[], .purge, fun e he => absurd he List.not_mem_nil⟩,
      fun ie hie => absurd hie Table.not_mem_empty, hrest⟩, hrest⟩

end

section
variable {lib : ProxyLib} {leads : Bytes → Bytes → Prop} {P : CacheEntry → Prop} {r : Request} {x : Exchange} {now : ℚ}
  {s s' : SiteState} {outcome : Outcome}

theorem SiteState.Holds.lookup {entry : Option CacheEntry} (h : s.Holds lib.toPlatform leads P)
    (hmovable : Movable lib.toPlatform leads P) (hlookup : s.lookup lib r x now = some (entry, s')) :
    s'.Holds lib.toPlatform leads P ∧ ∀ e ∈ entry, e.Found P (requestKey lib.toPlatform r) (nanoseconds now) := by
  have hmiss : s.Holds lib.toPlatform leads P ∧
      ∀ e ∈ (none : Option CacheEntry), e.Found P (requestKey lib.toPlatform r) (nanoseconds now) :=
    ⟨h, fun e he => by cases he⟩
  unfold SiteState.lookup at hlookup
  split at hlookup
  · next b hb =>
    split at hlookup
    · obtain ⟨⟨e, b', dir'⟩, hget, heq⟩ := Option.map_eq_some_iff.mp hlookup
      cases heq
      obtain ⟨hcached, hfiles, hfound⟩ := (h.cached b hb).get h.files hmovable hget
      exact ⟨⟨fun b₁ hb₁ => by cases hb₁; exact hcached, hfiles⟩, hfound⟩
    · cases hlookup
      exact hmiss
  · cases hlookup
    exact hmiss

theorem SiteState.Holds.maybeCacheResponse {resp : Response} {stored : Option Response}
    (h : s.Holds lib.toPlatform leads P) (hmovable : Movable lib.toPlatform leads P)
    (hcache : s.maybeCacheResponse lib r resp x now = some (stored, s'))
    (hnew : stored = some resp → P { resp with
      key := requestKey lib.toPlatform r, storedAt := nanoseconds now, ttl := ttl s.runtime.site }) :
    s'.Holds lib.toPlatform leads P := by
  unfold SiteState.maybeCacheResponse at hcache
  split at hcache
  · next b hb =>
    split at hcache
    · obtain ⟨⟨b', dir'⟩, hput, heq⟩ := Option.map_eq_some_iff.mp hcache
      cases heq
      obtain ⟨hcached, hfiles⟩ := (h.cached b hb).put h.files hmovable (fun hok => hnew (if_pos hok)) hput
      exact ⟨fun b₁ hb₁ => by cases hb₁; exact hcached, hfiles⟩
    · cases hcache
      exact h
  · cases hcache
    exact h

theorem SiteState.stored_eq {resp resp' : Response}
    (hcache : s.maybeCacheResponse lib r resp x now = some (some resp', s')) :
    resp' = resp ∧ cacheable lib.toPlatform resp = true ∧ r.method = methodGet := by
  unfold SiteState.maybeCacheResponse at hcache
  split at hcache
  · split at hcache
    · next hget =>
      obtain ⟨⟨b', dir'⟩, -, heq⟩ := Option.map_eq_some_iff.mp hcache
      obtain ⟨hstored, -⟩ := Prod.mk.inj heq
      split at hstored
      · next hok =>
        cases hstored
        exact ⟨rfl, hok, hget.1⟩
      · cases hstored
    · cases hcache
  · cases hcache

theorem SiteState.Holds.serve (h : s.Holds lib.toPlatform leads P) (hmovable : Movable lib.toPlatform leads P)
    (hserves : s.Serves lib r x now outcome s')
    (hnew : ∀ origin answer reply resp, outcome = .proxied origin answer reply (some resp) →
      P { resp with key := requestKey lib.toPlatform r, storedAt := nanoseconds now, ttl := ttl s.runtime.site }) :
    s'.Holds lib.toPlatform leads P ∧
      ∀ e, outcome = .hit e → e.Found P (requestKey lib.toPlatform r) (nanoseconds now) := by
  have hallow : (s.allow now).2.Holds lib.toPlatform leads P := by
    have hdir : (s.allow now).2.dir = s.dir := by
      unfold SiteState.allow
      split <;> rfl
    refine ⟨fun b hb => ?_, by rw [hdir]; exact h.files⟩
    rw [SiteState.allow_runtime] at hb
    rw [hdir]
    exact h.cached b hb
  cases hserves with
  | limited hlimit => exact ⟨hallow, fun e he => by cases he⟩
  | blocked hlimit => exact ⟨hallow, fun e he => by cases he⟩
  | answered hlimit hanswer =>
    cases hanswer with
    | hit hlookup =>
      obtain ⟨hs', hfound⟩ := hallow.lookup hmovable hlookup
      exact ⟨hs', fun e he => by cases he; exact hfound _ rfl⟩
    | noOrigin hlookup => exact ⟨(hallow.lookup hmovable hlookup).1, fun e he => by cases he⟩
    | unavailable hlookup => exact ⟨(hallow.lookup hmovable hlookup).1, fun e he => by cases he⟩
    | aborted hlookup => exact ⟨(hallow.lookup hmovable hlookup).1, fun e he => by cases he⟩
    | @proxied origin answer resp stored s₁ s' hlookup hfetch hresp hcache =>
      have hmiss := (hallow.lookup hmovable hlookup).1
      have hsite : s₁.runtime.site = s.runtime.site := by
        have hcached := SiteState.lookup_recached hlookup
        rw [SiteState.allow_runtime] at hcached
        rw [hcached]
      refine ⟨hmiss.maybeCacheResponse hmovable hcache fun hstored => ?_, fun e he => by cases he⟩
      rw [hsite]
      exact hnew _ _ _ resp (by rw [hstored])

end

/-! ## Entries of a node -/

section
variable {lib : ProxyLib} {leads : Bytes → Bytes → Prop} {P Q : ID → CacheEntry → Prop} {n n' : Node} {i : Nat}
  {s : SiteState}

theorem Node.Holds.mono (h : n.Holds lib.toPlatform leads P) (hPQ : ∀ id e, P id e → Q id e) :
    n.Holds lib.toPlatform leads Q :=
  ⟨fun sr hsr b hb => (h.cached sr hsr b hb).mono (hPQ sr.site.id), fun id => (h.files id).mono (hPQ id)⟩

theorem Node.Holds.site (h : n.Holds lib.toPlatform leads P) (hs : n.site i = some s) :
    s.Holds lib.toPlatform leads (P s.runtime.site.id) := by
  obtain ⟨hsr, hdir⟩ := Node.site_eq hs
  exact ⟨fun b hb => hdir ▸ h.cached s.runtime (List.mem_of_getElem? hsr) b hb, hdir ▸ h.files s.runtime.site.id⟩

theorem Node.Holds.setSite (h : n.Holds lib.toPlatform leads P)
    (hs : s.Holds lib.toPlatform leads (P s.runtime.site.id)) : (n.setSite i s).Holds lib.toPlatform leads P := by
  have hfiles : ∀ id, FilesHold leads (P id) ((n.setSite i s).dirs id) := fun id => by
    show FilesHold leads (P id) (Function.update n.dirs s.runtime.site.id s.dir id)
    by_cases hid : id = s.runtime.site.id
    · subst hid
      rw [Function.update_self]
      exact hs.files
    · rw [Function.update_of_ne hid]
      exact h.files id
  refine ⟨fun sr hsr b hb => ?_, hfiles⟩
  rcases List.mem_or_eq_of_mem_set hsr with hsr | rfl
  · exact (h.cached sr hsr b hb).redirect (hfiles sr.site.id)
  · exact (hs.cached b hb).redirect (hfiles s.runtime.site.id)

theorem Node.Holds.request {r : Request} {x : Exchange} {place : Option (Nat × ID)} {outcome : Outcome}
    (h : n.Holds lib.toPlatform leads P) (hmovable : ∀ id, Movable lib.toPlatform leads (P id))
    (hserve : n.serveHTTP lib r x = some (place, outcome, n'))
    (hnew : ∀ i id, place = some (i, id) → ∀ origin answer reply resp,
      outcome = .proxied origin answer reply (some resp) → ∀ ttl,
        P id { resp with key := requestKey lib.toPlatform r, storedAt := nanoseconds n.now, ttl }) :
    n'.Holds lib.toPlatform leads P ∧ ∀ i id, place = some (i, id) → ∀ e, outcome = .hit e →
      e.Found (P id) (requestKey lib.toPlatform r) (nanoseconds n.now) := by
  rcases Node.serveHTTP_inv hserve with ⟨rfl, rfl, rfl⟩ | ⟨i, s, s', rfl, hsite, hserves, rfl⟩
  · exact ⟨h, fun _ _ hi => by cases hi⟩
  · obtain ⟨hs', hfound⟩ := (h.site hsite).serve (hmovable _) hserves
      fun origin answer reply resp hout => hnew i _ rfl origin answer reply resp hout _
    have hsame : s'.runtime.site = s.runtime.site := by
      have hcached := hserves.recached.1
      rw [SiteState.allow_runtime] at hcached
      rw [hcached]
    refine ⟨h.setSite (by rw [hsame]; exact hs'), fun i' id hi e he => ?_⟩
    cases hi
    exact hfound e he

theorem Node.Holds.purgeCache {siteID : ID} (h : n.Holds lib.toPlatform leads P)
    (hpurge : n.purgeCache siteID = .ok n') : n'.Holds lib.toPlatform leads P := by
  rcases Node.purgeCache_ok hpurge with rfl | ⟨i, s, b, hsite, hb, rfl⟩
  · exact h
  · have hs := h.site hsite
    obtain ⟨hcached, hfiles⟩ := (hs.cached b hb).purge hs.files
    exact h.setSite ⟨fun b' hb' => by cases hb'; exact hcached, hfiles⟩

theorem Node.Holds.probe {j : Nat} {get : String → Option Int} {ok : Bool} (h : n.Holds lib.toPlatform leads P)
    (hprobe : n.probe i j get = some (ok, n')) : n'.Holds lib.toPlatform leads P := by
  obtain ⟨sr, hc, oh, hsr, -, -, rfl⟩ := Node.probe_inv hprobe
  refine ⟨fun sr' hsr' b hb => ?_, h.files⟩
  rcases List.mem_or_eq_of_mem_set hsr' with hsr' | rfl
  · exact h.cached sr' hsr' b hb
  · exact h.cached sr (List.mem_of_getElem? hsr) b hb

theorem Node.Holds.reconcile {config : List CDNService.SiteWithOrigins} {choice : ReconcileChoice}
    (hfiles : ∀ id, FilesHold leads (P id) (n.dirs id))
    (hnames : n.proxy.cacheConfig.dir ≠ "" → ∀ key, leads (lib.sha256 key) key)
    (hnamed : n.proxy.cacheConfig.dir ≠ "" → ∀ id, ∀ f ∈ n.dirs id, ∀ m, f.metadata = some m → leads f.hash m.key)
    (hreconcile : n.reconcile lib config choice = .ok n') : n'.Holds lib.toPlatform leads P := by
  obtain ⟨hruntimes, hdirs, -⟩ := Node.reconcile_ok hreconcile
  refine ⟨fun sr hsr b hb => ?_, by rw [hdirs]; exact hfiles⟩
  rw [hruntimes] at hsr
  obtain ⟨swo, -, rfl⟩ := List.mem_map.mp hsr
  rw [hdirs]
  have hb : newBackend n.proxy.cacheConfig choice n.dirs swo.site = some b := hb
  have hempty : ∀ {P : CacheEntry → Prop} m, (newCache m).Holds P := fun m =>
    ⟨[], .new m, fun e he => absurd he List.not_mem_nil⟩
  unfold newBackend at hb
  split at hb
  · split at hb
    · next hdisk =>
      cases hb
      refine ⟨hnames hdisk.1, hempty _, fun ie hie => ?_, hfiles swo.site.id⟩
      obtain ⟨f, hf, m, hm, rfl⟩ := Disk.mem_newDiskCache hie
      exact hnamed hdisk.1 swo.site.id f (RangeOrder.mem_order.mp hf) m hm
    · cases hb
      exact hempty _
  · cases hb

end

/-! ## What a move leaves alone -/

section
variable {lib : ProxyLib} {s s' : NodeRun} {m : NodeMove}

theorem NodeRun.Steps.proxy (h : s.Steps lib m s') : s'.node.proxy.cacheConfig = s.node.proxy.cacheConfig ∧
    ((∀ config choice, m ≠ .reconcile config choice) → s'.node.proxy.sites = s.node.proxy.sites) := by
  cases h with
  | request hserve =>
    rcases Node.serveHTTP_inv hserve with ⟨-, -, rfl⟩ | ⟨i, st, st', -, -, -, rfl⟩
    · exact ⟨rfl, fun _ => rfl⟩
    · exact ⟨rfl, fun _ => rfl⟩
  | probe hprobe =>
    obtain ⟨sr, hc, oh, -, -, -, rfl⟩ := Node.probe_inv hprobe
    exact ⟨rfl, fun _ => rfl⟩
  | advance => exact ⟨rfl, fun _ => rfl⟩
  | purge hpurge =>
    rcases Node.purgeCache_ok hpurge with rfl | ⟨i, st, b, -, -, rfl⟩
    · exact ⟨rfl, fun _ => rfl⟩
    · exact ⟨rfl, fun _ => rfl⟩
  | @reconcile config choice n hreconcile =>
    exact ⟨(Node.reconcile_ok hreconcile).2.2.2.2, fun hm => absurd rfl (hm config choice)⟩
  | refused => exact ⟨rfl, fun _ => rfl⟩

theorem NodeRun.Steps.log (h : s.Steps lib m s') : ∃ new : Option NodeEvent, s'.log = new.toList ++ s.log ∧
    (new = some .reconciled →
      ∃ config choice, m = .reconcile config choice ∧ s.node.reconcile lib config choice = .ok s'.node) := by
  cases h with
  | @request r x place outcome n hserve =>
    refine ⟨some (logged place r outcome s.node.now), rfl, fun hnew => ?_⟩
    cases place <;> cases hnew
  | @probe i j get ok n hprobe => exact ⟨some (.probed i j ok), rfl, fun hnew => by cases hnew⟩
  | advance => exact ⟨none, rfl, fun hnew => by cases hnew⟩
  | purge => exact ⟨none, rfl, fun hnew => by cases hnew⟩
  | @reconcile config choice n hreconcile =>
    exact ⟨some .reconciled, rfl, fun _ => ⟨config, choice, rfl, hreconcile⟩⟩
  | refused => exact ⟨none, rfl, fun hnew => by cases hnew⟩

theorem NodeRun.Steps.runtime (h : s.Steps lib m s') {sr' : SiteRuntime} (hsr' : sr' ∈ s'.node.proxy.runtimes) :
    (∃ sr ∈ s.node.proxy.runtimes, sr'.site = sr.site ∧ sr'.headerRules = sr.headerRules) ∨
      ∃ config choice, m = .reconcile config choice ∧ ∃ swo ∈ config,
        sr' = newSiteRuntime lib s.node.proxy.cacheConfig choice s.node.dirs s.node.now swo := by
  have hset : ∀ {i : Nat} {sr₁ sr₂ : SiteRuntime}, s.node.proxy.runtimes[i]? = some sr₁ →
      sr' ∈ s.node.proxy.runtimes.set i sr₂ → sr₂.site = sr₁.site → sr₂.headerRules = sr₁.headerRules →
      ∃ sr ∈ s.node.proxy.runtimes, sr'.site = sr.site ∧ sr'.headerRules = sr.headerRules :=
    fun {i sr₁ sr₂} hi hmem hsite hrules => by
      rcases List.mem_or_eq_of_mem_set hmem with hmem | rfl
      · exact ⟨sr', hmem, rfl, rfl⟩
      · exact ⟨sr₁, List.mem_of_getElem? hi, hsite, hrules⟩
  cases h with
  | request hserve =>
    left
    rcases Node.serveHTTP_inv hserve with ⟨-, -, rfl⟩ | ⟨i, st, st', -, hsite, hserves, rfl⟩
    · exact ⟨sr', hsr', rfl, rfl⟩
    · have hcached := hserves.recached.1
      rw [SiteState.allow_runtime] at hcached
      exact hset (Node.site_eq hsite).1 hsr' (by rw [hcached]) (by rw [hcached])
  | probe hprobe =>
    obtain ⟨sr, hc, oh, hsr, -, -, rfl⟩ := Node.probe_inv hprobe
    exact .inl (hset hsr hsr' rfl rfl)
  | advance => exact .inl ⟨sr', hsr', rfl, rfl⟩
  | purge hpurge =>
    left
    rcases Node.purgeCache_ok hpurge with rfl | ⟨i, st, b, hsite, -, rfl⟩
    · exact ⟨sr', hsr', rfl, rfl⟩
    · exact hset (Node.site_eq hsite).1 hsr' rfl rfl
  | @reconcile config choice n hreconcile =>
    rw [(Node.reconcile_ok hreconcile).1] at hsr'
    obtain ⟨swo, hswo, rfl⟩ := List.mem_map.mp hsr'
    exact .inr ⟨config, choice, rfl, swo, hswo, rfl⟩
  | refused => exact .inl ⟨sr', hsr', rfl, rfl⟩

end

/-! ## Where entries stem from -/

/-- The request was answered by an origin, and the site has stored this response. -/
def NodeEvent.Stores (siteID : ID) (answer resp : Response) (ev : NodeEvent) : Prop :=
  ∃ i r origin reply time, ev = .served i siteID r (.proxied origin answer reply (some resp)) time

/-- The entry is a copy of a response that the site has stored. -/
def StemsFrom (v : Platform) (log : List NodeEvent) (siteID : ID) (e : CacheEntry) : Prop :=
  ∃ ev ∈ log, ∃ answer resp, ev.Stores siteID answer resp ∧ resp.Copy v e.toResponse

theorem StemsFrom.mono {v : Platform} {log log' : List NodeEvent} {siteID : ID} {e : CacheEntry}
    (h : StemsFrom v log siteID e) (hlog : log ⊆ log') : StemsFrom v log' siteID e := by
  obtain ⟨ev, hev, hrest⟩ := h
  exact ⟨ev, hlog hev, hrest⟩

/-- What is said of the entries of one site; those of others may be any. -/
def Stem (v : Platform) (siteID : ID) (log : List NodeEvent) (id : ID) (e : CacheEntry) : Prop :=
  id = siteID → StemsFrom v log siteID e

theorem Stem.movable (v : Platform) (leads : Bytes → Bytes → Prop) (siteID : ID) (log : List NodeEvent) (id : ID) :
    Movable v leads (Stem v siteID log id) where
  spill := fun now e he key _ hid => by
    obtain ⟨ev, hev, answer, resp, hstores, hcopy⟩ := he hid
    exact ⟨ev, hev, answer, resp, hstores, hcopy.spilled now⟩
  promote := fun now e he => he

/-- Every hit of the site stems from the log before it, if `Q` holds of that log. -/
def HitsStem (v : Platform) (siteID : ID) (Q : List NodeEvent → Prop) (log : List NodeEvent) : Prop :=
  ∀ newer older i r e time, log = newer ++ .served i siteID r (.hit e) time :: older → Q older →
    StemsFrom v older siteID e

theorem HitsStem.nil {v : Platform} {siteID : ID} {Q : List NodeEvent → Prop} : HitsStem v siteID Q [] :=
  fun newer older i r e time h => by simp at h

theorem HitsStem.cons {v : Platform} {siteID : ID} {Q : List NodeEvent → Prop} {ev : NodeEvent} {log : List NodeEvent}
    (h : HitsStem v siteID Q log)
    (hev : ∀ i r e time, ev = .served i siteID r (.hit e) time → Q log → StemsFrom v log siteID e) :
    HitsStem v siteID Q (ev :: log) := by
  intro newer older i r e time heq hQ
  cases newer with
  | nil =>
    obtain ⟨rfl, rfl⟩ := List.cons.inj heq
    exact hev i r e time rfl hQ
  | cons ev' newer =>
    obtain ⟨-, heq⟩ := List.cons.inj heq
    exact h newer older i r e time heq hQ

section
variable {lib : ProxyLib} {leads : Bytes → Bytes → Prop} {s s' : NodeRun} {m : NodeMove} {siteID : ID}
  {seg : List NodeEvent}

theorem NodeRun.Steps.stems (hholds : s.node.Holds lib.toPlatform leads (Stem lib.toPlatform siteID seg))
    (hleads : s.node.proxy.cacheConfig.dir ≠ "" → ∀ hash key, leads hash key) (hsteps : s.Steps lib m s') :
    ∃ new : Option NodeEvent, s'.log = new.toList ++ s.log ∧
      s'.node.Holds lib.toPlatform leads (Stem lib.toPlatform siteID (new.toList ++ seg)) ∧
      ∀ i r e time, new = some (.served i siteID r (.hit e) time) → StemsFrom lib.toPlatform seg siteID e := by
  have hmore : ∀ ev id e, Stem lib.toPlatform siteID seg id e → Stem lib.toPlatform siteID (ev :: seg) id e :=
    fun ev id e he hid => (he hid).mono (List.subset_cons_self _ _)
  cases hsteps with
  | @request r x place outcome n hserve =>
    obtain ⟨hnode, hfound⟩ := (hholds.mono (hmore (logged place r outcome s.node.now))).request
      (fun id => Stem.movable _ _ _ _ id) hserve fun i id hplace origin answer reply resp hout ttl hid => by
        refine ⟨logged place r outcome s.node.now, List.mem_cons_self, answer, resp, ?_, .refl resp⟩
        exact ⟨i, r, origin, reply, s.node.now, by rw [hplace, hout, hid]; rfl⟩
    refine ⟨some (logged place r outcome s.node.now), rfl, hnode, fun i r' e time h => ?_⟩
    have hev := Option.some.inj h
    cases hplace : place with
    | none =>
      rw [hplace] at hev
      cases hev
    | some spot =>
      rw [hplace] at hev
      obtain ⟨-, hid, -, rfl, -⟩ := NodeEvent.served.inj hev
      obtain ⟨ev, hmem, answer, resp, hstores, hcopy⟩ := (hfound _ _ hplace e rfl).1 hid
      rcases List.mem_cons.mp hmem with rfl | hmem
      · -- a hit stores nothing
        obtain ⟨_, _, _, _, _, hnot⟩ := hstores
        rw [hplace] at hnot
        cases hnot
      · exact ⟨ev, hmem, answer, resp, hstores, hcopy⟩
  | @probe i j get ok n hprobe =>
    exact ⟨some (.probed i j ok), rfl, (hholds.probe hprobe).mono (hmore _), fun _ _ _ _ h => by cases h⟩
  | advance hd => exact ⟨none, rfl, ⟨hholds.cached, hholds.files⟩, fun _ _ _ _ h => by cases h⟩
  | purge hpurge => exact ⟨none, rfl, hholds.purgeCache hpurge, fun _ _ _ _ h => by cases h⟩
  | reconcile hreconcile =>
    have hnode := Node.Holds.reconcile hholds.files (fun hdisk key => hleads hdisk _ _)
      (fun hdisk _ _ _ _ _ => hleads hdisk _ _) hreconcile
    exact ⟨some .reconciled, rfl, hnode.mono (hmore _), fun _ _ _ _ h => by cases h⟩
  | refused => exact ⟨none, rfl, hholds, fun _ _ _ _ h => by cases h⟩

end

/-! ## What is stored -/

section
variable {lib : ProxyLib} {r : Request} {x : Exchange} {n n' : Node} {i : Nat} {siteID : ID} {origin : CDNOrigin}
  {answer reply resp : Response}

theorem Node.serveHTTP_stored
    (h : n.serveHTTP lib r x = some (some (i, siteID), .proxied origin answer reply (some resp), n')) :
    ∃ sr ∈ n.proxy.runtimes, sr.site.id = siteID ∧ x.fetch origin = .whole answer ∧
      resp = { answer with headers := applyHeaderRules lib sr.headerRules answer.headers } ∧
      cacheable lib.toPlatform resp = true ∧ r.method = methodGet := by
  rcases Node.serveHTTP_inv h with ⟨hplace, -, -⟩ | ⟨i', s, s', hplace, hsite, hserves, -⟩
  · cases hplace
  · cases hplace
    refine ⟨s.runtime, List.mem_of_getElem? (Node.site_eq hsite).1, rfl, ?_⟩
    cases hserves with
    | answered hlimit hanswer =>
      cases hanswer with
      | proxied hlookup hfetch hresp hcache =>
        have hrules := SiteState.lookup_recached hlookup
        rw [SiteState.allow_runtime] at hrules
        obtain ⟨rfl, hok, hget⟩ := SiteState.stored_eq hcache
        rw [hrules] at hresp
        exact ⟨hfetch, hresp, hok, hget⟩

end
end EdgeFabric.CdnServer
