/-
The CDN proxy of a node. `Reconcile` builds the runtimes of the configured sites anew;
`ServeHTTP` finds the runtime of the host and takes the request through rate limit, WAF,
cache and origin; `PurgeCache` empties the cache of a site. A runtime is a pointer in the
source, which several domains may share; here it is a place in `runtimes`.

What a request meets outside is in its `Exchange`: the origin's answer as it comes out of
the HTTP transport, the random number, and the choices of the disk cache. `NodeRun` takes a
node through requests, probes of origins, time, purges and reconciliations, with a log of
them, the last first.
-/
import EdgeFabric.CdnServer.CacheKey
import EdgeFabric.CdnServer.Guards
import EdgeFabric.CdnServer.HybridCache
import EdgeFabric.Lib.Machine
import Mathlib.Data.Rat.Floor

namespace EdgeFabric.CdnServer
open Text (bytes)

/-- Library functions that the proxy calls, and the WAF's verdict on a request. -/
structure ProxyLib extends Platform where
  /-- `textproto.CanonicalMIMEHeaderKey` -/
  canonicalKey : Bytes → Bytes
  headerRules : String → Option (List HeaderRule)
  /-- whether `WAF.Inspect` finds a match -/
  inspect : Request → Bool
  gzip : Bytes → Bytes
  brotli : Bytes → Bytes

/-! ## Responses -/

def xCache : Bytes := bytes "X-Cache"
def contentType : Bytes := bytes "Content-Type"
def contentLength : Bytes := bytes "Content-Length"
def contentEncoding : Bytes := bytes "Content-Encoding"
def acceptEncoding : Bytes := bytes "Accept-Encoding"

/-- `http.Error`. -/
def httpError (message : String) (statusCode : Int) : Response where
  body := bytes (message ++ "\n")
  statusCode := statusCode
  headers := (Header.set contentType (bytes "text/plain; charset=utf-8") ∅).set (bytes "X-Content-Type-Options")
    (bytes "nosniff")

def applyHeaderRule (lib : ProxyLib) (h : Header) (rule : HeaderRule) : Header :=
  let name := lib.canonicalKey (bytes rule.header)
  match rule.action with
  | "add" => h.add name (bytes rule.value)
  | "set" => h.set name (bytes rule.value)
  | "remove" => h.del name
  | _ => h

def applyHeaderRules (lib : ProxyLib) (rules : List HeaderRule) (h : Header) : Header :=
  rules.foldl (applyHeaderRule lib) h

def acceptsBrotli (r : Request) : Bool := contains (r.headers.get acceptEncoding) (bytes "br")

def acceptsGzip (r : Request) : Bool := contains (r.headers.get acceptEncoding) (bytes "gzip")

def compressible : List Bytes :=
  ["text/", "application/json", "application/javascript", "application/xml", "application/xhtml+xml",
    "image/svg+xml"].map bytes

def shouldCompress (lib : ProxyLib) (contentType : Bytes) : Bool :=
  compressible.any (contains (lib.toLower contentType))

inductive Compression where
  | gzip
  | brotli
  deriving DecidableEq

def Compression.encode (lib : ProxyLib) : Compression → Bytes → Bytes
  | .gzip => lib.gzip
  | .brotli => lib.brotli

def Compression.name : Compression → Bytes
  | .gzip => bytes "gzip"
  | .brotli => bytes "br"

/-- Which writer the response goes through, if any; brotli is preferred. -/
def compression (site : CDNSite) (r : Request) : Option Compression :=
  if site.compressionEnabled then
    if acceptsBrotli r then some .brotli else if acceptsGzip r then some .gzip else none
  else none

/-- `flush`: what the buffering writer makes of the response. -/
def Compression.flush (lib : ProxyLib) (c : Compression) (resp : Response) : Response :=
  if !shouldCompress lib (resp.headers.get contentType) || resp.body.isEmpty then resp
  else
    { resp with
      headers := (resp.headers.set contentEncoding c.name).del contentLength
      body := c.encode lib resp.body }

/-- What the client gets of a response that the reverse proxy writes. -/
def deliver (lib : ProxyLib) (site : CDNSite) (r : Request) (resp : Response) : Response :=
  let resp := { resp with headers := resp.headers.addAll (Header.set xCache (bytes "MISS") ∅) }
  match compression site r with
  | some c => c.flush lib resp
  | none => resp

def CacheEntry.response (e : CacheEntry) : Response :=
  { e.toResponse with headers := e.headers.set xCache (bytes "HIT") }

/-! ## Sites -/

/-- `CacheBackend`; the directory of a disk cache is kept by the node. -/
inductive Backend where
  | memory (c : Cache)
  | hybrid (memory : Cache) (disk : DiskCache)

namespace Backend

def get (v : Platform) (choices : List DiskChoice) (key : Bytes) (now : Time) (dir : Dir) :
    Backend → Option (Option CacheEntry × Backend × Dir)
  | .memory c => some ((c.get key now).2, .memory (c.get key now).1, dir)
  | .hybrid m d =>
    (Hybrid.get v choices key now { memory := m, disk := { cache := d, dir } }).map fun (e, h) =>
      (e, .hybrid h.memory h.disk.cache, h.disk.dir)

def put (v : Platform) (choices : List DiskChoice) (key : Bytes) (r : Response) (now : Time) (ttl : Int) (dir : Dir) :
    Backend → Option (Backend × Dir)
  | .memory c => (c.put v 1 key r now ttl).map fun (c, _) => (.memory c, dir)
  | .hybrid m d =>
    (Hybrid.put v choices key r now ttl { memory := m, disk := { cache := d, dir } }).map fun h =>
      (.hybrid h.memory h.disk.cache, h.disk.dir)

def purge (dir : Dir) : Backend → Backend × Dir
  | .memory c => (.memory c.purge, dir)
  | .hybrid m d =>
    let disk := Disk.purge { cache := d, dir }
    (.hybrid m.purge disk.cache, disk.dir)

end Backend

inductive WAFMode where
  | detect
  | block
  deriving DecidableEq

structure SiteRuntime where
  site : CDNSite
  origins : List CDNOrigin
  cache : Option Backend
  rateLimiter : Option RateLimiter
  healthChecker : Option HealthChecker
  headerRules : List HeaderRule
  waf : Option WAFMode

structure SiteState where
  runtime : SiteRuntime
  dir : Dir

/-- What comes of a round trip to an origin: nothing, a response whose body breaks off, or a whole
one. -/
inductive Fetch where
  | failed
  | cut (answer : Response)
  | whole (answer : Response)

structure Exchange where
  draw : Nat
  fetch : CDNOrigin → Fetch
  lookup : List DiskChoice
  store : List DiskChoice

inductive Outcome where
  | noSite
  | limited
  | blocked
  | hit (e : CacheEntry)
  | noOrigin
  | unavailable (origin : CDNOrigin) (reply : Response)
  | aborted (origin : CDNOrigin)
  /-- with the origin's answer, the reply to the client, and what the cache stored -/
  | proxied (origin : CDNOrigin) (answer reply : Response) (stored : Option Response)
  deriving DecidableEq

def Outcome.admitted : Outcome → Bool
  | .noSite | .limited => false
  | _ => true

def nanoseconds (now : ℚ) : Time := ⌊now * 1000000000⌋.toNat

/-- A product of 64 bits. -/
def ttl (site : CDNSite) : Int := (site.cacheTTL * Time.second).bmod (2 ^ 64)

/-- The candidates of `selectOrigin`. -/
def SiteRuntime.candidates (sr : SiteRuntime) : List CDNOrigin :=
  match sr.healthChecker with
  | some hc => hc.healthyOrigins
  | none => sr.origins

def SiteRuntime.blocks (lib : ProxyLib) (r : Request) (sr : SiteRuntime) : Bool :=
  sr.waf = some .block && lib.inspect r

namespace SiteState

def allow (now : ℚ) (s : SiteState) : Bool × SiteState :=
  match s.runtime.rateLimiter with
  | none => (true, s)
  | some rl => ((rl.allow now).1, { s with runtime := { s.runtime with rateLimiter := some (rl.allow now).2 } })

/-- The cache is asked about a `GET`. -/
def lookup (lib : ProxyLib) (r : Request) (x : Exchange) (now : ℚ) (s : SiteState) :
    Option (Option CacheEntry × SiteState) :=
  match s.runtime.cache with
  | some b =>
    if r.method = methodGet then
      (b.get lib.toPlatform x.lookup (requestKey lib.toPlatform r) (nanoseconds now) s.dir).map fun (e, b, dir) =>
        (e, { runtime := { s.runtime with cache := some b }, dir })
    else some (none, s)
  | none => some (none, s)

/-- `maybeCacheResponse`, with the response that the cache has stored. -/
def maybeCacheResponse (lib : ProxyLib) (r : Request) (resp : Response) (x : Exchange) (now : ℚ) (s : SiteState) :
    Option (Option Response × SiteState) :=
  match s.runtime.cache with
  | some b =>
    if r.method = methodGet ∧ 200 ≤ resp.statusCode ∧ resp.statusCode < 300 then
      (b.put lib.toPlatform x.store (requestKey lib.toPlatform r) resp (nanoseconds now) (ttl s.runtime.site) s.dir).map
        fun (b, dir) => (if cacheable lib.toPlatform resp then some resp else none,
          { runtime := { s.runtime with cache := some b }, dir })
    else some (none, s)
  | none => some (none, s)

def proxy (lib : ProxyLib) (r : Request) (x : Exchange) (now : ℚ) (origin : CDNOrigin) (s : SiteState) :
    Option (Outcome × SiteState) :=
  match x.fetch origin with
  | .failed => some (.unavailable origin (deliver lib s.runtime.site r (httpError "origin unavailable" 502)), s)
  | .cut _ => some (.aborted origin, s)
  | .whole answer =>
    let resp := { answer with headers := applyHeaderRules lib s.runtime.headerRules answer.headers }
    (s.maybeCacheResponse lib r resp x now).map fun (stored, s) =>
      (.proxied origin answer (deliver lib s.runtime.site r resp) stored, s)

/-- The part of `ServeHTTP` behind rate limit and WAF. -/
def answer (lib : ProxyLib) (r : Request) (x : Exchange) (now : ℚ) (s : SiteState) : Option (Outcome × SiteState) :=
  match s.lookup lib r x now with
  | none => none
  | some (some e, s) => some (.hit e, s)
  | some (none, s) =>
    match selectOrigin x.draw s.runtime.candidates with
    | none => some (.noOrigin, s)
    | some origin => s.proxy lib r x now origin

/-- The part of `ServeHTTP` that a site has. -/
def serve (lib : ProxyLib) (r : Request) (x : Exchange) (now : ℚ) (s : SiteState) : Option (Outcome × SiteState) :=
  if !(s.allow now).1 then some (.limited, (s.allow now).2)
  else if (s.allow now).2.runtime.blocks lib r then some (.blocked, (s.allow now).2)
  else (s.allow now).2.answer lib r x now

end SiteState

/-! ## Nodes -/

/-- What `SetCacheConfig` sets. -/
structure CacheConfig where
  /-- empty for a cache in memory only -/
  dir : String
  maxBytes : Int

structure ProxyService where
  running : Bool
  runtimes : List SiteRuntime
  /-- the places of the runtimes by domain and by site -/
  sites : Table (Prod.fst : Bytes × Nat → Bytes)
  siteByID : Table (Prod.fst : ID × Nat → ID)
  cacheConfig : CacheConfig

structure Node where
  proxy : ProxyService
  /-- the cache directory of each site -/
  dirs : ID → Dir
  /-- in seconds -/
  now : ℚ

/-- What the code does not determine in a reconciliation: whether a site's directory can be made,
and the order in which its files are found. -/
structure ReconcileChoice where
  mkdir : ID → Bool
  order : RangeOrder

def newBackend (cfg : CacheConfig) (choice : ReconcileChoice) (dirs : ID → Dir) (site : CDNSite) : Option Backend :=
  if site.cacheEnabled then
    if cfg.dir ≠ "" ∧ choice.mkdir site.id then
      let h := newHybridCache 10000 cfg.maxBytes choice.order (dirs site.id)
      some (.hybrid h.memory h.disk.cache)
    else some (.memory (newCache 10000))
  else none

def newSiteRuntime (lib : ProxyLib) (cfg : CacheConfig) (choice : ReconcileChoice) (dirs : ID → Dir) (now : ℚ)
    (swo : CDNService.SiteWithOrigins) : SiteRuntime where
  site := swo.site
  origins := swo.origins
  cache := newBackend cfg choice dirs swo.site
  rateLimiter := (swo.site.rateLimitRPS.filter (0 < ·)).map fun rps => newRateLimiter rps now
  headerRules := (swo.site.headerRules.bind lib.headerRules).getD []
  waf := if swo.site.wafEnabled then some (if swo.site.wafMode = "block" then .block else .detect) else none
  healthChecker := if swo.origins = [] then none else some (newHealthChecker swo.origins)

/-- The loop of `Reconcile`: one more site. -/
def addSite (lib : ProxyLib) (choice : ReconcileChoice) (dirs : ID → Dir) (now : ℚ) (p : ProxyService)
    (swo : CDNService.SiteWithOrigins) : ProxyService :=
  { p with
    runtimes := p.runtimes ++ [newSiteRuntime lib p.cacheConfig choice dirs now swo]
    sites := swo.site.domains.foldl (fun sites d => sites.put (lib.toLower (bytes d), p.runtimes.length)) p.sites
    siteByID := p.siteByID.put (swo.site.id, p.runtimes.length) }

namespace Node

def reconcile (lib : ProxyLib) (config : List CDNService.SiteWithOrigins) (choice : ReconcileChoice) (n : Node) :
    Except String Node :=
  if n.proxy.running then
    .ok { n with
      proxy := config.foldl (addSite lib choice n.dirs n.now)
        { n.proxy with runtimes := [], sites := ∅, siteByID := ∅ } }
  else .error "cdn server not running"

def site (i : Nat) (n : Node) : Option SiteState :=
  n.proxy.runtimes[i]?.map fun runtime => { runtime, dir := n.dirs runtime.site.id }

def setSite (i : Nat) (s : SiteState) (n : Node) : Node :=
  { n with
    proxy := { n.proxy with runtimes := n.proxy.runtimes.set i s.runtime }
    dirs := Function.update n.dirs s.runtime.site.id s.dir }

/-- `ServeHTTP`, with the place and the ID of the site that has served the request. -/
def serveHTTP (lib : ProxyLib) (r : Request) (x : Exchange) (n : Node) : Option (Option (Nat × ID) × Outcome × Node) :=
  match n.proxy.sites.find (requestHost lib.toPlatform r) with
  | none => some (none, .noSite, n)
  | some (_, i) => do
    let s ← n.site i
    let (outcome, s') ← s.serve lib r x n.now
    return (some (i, s.runtime.site.id), outcome, n.setSite i s')

def purgeCache (siteID : ID) (n : Node) : Except String Node :=
  if n.proxy.running then
    match (n.proxy.siteByID.find siteID).bind fun (_, i) => (n.site i).map ((i, ·)) with
    | none => .error ("site " ++ siteID.text ++ " not found")
    | some (i, s) =>
      match s.runtime.cache with
      | none => .ok n
      | some b =>
        .ok (n.setSite i { runtime := { s.runtime with cache := some (b.purge s.dir).1 }, dir := (b.purge s.dir).2 })
  else .error "cdn server not running"

def probe (i j : Nat) (get : String → Option Int) (n : Node) : Option (Bool × Node) := do
  let runtime ← n.proxy.runtimes[i]?
  let hc ← runtime.healthChecker
  let oh ← hc[j]?
  return (probeSucceeds get oh.origin, { n with
    proxy := { n.proxy with
      runtimes := n.proxy.runtimes.set i { runtime with healthChecker := some (hc.set j (oh.checkOrigin get)) } } })

end Node

/-! ## What a request and a reconciliation do -/

section
variable {lib : ProxyLib} {r : Request} {x : Exchange} {now : ℚ} {s s' : SiteState} {outcome : Outcome}

/-- The ways through the part of `ServeHTTP` behind rate limit and WAF. -/
inductive SiteState.Answers (lib : ProxyLib) (r : Request) (x : Exchange) (now : ℚ) (s : SiteState) :
    Outcome → SiteState → Prop
  | hit {e : CacheEntry} {s' : SiteState} (hlookup : s.lookup lib r x now = some (some e, s')) :
    Answers lib r x now s (.hit e) s'
  | noOrigin {s' : SiteState} (hlookup : s.lookup lib r x now = some (none, s')) :
    Answers lib r x now s .noOrigin s'
  | unavailable {origin : CDNOrigin} {reply : Response} {s' : SiteState}
      (hlookup : s.lookup lib r x now = some (none, s')) : Answers lib r x now s (.unavailable origin reply) s'
  | aborted {origin : CDNOrigin} {s' : SiteState} (hlookup : s.lookup lib r x now = some (none, s')) :
    Answers lib r x now s (.aborted origin) s'
  | proxied {origin : CDNOrigin} {answer resp : Response} {stored : Option Response} {s₁ s' : SiteState}
      (hlookup : s.lookup lib r x now = some (none, s₁)) (hfetch : x.fetch origin = .whole answer)
      (hresp : resp = { answer with headers := applyHeaderRules lib s₁.runtime.headerRules answer.headers })
      (hcache : s₁.maybeCacheResponse lib r resp x now = some (stored, s')) :
    Answers lib r x now s (.proxied origin answer (deliver lib s'.runtime.site r resp) stored) s'

/-- The ways through the part of `ServeHTTP` that a site has. -/
inductive SiteState.Serves (lib : ProxyLib) (r : Request) (x : Exchange) (now : ℚ) (s : SiteState) :
    Outcome → SiteState → Prop
  | limited (hlimit : (s.allow now).1 = false) : Serves lib r x now s .limited (s.allow now).2
  | blocked (hlimit : (s.allow now).1 = true) : Serves lib r x now s .blocked (s.allow now).2
  | answered {outcome : Outcome} {s' : SiteState} (hlimit : (s.allow now).1 = true)
      (hanswer : (s.allow now).2.Answers lib r x now outcome s') : Serves lib r x now s outcome s'

theorem SiteState.answer_inv (h : s.answer lib r x now = some (outcome, s')) : s.Answers lib r x now outcome s' := by
  unfold SiteState.answer at h
  split at h
  · cases h
  · next e s₁ hlookup =>
    cases h
    exact .hit hlookup
  · next s₁ hlookup =>
    split at h
    · cases h
      exact .noOrigin hlookup
    · next origin horigin =>
      unfold SiteState.proxy at h
      split at h
      · cases h
        exact .unavailable hlookup
      · cases h
        exact .aborted hlookup
      · next answer hfetch =>
        obtain ⟨⟨stored, s₂⟩, hcache, hs'⟩ := Option.map_eq_some_iff.mp h
        cases hs'
        exact .proxied hlookup hfetch rfl hcache

theorem SiteState.serve_inv (h : s.serve lib r x now = some (outcome, s')) : s.Serves lib r x now outcome s' := by
  unfold SiteState.serve at h
  by_cases hlimit : (s.allow now).1
  · rw [if_neg (by simp [hlimit])] at h
    split at h
    · cases h
      exact .blocked hlimit
    · exact .answered hlimit (SiteState.answer_inv h)
  · rw [if_pos (by simpa using hlimit)] at h
    cases h
    exact .limited (by simpa using hlimit)

theorem SiteState.allow_runtime (s : SiteState) (now : ℚ) :
    (s.allow now).2.runtime =
      { s.runtime with rateLimiter := s.runtime.rateLimiter.map fun rl => (rl.allow now).2 } := by
  obtain ⟨⟨site, origins, cache, rateLimiter, healthChecker, headerRules, waf⟩, dir⟩ := s
  cases rateLimiter <;> rfl

theorem SiteState.allow_fst {rl : RateLimiter} (h : s.runtime.rateLimiter = some rl) :
    (s.allow now).1 = (rl.allow now).1 := by
  rw [SiteState.allow, h]

def SiteRuntime.Recached (sr sr' : SiteRuntime) : Prop := sr' = { sr with cache := sr'.cache }

theorem SiteState.lookup_recached {e : Option CacheEntry} (h : s.lookup lib r x now = some (e, s')) :
    s.runtime.Recached s'.runtime := by
  unfold SiteState.lookup at h
  split at h
  · split at h
    · obtain ⟨⟨e, b, dir⟩, -, hs'⟩ := Option.map_eq_some_iff.mp h
      cases hs'
      rfl
    · cases h
      rfl
  · cases h
    rfl

theorem SiteState.maybeCacheResponse_recached {resp : Response} {stored : Option Response}
    (h : s.maybeCacheResponse lib r resp x now = some (stored, s')) : s.runtime.Recached s'.runtime := by
  unfold SiteState.maybeCacheResponse at h
  split at h
  · split at h
    · obtain ⟨⟨b, dir⟩, -, hs'⟩ := Option.map_eq_some_iff.mp h
      cases hs'
      rfl
    · cases h
      rfl
  · cases h
    rfl

theorem SiteRuntime.Recached.trans {sr sr' sr'' : SiteRuntime} (h : sr.Recached sr') (h' : sr'.Recached sr'') :
    sr.Recached sr'' := by
  unfold Recached at h h' ⊢
  rw [h', h]

theorem SiteState.Answers.recached (h : s.Answers lib r x now outcome s') : s.runtime.Recached s'.runtime := by
  cases h with
  | hit hlookup => exact lookup_recached hlookup
  | noOrigin hlookup => exact lookup_recached hlookup
  | unavailable hlookup => exact lookup_recached hlookup
  | aborted hlookup => exact lookup_recached hlookup
  | proxied hlookup _ _ hcache => exact (lookup_recached hlookup).trans (maybeCacheResponse_recached hcache)

theorem SiteState.Serves.recached (h : s.Serves lib r x now outcome s') :
    (s.allow now).2.runtime.Recached s'.runtime ∧ outcome.admitted = (s.allow now).1 := by
  cases h with
  | limited hlimit => exact ⟨rfl, hlimit.symm⟩
  | blocked hlimit => exact ⟨rfl, hlimit.symm⟩
  | answered hlimit hanswer =>
    refine ⟨hanswer.recached, ?_⟩
    rw [hlimit]
    cases hanswer <;> rfl

end

section
variable {lib : ProxyLib} {r : Request} {x : Exchange} {n n' : Node} {outcome : Outcome}
  {place : Option (Nat × ID)}

theorem Node.serveHTTP_inv (h : n.serveHTTP lib r x = some (place, outcome, n')) :
    place = none ∧ outcome = .noSite ∧ n' = n ∨
      ∃ i s s', place = some (i, s.runtime.site.id) ∧ n.site i = some s ∧ s.Serves lib r x n.now outcome s' ∧
        n' = n.setSite i s' := by
  unfold Node.serveHTTP at h
  split at h
  · cases h
    exact .inl ⟨rfl, rfl, rfl⟩
  · next host i hfind =>
    obtain ⟨s, hs, h⟩ := Option.bind_eq_some_iff.mp h
    obtain ⟨⟨outcome', s'⟩, hserve, h⟩ := Option.bind_eq_some_iff.mp h
    cases h
    exact .inr ⟨i, s, s', rfl, hs, SiteState.serve_inv hserve, rfl⟩

theorem Node.purgeCache_ok {siteID : ID} (h : n.purgeCache siteID = .ok n') :
    n' = n ∨ ∃ i s b, n.site i = some s ∧ s.runtime.cache = some b ∧
      n' = n.setSite i { runtime := { s.runtime with cache := some (b.purge s.dir).1 }, dir := (b.purge s.dir).2 } := by
  unfold Node.purgeCache at h
  split at h
  · split at h
    · cases h
    · next i s hsite =>
      obtain ⟨⟨id, i'⟩, -, hsite⟩ := Option.bind_eq_some_iff.mp hsite
      obtain ⟨s', hs, heq⟩ := Option.map_eq_some_iff.mp hsite
      cases heq
      split at h
      · cases h
        exact .inl rfl
      · next b hb =>
        cases h
        exact .inr ⟨i, s, b, hs, hb, rfl⟩
  · cases h

theorem Node.probe_inv {i j : Nat} {get : String → Option Int} {ok : Bool} (h : n.probe i j get = some (ok, n')) :
    ∃ sr hc oh, n.proxy.runtimes[i]? = some sr ∧ sr.healthChecker = some hc ∧ hc[j]? = some oh ∧
      n' = { n with
        proxy := { n.proxy with
          runtimes := n.proxy.runtimes.set i { sr with healthChecker := some (hc.set j (oh.markResult ok)) } } } := by
  obtain ⟨sr, hsr, h⟩ := Option.bind_eq_some_iff.mp h
  obtain ⟨hc, hhc, h⟩ := Option.bind_eq_some_iff.mp h
  obtain ⟨oh, hoh, h⟩ := Option.bind_eq_some_iff.mp h
  cases h
  exact ⟨sr, hc, oh, hsr, hhc, hoh, rfl⟩

theorem Node.site_eq {i : Nat} {s : SiteState} (h : n.site i = some s) :
    n.proxy.runtimes[i]? = some s.runtime ∧ s.dir = n.dirs s.runtime.site.id := by
  obtain ⟨sr, hsr, rfl⟩ := Option.map_eq_some_iff.mp h
  exact ⟨hsr, rfl⟩

/-- `Reconcile` makes the runtimes of the configured sites, in order, and nothing of what was
there is left but the directories. -/
theorem Node.reconcile_ok {config : List CDNService.SiteWithOrigins} {choice : ReconcileChoice}
    (h : n.reconcile lib config choice = .ok n') :
    n'.proxy.runtimes = config.map (newSiteRuntime lib n.proxy.cacheConfig choice n.dirs n.now) ∧
      n'.dirs = n.dirs ∧ n'.now = n.now ∧ n'.proxy.running = true ∧ n'.proxy.cacheConfig = n.proxy.cacheConfig := by
  unfold Node.reconcile at h
  split at h
  · next hrunning =>
    cases h
    have hloop : ∀ (config : List CDNService.SiteWithOrigins) (p : ProxyService),
        (config.foldl (addSite lib choice n.dirs n.now) p).runtimes =
            p.runtimes ++ config.map (newSiteRuntime lib p.cacheConfig choice n.dirs n.now) ∧
          (config.foldl (addSite lib choice n.dirs n.now) p).running = p.running ∧
          (config.foldl (addSite lib choice n.dirs n.now) p).cacheConfig = p.cacheConfig := by
      intro config
      induction config with
      | nil => intro p; simp
      | cons swo config ih =>
        intro p
        obtain ⟨hruntimes, hrun, hcfg⟩ := ih (addSite lib choice n.dirs n.now p swo)
        rw [List.foldl_cons, hruntimes, hrun, hcfg]
        refine ⟨?_, rfl, rfl⟩
        simp [addSite]
    obtain ⟨hruntimes, hrun, hcfg⟩ := hloop config { n.proxy with runtimes := [], sites := ∅, siteByID := ∅ }
    exact ⟨by simpa using hruntimes, rfl, rfl, hrun.trans hrunning, hcfg⟩
  · cases h

end

/-! ## Runs -/

inductive NodeEvent where
  | unrouted (request : Request)
  | served (site : Nat) (siteID : ID) (request : Request) (outcome : Outcome) (time : ℚ)
  | probed (site origin : Nat) (ok : Bool)
  | reconciled
  deriving DecidableEq

def logged (place : Option (Nat × ID)) (r : Request) (outcome : Outcome) (now : ℚ) : NodeEvent :=
  match place with
  | none => .unrouted r
  | some (i, siteID) => .served i siteID r outcome now

structure NodeRun where
  node : Node
  log : List NodeEvent

inductive NodeMove where
  | request (r : Request) (x : Exchange)
  | probe (site origin : Nat) (get : String → Option Int)
  | advance (seconds : ℚ)
  | purge (siteID : ID)
  | reconcile (config : List CDNService.SiteWithOrigins) (choice : ReconcileChoice)

def NodeRun.step (lib : ProxyLib) (m : NodeMove) (s : NodeRun) : Option NodeRun :=
  match m with
  | .request r x =>
    (s.node.serveHTTP lib r x).map fun (place, outcome, node) =>
      { node, log := logged place r outcome s.node.now :: s.log }
  | .probe i j get => (s.node.probe i j get).map fun (ok, node) => { node, log := .probed i j ok :: s.log }
  | .advance d => if 0 ≤ d then some { s with node := { s.node with now := s.node.now + d } } else none
  | .purge siteID =>
    match s.node.purgeCache siteID with
    | .ok node => some { s with node }
    | .error _ => some s
  | .reconcile config choice =>
    match s.node.reconcile lib config choice with
    | .ok node => some { node, log := .reconciled :: s.log }
    | .error _ => some s

inductive NodeRun.Steps (lib : ProxyLib) (s : NodeRun) : NodeMove → NodeRun → Prop
  | request {r : Request} {x : Exchange} {place : Option (Nat × ID)} {outcome : Outcome} {n : Node}
      (hserve : s.node.serveHTTP lib r x = some (place, outcome, n)) :
    Steps lib s (.request r x) { node := n, log := logged place r outcome s.node.now :: s.log }
  | probe {i j : Nat} {get : String → Option Int} {ok : Bool} {n : Node}
      (hprobe : s.node.probe i j get = some (ok, n)) :
    Steps lib s (.probe i j get) { node := n, log := .probed i j ok :: s.log }
  | advance {d : ℚ} (hd : 0 ≤ d) : Steps lib s (.advance d) { s with node := { s.node with now := s.node.now + d } }
  | purge {siteID : ID} {n : Node} (hpurge : s.node.purgeCache siteID = .ok n) :
    Steps lib s (.purge siteID) { s with node := n }
  | reconcile {config : List CDNService.SiteWithOrigins} {choice : ReconcileChoice} {n : Node}
      (hreconcile : s.node.reconcile lib config choice = .ok n) :
    Steps lib s (.reconcile config choice) { node := n, log := .reconciled :: s.log }
  | refused {m : NodeMove} : Steps lib s m s

theorem NodeRun.step_inv {lib : ProxyLib} {m : NodeMove} {s s' : NodeRun} (h : s.step lib m = some s') :
    s.Steps lib m s' := by
  cases m with
  | request r x =>
    obtain ⟨⟨place, outcome, n⟩, hserve, rfl⟩ := Option.map_eq_some_iff.mp h
    exact .request hserve
  | probe i j get =>
    obtain ⟨⟨ok, n⟩, hprobe, rfl⟩ := Option.map_eq_some_iff.mp h
    exact .probe hprobe
  | advance d =>
    unfold NodeRun.step at h
    dsimp only at h
    split at h
    · next hd =>
      cases h
      exact .advance hd
    · cases h
  | purge siteID =>
    unfold NodeRun.step at h
    dsimp only at h
    split at h
    · next n hpurge =>
      cases h
      exact .purge hpurge
    · cases h
      exact .refused
  | reconcile config choice =>
    unfold NodeRun.step at h
    dsimp only at h
    split at h
    · next n hreconcile =>
      cases h
      exact .reconcile hreconcile
    · cases h
      exact .refused

/-- A library without header rules and WAF rules, whose encoders put a mark before the text. -/
def ProxyLib.plain : ProxyLib where
  toPlatform := .plain
  canonicalKey := id
  headerRules _ := none
  inspect _ := false
  gzip body := 31 :: body
  brotli body := 206 :: body

namespace Sample

def origin : CDNOrigin :=
  { id := 70, siteID := 60, address := "origin.example.org", scheme := "https", weight := 1, healthCheckPath := ""
    healthCheckInterval := none, status := .unknown, createdAt := 0, updatedAt := 0 }

def node (cacheDir : String) (dirs : ID → Dir) : Node :=
  { proxy := {
      running := true, runtimes := [], sites := ∅, siteByID := ∅, cacheConfig := { dir := cacheDir, maxBytes := 1000 } }
    dirs, now := 0 }

def reconcileChoice : ReconcileChoice := { mkdir := fun _ => true, order := .asStored }

def configured (cacheDir : String) (dirs : ID → Dir) (config : List CDNService.SiteWithOrigins) : Node :=
  ((node cacheDir dirs).reconcile .plain config reconcileChoice).toOption.getD (node cacheDir dirs)

theorem reconcile_configured (cacheDir : String) (dirs : ID → Dir) (config : List CDNService.SiteWithOrigins) :
    (node cacheDir dirs).reconcile .plain config reconcileChoice = .ok (configured cacheDir dirs config) := rfl

def answering (answer : Response) : Exchange :=
  { draw := 0, fetch := fun _ => .whole answer, lookup := List.replicate 4 choice, store := List.replicate 4 choice }

def caching : List CDNService.SiteWithOrigins := [{ site, origins := [origin] }]

/-- `GET /`, which the origins answer with this. -/
def get (answer : Response) : NodeMove := .request (request "/" "") (answering answer)

def entry (answer : Response) : CacheEntry :=
  { answer with key := requestKey .plain (request "/" ""), storedAt := 0, ttl := ttl site }

def cachingLog (moves : List NodeMove) : Option (List NodeEvent) :=
  (Machine.run (NodeRun.step .plain) moves { node := configured "" (fun _ => ∅) caching, log := [] }).map (·.log)

end Sample
end EdgeFabric.CdnServer
