/-
The CDN service (`internal/cdn`): validation of sites and of origins, with the
check that an origin does not point at an internal network, create and update,
and the configuration a node polls. A purge is only acknowledged.
-/
import EdgeFabric.Dns

namespace EdgeFabric
namespace CDNService

structure CreateSiteRequest where
  tenantID : ID
  name : String
  domains : List String
  tlsMode : TLSMode
  cacheEnabled : Bool := false
  cacheTTL : Int := 0
  compressionEnabled : Bool := false
  rateLimitRPS : Option Int := none
  nodeGroupID : Option ID := none
  headerRules : Option String := none
  wafEnabled : Bool := false
  wafMode : String := ""
  deriving DecidableEq, Repr

structure UpdateSiteRequest where
  name : Option String := none
  domains : Option (List String) := none
  tlsMode : Option TLSMode := none
  cacheEnabled : Option Bool := none
  cacheTTL : Option Int := none
  compressionEnabled : Option Bool := none
  rateLimitRPS : Option Int := none
  nodeGroupID : Option ID := none
  headerRules : Option String := none
  wafEnabled : Option Bool := none
  wafMode : Option String := none
  status : Option CDNSiteStatus := none
  clearNodeGroup : Bool := false
  clearRateLimit : Bool := false
  deriving DecidableEq, Repr

structure CreateOriginRequest where
  siteID : ID
  address : String
  scheme : CDNOriginScheme
  weight : Int := 0
  healthCheckPath : String := ""
  healthCheckInterval : Option Int := none
  deriving DecidableEq, Repr

structure UpdateOriginRequest where
  address : Option String := none
  scheme : Option CDNOriginScheme := none
  weight : Option Int := none
  healthCheckPath : Option String := none
  healthCheckInterval : Option Int := none
  status : Option CDNOriginStatus := none
  deriving DecidableEq, Repr

/-! ## Validation of sites -/

/-- `hostnameRegex`: labels separated by dots, an optional dot at the end. -/
def hostnameRegex (cs : List Char) : Bool :=
  ((DNSService.trimDot cs).splitOn '.').all (DNSService.isLabel DNSService.isAlphanumeric)

def validateDomain (d : String) : Except Err Unit :=
  let clean := DNSService.trimDot d.toList
  if d = "" then .error (.text "domain must not be empty")
  else if 253 < (String.ofList clean).utf8ByteSize then .error (.text "domain too long (max 253 characters)")
  else if ¬ hostnameRegex clean then .error (.text "not a valid hostname")
  else .ok ()

/-- A text that must be one of `allowed`. -/
def validateChoice (field expected text : String) (allowed : List String) : Except Err Unit :=
  if text ∈ allowed then .ok ()
  else if text = "" then .error (.text (field ++ " is required"))
  else .error (.text ("invalid " ++ field ++ ": " ++ quote text ++ " (must be " ++ expected ++ ")"))

def validateTLSMode (mode : TLSMode) : Except Err Unit :=
  validateChoice "tls_mode" "auto, manual, or disabled" mode ["auto", "manual", "disabled"]

def validateWAFMode (mode : String) : Except Err Unit :=
  validateChoice "waf_mode" "detect, block, or empty" mode ["detect", "block", ""]

/-- The check of one rule; `i` is its position. -/
def validateHeaderRule (i : Nat) (rule : HeaderRule) : Except Err Unit :=
  let fail (msg : String) : Except Err Unit := .error (.text ("rule[" ++ toString i ++ "]: " ++ msg))
  if rule.header = "" then fail "header is required"
  else if rule.action = "add" ∨ rule.action = "set" then
    if rule.value = "" then fail ("value is required for action " ++ quote rule.action) else .ok ()
  else if rule.action = "remove" then .ok ()
  else fail ("invalid action " ++ quote rule.action ++ " (must be add, set, or remove)")

def validateHeaderRules (raw : String) : Reads Unit := do
  let rules ← (ask .library fun v _ => orErr (v.headerRules raw) : Reads _).under "must be a valid JSON array"
  Query.ofExcept (rules.zipIdx.forM fun (rule, i) => validateHeaderRule i rule)

/-- What `validateSite` and `validateSiteUpdate` share; only the first insists on a domain. -/
def validateSiteFields (needsDomain : Bool) (site : CDNSite) : Reads Unit := do
  Query.ofExcept (do
    if site.name = "" then .error (.text "site name is required")
    else if 255 < site.name.utf8ByteSize then .error (.text "site name too long (max 255 characters)")
    else if needsDomain ∧ site.domains = [] then .error (.text "at least one domain is required")
    else
      site.domains.forM fun d => (validateDomain d).mapError (.under ("invalid domain " ++ quote d))
      validateTLSMode site.tlsMode
      if site.cacheTTL < 0 then .error (.text ("cache_ttl must be >= 0, got " ++ toString site.cacheTTL))
      else
        match site.rateLimitRPS with
        | some rps =>
          if rps ≤ 0 then .error (.text ("rate_limit_rps must be > 0 when set, got " ++ toString rps)) else .ok ()
        | none => .ok ())
  match site.headerRules with
  | some raw => (validateHeaderRules raw).under "invalid header_rules"
  | none => pure ()
  Query.ofExcept (validateWAFMode site.wafMode)

def validateSite : CDNSite → Reads Unit := validateSiteFields true
def validateSiteUpdate : CDNSite → Reads Unit := validateSiteFields false

/-! ## Validation of origins -/

def splitHostPort (cs : List Char) : Option (List Char × List Char) :=
  match cs with
  | '[' :: rest => do
    let (host, after) ← Text.cut ']' rest
    match after with
    | ':' :: port => if ':' ∈ port ∨ '[' ∈ host ++ port ∨ ']' ∈ port then none else some (host, port)
    | _ => none
  | _ => do
    let (host, port) ← Text.cut ':' cs
    if ':' ∈ port ∨ '[' ∈ cs ∨ ']' ∈ cs then none else some (host, port)

def blockedHosts : List String :=
  ["localhost", "metadata.google.internal", "metadata.google", "kubernetes.default", "kubernetes.default.svc"]

/-- `IsLoopback`, `IsLinkLocalUnicast` and `IsLinkLocalMulticast`, the private ranges, the
metadata addresses and the unspecified ones, each as the networks they stand for. The last
range is `ff?2::/16` for every flag digit. -/
def blockedRanges : List String :=
  ["127.0.0.0/8", "::1/128", "169.254.0.0/16", "fe80::/10", "224.0.0.0/24", "10.0.0.0/8", "172.16.0.0/12",
    "192.168.0.0/16", "fc00::/7", "169.254.169.254/32", "fd00:ec2::254/128", "0.0.0.0/32", "::/128"]

def isLinkLocalMulticast6 (ip : IP.Addr) : Bool := ip.toNat / 2 ^ 120 = 0xff && ip.toNat / 2 ^ 112 % 16 = 2

def isBlockedIP (ip : IP.Addr) : Bool :=
  (blockedRanges.any fun cidr => (IP.parseCIDR cidr.toList).any fun p => p.2.contains ip) || isLinkLocalMulticast6 ip

/-- The addresses of a host; one that cannot be looked up may be an address itself. -/
def resolve (address host : String) : Reads (List String) := do
  match ← (ask .library fun v t => orErr (v.lookupHost t host) : Reads _).attempt with
  | .ok ips => return ips
  | .error e =>
    match IP.parse host.toList with
    | some ip => return [String.ofList (IP.text ip)]
    | none => Query.fail (.text ("cannot resolve origin address " ++ quote address ++ ": " ++ e.message))

def validateOriginAddress (address : String) : Reads Unit := do
  let host := match splitHostPort address.toList with
    | some (host, _) => String.ofList host
    | none => address
  let lower ← toLower host
  if blockedHosts.any fun b => lower = b ∨ ("." ++ b).toList.isSuffixOf lower.toList then
    Query.fail (.text ("origin address " ++ quote address ++ " resolves to a blocked internal host"))
  else
    let ips ← resolve address host
    match ips.find? fun ipStr => (IP.parse ipStr.toList).any isBlockedIP with
    | some ipStr =>
      Query.fail (.text ("origin address " ++ quote address ++ " resolves to blocked IP " ++ ipStr ++
        " (private/internal network)"))
    | none => return ()

def validateOriginScheme (scheme : CDNOriginScheme) : Except Err Unit :=
  if scheme = "http" ∨ scheme = "https" then .ok ()
  else if scheme = "" then .error (.text "origin scheme is required")
  else .error (.text ("invalid origin scheme: " ++ quote scheme ++ " (must be http or https)"))

def validateOrigin (allowPrivate : Bool) (o : CDNOrigin) : Reads Unit := do
  if o.address = "" then Query.fail (.text "origin address is required")
  else
    if allowPrivate then pure () else (validateOriginAddress o.address).under "origin address"
    Query.ofExcept (do
      validateOriginScheme o.scheme
      if o.weight < 1 then .error (.text ("origin weight must be >= 1, got " ++ toString o.weight))
      else if o.healthCheckPath ≠ "" ∧ o.healthCheckPath.toList.head? ≠ some '/' then
        .error (.text ("health_check_path must start with '/', got " ++ quote o.healthCheckPath))
      else
        match o.healthCheckInterval with
        | some n =>
          if n < 5 then .error (.text ("health_check_interval must be >= 5 seconds when set, got " ++ toString n))
          else .ok ()
        | none => .ok ())

/-! ## Sites -/

def createSite (req : CreateSiteRequest) : Service CDNSite := do
  let id ← newID
  let site : CDNSite :=
    { id, tenantID := req.tenantID, name := req.name, domains := req.domains, tlsMode := req.tlsMode
      tlsCertID := none, cacheEnabled := req.cacheEnabled, cacheTTL := req.cacheTTL
      compressionEnabled := req.compressionEnabled, rateLimitRPS := req.rateLimitRPS
      nodeGroupID := req.nodeGroupID, headerRules := req.headerRules, wafEnabled := req.wafEnabled
      wafMode := req.wafMode, status := "", createdAt := 0, updatedAt := 0 }
  (validateSite site).under "invalid site"
  (save (Store.createCDNSite site)).under "create site"

def getSite (id : ID) : Reads CDNSite := read (Store.getCDNSite id)

def listSites (tenantID : ID) (p : ListParams) : Reads (List CDNSite × Nat) := read (Store.listCDNSites tenantID p)

def UpdateSiteRequest.apply (req : UpdateSiteRequest) (site : CDNSite) : CDNSite :=
  { site with
    name := req.name.getD site.name
    domains := req.domains.getD site.domains
    tlsMode := req.tlsMode.getD site.tlsMode
    cacheEnabled := req.cacheEnabled.getD site.cacheEnabled
    cacheTTL := req.cacheTTL.getD site.cacheTTL
    compressionEnabled := req.compressionEnabled.getD site.compressionEnabled
    rateLimitRPS := if req.clearRateLimit then none else req.rateLimitRPS.or site.rateLimitRPS
    nodeGroupID := if req.clearNodeGroup then none else req.nodeGroupID.or site.nodeGroupID
    headerRules := req.headerRules.or site.headerRules
    wafEnabled := req.wafEnabled.getD site.wafEnabled
    wafMode := req.wafMode.getD site.wafMode
    status := req.status.getD site.status }

def updateSite (id : ID) (req : UpdateSiteRequest) : Service CDNSite := do
  let site ← read (Store.getCDNSite id)
  let site := req.apply site
  (validateSiteUpdate site).under "invalid site"
  (save (Store.updateCDNSite site)).under "update site"

def deleteSite (id : ID) : Service Unit := save fun _ => Store.deleteCDNSite id

/-- `PurgeSiteCache`: the site is looked up and nothing else happens. -/
def purgeSiteCache (siteID : ID) : Reads Unit := do
  let _ ← (read (Store.getCDNSite siteID)).under "site lookup"

/-! ## Origins -/

def createOrigin (allowPrivateOrigins : Bool) (req : CreateOriginRequest) : Service CDNOrigin := do
  let _ ← (read (Store.getCDNSite req.siteID)).under "site lookup"
  let id ← newID
  let origin : CDNOrigin :=
    { id, siteID := req.siteID, address := req.address, scheme := req.scheme
      weight := if req.weight = 0 then 1 else req.weight, healthCheckPath := req.healthCheckPath
      healthCheckInterval := req.healthCheckInterval, status := "", createdAt := 0, updatedAt := 0 }
  (validateOrigin allowPrivateOrigins origin).under "invalid origin"
  (save (Store.createCDNOrigin origin)).under "create origin"

def getOrigin (id : ID) : Reads CDNOrigin := read (Store.getCDNOrigin id)

def listOrigins (siteID : ID) (p : ListParams) : Reads (List CDNOrigin × Nat) := read (Store.listCDNOrigins siteID p)

def UpdateOriginRequest.apply (req : UpdateOriginRequest) (o : CDNOrigin) : CDNOrigin :=
  { o with
    address := req.address.getD o.address
    scheme := req.scheme.getD o.scheme
    weight := req.weight.getD o.weight
    healthCheckPath := req.healthCheckPath.getD o.healthCheckPath
    healthCheckInterval := req.healthCheckInterval.or o.healthCheckInterval
    status := req.status.getD o.status }

def updateOrigin (allowPrivateOrigins : Bool) (id : ID) (req : UpdateOriginRequest) : Service CDNOrigin := do
  let origin ← read (Store.getCDNOrigin id)
  let origin := req.apply origin
  (validateOrigin allowPrivateOrigins origin).under "invalid origin"
  (save (Store.updateCDNOrigin origin)).under "update origin"

def deleteOrigin (id : ID) : Service Unit := save fun _ => Store.deleteCDNOrigin id

/-! ## Config sync -/

structure SiteWithOrigins where
  site : CDNSite
  origins : List CDNOrigin
  deriving DecidableEq, Repr

structure ConfigLoop where
  sites : List SiteWithOrigins
  seenSites : List ID

/-- The inner loop's body: sites of the group that are active and not yet listed. -/
def addSite (group : NodeGroup) (l : ConfigLoop) (site : CDNSite) : Reads ConfigLoop :=
  if site.nodeGroupID = some group.id ∧ site.status = .active ∧ site.id ∉ l.seenSites then do
    let (origins, _) ← (read (Store.listCDNOrigins site.id { limit := 10000 })).under
      ("list origins for site " ++ site.name)
    return { sites := l.sites ++ [{ site, origins }], seenSites := site.id :: l.seenSites }
  else pure l

def addGroup (l : ConfigLoop) (group : NodeGroup) : Reads ConfigLoop := do
  let (sites, _) ← (read (Store.listCDNSites group.tenantID { limit := 10000 })).under
    ("list sites for group " ++ group.id.text)
  Query.fold (addSite group) l sites

def getNodeCDNConfig (nodeID : ID) : Reads (List SiteWithOrigins) := do
  let _ ← (read (Store.getNode nodeID)).under "get node"
  let groups ← (read (Store.listNodeGroupsByNode nodeID)).under "list node groups"
  let l ← Query.fold addGroup { sites := [], seenSites := [] } groups
  return l.sites

/-! ## What the calls do -/

section
variable {v : Env} {s : Store}

theorem createSite_ends (req : CreateSiteRequest) :
    Ends v s (createSite req).1
      (fun c s' => c.tenantID = req.tenantID ∧ ∃ row sites, s.cdnSites.insert row = some sites ∧
        s' = { s with cdnSites := sites })
      fun _ s' => s' = s := by
  refine .bind (Ends.newID fun id => ?_)
  refine .bind (.mapError (Ends.reads (fun _ => ?_) fun _ => rfl))
  refine .mapError (Ends.save (fun t c s' h => ?_) fun _ => rfl)
  obtain ⟨-, htenant, sites, hins, rfl⟩ := Store.createCDNSite_ok h
  exact ⟨htenant, _, sites, hins, rfl⟩

theorem updateSite_ends (id : ID) (req : UpdateSiteRequest) :
    Ends v s (updateSite id req).1
      (fun c s' => ∃ old row sites, s.cdnSites.set row = some sites ∧ s.cdnSites.find id = some old ∧
        c.tenantID = old.tenantID ∧ row.id = id ∧ row.tenantID = old.tenantID ∧ s' = { s with cdnSites := sites })
      fun _ s' => s' = s := by
  refine .bind (Ends.read (fun old hold => ?_) fun _ => rfl)
  refine .bind (.mapError (Ends.reads (fun _ => ?_) fun _ => rfl))
  refine .mapError (Ends.save (fun t c s' h => ?_) fun _ => rfl)
  obtain ⟨rfl, old', sites, hold', hset, rfl⟩ := updateIn_ok h
  obtain rfl := selectRow_unique hold hold'
  have hfind := selectRow_ok.mp hold
  exact ⟨old', _, sites, hset, hfind, rfl, (Table.find_eq_some.mp hfind).2, rfl, rfl⟩

theorem deleteSite_ends (id : ID) :
    Ends v s (deleteSite id).1
      (fun _ s' => ∃ sites, s.cdnSites.erase id = some sites ∧
        s' = { s with cdnSites := sites, cdnOrigins := s.cdnOrigins.filter fun o => o.siteID ≠ id })
      fun _ s' => s' = s := by
  refine Ends.save (fun _ _ s' h => ?_) fun _ => rfl
  obtain ⟨sites, herase, rfl, _⟩ := deleteFrom_ok h
  exact ⟨sites, herase, rfl⟩

structure Configured (s : Store) (nodeID : ID) (c : SiteWithOrigins) : Prop where
  mem : c.site ∈ s.cdnSites
  group : ∃ g ∈ s.nodeGroups, (g.id, nodeID) ∈ s.memberships ∧ c.site.nodeGroupID = some g.id ∧
    c.site.tenantID = g.tenantID
  origins : ∀ o ∈ c.origins, o ∈ s.cdnOrigins ∧ o.siteID = c.site.id

theorem addSite_ends {nodeID : ID} {group : NodeGroup} {l : ConfigLoop} {site : CDNSite}
    (hl : ∀ c ∈ l.sites, Configured s nodeID c) (hgroup : group ∈ s.nodeGroups)
    (hmember : (group.id, nodeID) ∈ s.memberships) (hsite : site ∈ s.cdnSites)
    (htenant : site.tenantID = group.tenantID) :
    Ends v s (addSite group l site).1 (fun l' s' => s' = s ∧ ∀ c ∈ l'.sites, Configured s nodeID c)
      fun _ s' => s' = s := by
  unfold addSite
  split
  · next hkeep =>
    refine .bind (.mapError (Ends.read (fun page hpage => ?_) fun _ => rfl))
    refine .pure ⟨rfl, List.forall_mem_concat hl ?_⟩
    exact ⟨hsite, ⟨group, hgroup, hmember, hkeep.1, htenant⟩, Store.listCDNOrigins_ok hpage⟩
  · exact .pure ⟨rfl, hl⟩

theorem getNodeCDNConfig_ends (nodeID : ID) :
    Ends v s (getNodeCDNConfig nodeID).1 (fun cs s' => s' = s ∧ ∀ c ∈ cs, Configured s nodeID c)
      fun _ s' => s' = s := by
  refine nodeConfig_ends (I := fun l => ∀ c ∈ l.sites, Configured s nodeID c) (by simp)
    (fun group hgroup hmember page hpage l hl site hsite => ?_) fun _ hl => hl
  obtain ⟨hmem, htenant⟩ := Store.listCDNSites_ok hpage site hsite
  exact addSite_ends hl hgroup hmember hmem htenant

end

end CDNService
end EdgeFabric
