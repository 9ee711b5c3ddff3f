/-
The reconcile loops of the agents (`internal/app/node.go`, `internal/app/gateway.go`) and the clients
they fetch with. In every round an agent asks the controller for the configuration of a service and
reconciles the service to it; a round that gets no configuration, or whose service does not run, is
logged and changes nothing.

So what a service does is decided by the store that the last good round has found: which names the DNS
server knows (`dns_follows_store`), which sites the proxy serves (`sites_follow_store`), and where the
forwarders listen and send to (`node_routes_follow_store`, `gateway_routes_follow_store`).
-/
import EdgeFabric.CdnServer.HostRouting
import EdgeFabric.DnsServer.Answers
import EdgeFabric.NodeAgent
import EdgeFabric.Routing.Delivery

namespace EdgeFabric

/-! ## The clients -/

/-- What happens to a request: why it cannot be sent, and why its answer gets lost. -/
structure Network where
  sendError : Option String := none
  receiveError : Option String := none

/-- `getJSON`: the data of an answer. -/
def getJSON (srv : Server) (r : Request) (net : Network) : M Datum := do
  Prog.ofExcept (outside "http request" net.sendError)
  let answer ← (srv.serve r).attempt.mapError fun _ => .text "no answer"
  Prog.ofExcept (outside "http request" net.receiveError)
  let reply := (Response.of answer).reply
  if reply.status ≠ 200 then Prog.fail (.text ("HTTP " ++ toString reply.status))
  else
    match reply.body with
    | .object d => return d
    | _ => Prog.fail (.text "empty data in response")

/-- `FetchDNSConfig` and its like; `read` is what the data is unmarshalled to. -/
def fetchConfig {κ : Type} (what : String) (read : Datum → Option κ) (srv : Server) (r : Request)
    (net : Network) : M κ :=
  M.under ("fetch " ++ what ++ " config") do
    let d ← getJSON srv r net
    match read d with
    | some config => return config
    | none => Prog.fail (.text "unmarshal data")

namespace NodeClient
variable (srv : Server) (c : NodeClient)

def fetchDNSConfig : Network → M (List DNSService.ZoneWithRecords) :=
  fetchConfig "DNS" (fun | .dnsConfig zones => some zones | _ => none) srv (c.fetch .dns)

def fetchCDNConfig : Network → M (List CDNService.SiteWithOrigins) :=
  fetchConfig "CDN" (fun | .cdnConfig sites => some sites | _ => none) srv (c.fetch .cdn)

def fetchRouteConfig : Network → M (List RouteService.RouteWithGateway) :=
  fetchConfig "route" (fun | .nodeRoutes routes => some routes | _ => none) srv (c.fetch .routes)

end NodeClient

/-- `gatewayclient.Client.FetchRouteConfig`. -/
def GatewayClient.fetchRouteConfig (srv : Server) (gatewayID apiToken : String) : Network → M (List Route) :=
  fetchConfig "route" (fun | .gatewayRoutes routes => some routes | _ => none) srv
    { presented := { authorization := "Bearer " ++ apiToken }, endpoint := .service (.gatewayConfig gatewayID) }

section
variable {v : Env} {s : Store} {srv : Server}

/-- The answer to a request of an agent is its handler's; the middleware notes the use of an API key at most. -/
theorem Server.serve_service {p : Presented} {req : ServiceRequest} {Q : Datum → Prop}
    (h : ∀ apiKeys c, Ends v { s with apiKeys } (req.handle srv c).1 (fun reply _ => ∀ d, reply = .ok d → Q d)
      fun reply _ => reply.Refuses) :
    Ends v s (srv.serve { presented := p, endpoint := .service req }) (fun resp _ => ∀ d, resp.reply = .ok d → Q d)
      fun reply _ => reply.Refuses := by
  refine .bind ?_
  rw [ServiceRequest.middleware_eq]
  refine .bind (((auth_ends p false).and (auth_used p false)).mono (fun claims s' hs => ?_) fun _ _ hr => hr.2.2)
  refine .ofExcept (fun claims' _ => ?_) fun _ hr => ServiceRequest.checks_refuses hr
  rw [show s' = _ from hs.1.1]
  exact .andThen (h _ _) fun _ _ hreply => .pure hreply

theorem getJSON_ends {r : Request} {net : Network} {Q : Datum → Prop}
    (h : Ends v s (srv.serve r) (fun resp _ => ∀ d, resp.reply = .ok d → Q d) fun reply _ => reply.Refuses) :
    Ends v s (getJSON srv r net) (fun d _ => Q d) fun _ _ => True := by
  refine .bind (.ofExcept (fun _ _ => ?_) fun _ _ => trivial)
  refine .andThen (Q := fun answer _ => ∀ d, (Response.of answer).reply = .ok d → Q d)
    (.mapError (.attempt (h.mono (fun _ _ hr => hr) fun reply _ hr d hd => ?_))) fun answer s' hr => ?_
  · exact absurd (congrArg Reply.status hd) hr.status
  · refine .bind (.ofExcept (fun _ _ => ?_) fun _ _ => trivial)
    dsimp only
    generalize (Response.of answer).reply = reply at hr
    obtain ⟨status, body⟩ := reply
    split
    · exact .fail trivial
    · next hstatus =>
      obtain rfl : status = 200 := not_not.mp hstatus
      split
      · next d hbody => exact .pure (hr d (congrArg (Reply.mk 200) hbody))
      · exact .fail trivial

variable {κ : Type} {what : String} {f : Datum → Option κ} {net : Network} {P : κ → Prop} {id : ID} {apiToken : String}

theorem fetchConfig_ends {p : Presented} {req : ServiceRequest}
    (h : ∀ apiKeys c, Ends v { s with apiKeys } (req.handle srv c).1
      (fun reply _ => ∀ d, reply = .ok d → ∀ config, f d = some config → P config) fun reply _ => reply.Refuses) :
    Ends v s (fetchConfig what f srv { presented := p, endpoint := .service req } net) (fun config _ => P config)
      fun _ _ => True := by
  refine .mapError (.andThen (getJSON_ends (Server.serve_service h)) fun d s' hd => ?_)
  split
  · next config hconfig => exact .pure (hd config hconfig)
  · exact .fail trivial

theorem reply_ok {d : Datum} (h : ∀ config, f d = some config → P config) :
    ∀ d', Reply.ok d = .ok d' → ∀ config, f d' = some config → P config := by
  intro d' hd
  obtain rfl : d = d' := Body.object.inj (congrArg Reply.body hd)
  exact h

theorem NodeClient.fetch_ends {part : NodeConfig}
    (h : ∀ apiKeys, Ends v { s with apiKeys } (NodeConfigHandler.config srv.hub id part).1
      (fun d _ => ∀ config, f d = some config → P config) fun reply _ => reply.Refuses) :
    Ends v s (fetchConfig what f srv (NodeClient.fetch ⟨id.text, apiToken⟩ part) net) (fun config _ => P config)
      fun _ _ => True := by
  refine fetchConfig_ends fun apiKeys c => ?_
  refine .bind (.ofExcept (fun id' hid => ?_) fun _ hr => parseID_refuses hr)
  rw [parseID_text] at hid
  obtain rfl := Except.ok.inj hid
  refine .andThen (h apiKeys) fun d s' hd => ?_
  exact .bind (.mapError (.attempt (Ends.save (fun _ _ _ _ => .pure (reply_ok hd)) fun _ => .pure (reply_ok hd))))

/-- Which rows are for a node does not depend on API keys. -/
theorem Syncable.Exact.of_apiKeys {α ρ : Type} {k : Syncable α} {apiKeys : Table APIKey.id} {row : ρ → α}
    {Whole : ρ → Prop} {cs : List ρ} (h : k.Exact { s with apiKeys } id row Whole cs)
    (htable : k.table { s with apiKeys } = k.table s) : k.Exact s id row Whole cs := by
  refine ⟨h.once, fun a => (h.precisely a).trans ⟨fun w => ?_, fun w => ?_⟩, h.whole⟩
  · exact ⟨htable ▸ w.mem, w.active, w.assigned⟩
  · exact ⟨htable ▸ w.mem, w.active, w.assigned⟩

/-- A node that is told a configuration is stored. -/
theorem NodeClient.fetch_sync {α ρ L : Type} (c : ConfigSync α ρ L) {part : NodeConfig} {failed : String}
    {f : Datum → Option (List ρ)} {F : Prop} {P : List ρ → Prop} (data : List ρ → Datum)
    (hdata : ∀ cs, f (data cs) = some cs)
    (hpart : NodeConfigHandler.config srv.hub id part =
      do return data (← (c.config id).answering (missing "node" failed)))
    (h : ∀ apiKeys, ∀ n ∈ s.nodes, n.id = id → F → Ends v { s with apiKeys } (c.config id).1 (fun cs _ => P cs)
      fun _ _ => True) :
    Ends v s (fetchConfig what f srv (NodeClient.fetch ⟨id.text, apiToken⟩ part) net) (fun cs _ => F → P cs)
      fun _ _ => True := by
  refine fetch_ends fun apiKeys => ?_
  rw [hpart]
  refine .bind (.mapError (Prog.Ensures.mono (Q := fun cs _ => F → P cs) (E := fun _ _ => True) ?_ (fun cs s' hcs => ?_)
    fun e _ _ => missing_refuses _ _ e))
  · by_cases hF : F
    · cases hfind : s.nodes.find id with
      | some n =>
        obtain ⟨hn, hid⟩ := Table.find_eq_some.mp hfind
        exact (h apiKeys n hn hid hF).mono (fun _ _ hcs _ => hcs) fun _ _ h => h
      | none =>
        refine .bind (.mapError (Ends.read (fun n hn => ?_) fun _ => trivial))
        cases hfind.symm.trans (selectRow_ok.mp hn)
    · exact .of_forall (fun _ _ h => absurd h hF) fun _ _ => trivial
  · refine .pure fun config hconfig => ?_
    obtain rfl := Option.some.inj ((hdata cs).symm.trans hconfig)
    exact hcs

/-- What a node is told, where the lists of the store are not too long. -/
def DNSService.Tells (s : Store) (id : ID) (cs : List ZoneWithRecords) : Prop :=
  Fits s id → zones.Exact s id (·.zone) (fun c => c.records.Perm (s.recordsOf c.zone.id)) cs

theorem NodeClient.fetchDNSConfig_ends (id : ID) (apiToken : String) (net : Network) :
    Ends v s (NodeClient.fetchDNSConfig srv ⟨id.text, apiToken⟩ net) (fun cs _ => DNSService.Tells s id cs)
      fun _ _ => True := by
  refine fetch_sync DNSService.sync .dnsConfig (fun _ => rfl) rfl fun apiKeys n hn hid hfits => ?_
  subst hid
  exact (DNSService.getNodeDNSConfig_exact (s := { s with apiKeys }) hn
    ⟨hfits.rows, fun z hz => hfits.records z ⟨hz.mem, hz.active, hz.assigned⟩⟩).mono
    (fun cs s' h => h.2.of_apiKeys rfl) fun _ _ _ => trivial

def CDNService.Tells (s : Store) (id : ID) (cs : List SiteWithOrigins) : Prop :=
  Fits s id → sites.Exact s id (·.site) (fun c => c.origins.Perm (s.originsOf c.site.id)) cs

theorem NodeClient.fetchCDNConfig_ends (id : ID) (apiToken : String) (net : Network) :
    Ends v s (NodeClient.fetchCDNConfig srv ⟨id.text, apiToken⟩ net) (fun cs _ => CDNService.Tells s id cs)
      fun _ _ => True := by
  refine fetch_sync CDNService.sync .cdnConfig (fun _ => rfl) rfl fun apiKeys n hn hid hfits => ?_
  subst hid
  exact (CDNService.getNodeCDNConfig_exact (s := { s with apiKeys }) hn
    ⟨hfits.rows, fun c hc => hfits.origins c ⟨hc.mem, hc.active, hc.assigned⟩⟩).mono
    (fun cs s' h => h.2.of_apiKeys rfl) fun _ _ _ => trivial

theorem NodeClient.fetchRouteConfig_ends (id : ID) (apiToken : String) (net : Network) :
    Ends v s (NodeClient.fetchRouteConfig srv ⟨id.text, apiToken⟩ net)
      (fun cs _ => ∀ c ∈ cs, RouteService.Configured s id c) fun _ _ => True := by
  refine fetch_ends fun apiKeys => ?_
  refine .bind (.mapError ((RouteService.getNodeRouteConfig_ends id).mono (fun cs s' hcs => ?_)
    fun e _ _ => missing_refuses _ _ e))
  refine .pure fun config hconfig c hc => ?_
  obtain rfl := Option.some.inj hconfig
  have hc := hcs.2.1 c hc
  exact ⟨hc.mem, hc.active, hc.group, hc.gateway⟩

theorem GatewayClient.fetchRouteConfig_ends (id : ID) (apiToken : String) (net : Network) :
    Ends v s (GatewayClient.fetchRouteConfig srv id.text apiToken net)
      (fun rs _ => ∀ r ∈ rs, r ∈ s.routes ∧ r.gatewayID = id ∧ r.status = .active) fun _ _ => True := by
  refine fetchConfig_ends fun apiKeys c => ?_
  refine .bind (.ofExcept (fun id' hid => ?_) fun _ hr => parseID_refuses hr)
  rw [parseID_text] at hid
  obtain rfl := Except.ok.inj hid
  refine .bind (.mapError ((RouteService.getGatewayRouteConfig_ends id).mono (fun rs s' hrs => ?_)
    fun e _ _ => missing_refuses _ _ e))
  have hrows : ∀ config, some rs = some config → ∀ r ∈ config, r ∈ s.routes ∧ r.gatewayID = id ∧
    r.status = .active := by
    rintro _ ⟨⟩ r hr
    exact (hrs.2.1 r).mp hr
  exact .bind (.mapError (.attempt (Ends.save (fun _ _ _ _ => .pure (reply_ok hrows)) fun _ => .pure (reply_ok hrows))))

end

/-! ## The loops -/

/-- A reconcile loop: how it fetches a configuration, and `Reconcile` of its service. `X` is what the system
decides in a call, and `use` what else happens to the service. -/
structure AgentLoop (κ ρ : Type) (X A : Type*) where
  fetch : Network → M κ
  reconcile : X → κ → ρ → Except Err Unit × ρ
  use : A → ρ → ρ

/-- A controller and a service of an agent. -/
structure Edge (ρ : Type) where
  world : World
  service : ρ
  /-- the store that the last good round has found -/
  found : Option Store

inductive EdgeEvent (X A : Type*) where
  /-- whatever happens at the controller -/
  | controller (w : World)
  | round (v : Env) (net : Network) (x : X)
  | use (a : A)

namespace AgentLoop
variable {κ ρ : Type} {X A : Type*} (l : AgentLoop κ ρ X A)

def round (net : Network) (x : X) : Prog Call Env (World × ρ) Err Unit := do
  let config ← (l.fetch net).onFst
  .call .library fun _ s => ((l.reconcile x config s.2).1, s.1, (l.reconcile x config s.2).2)

def step (e : Edge ρ) : EdgeEvent X A → Edge ρ
  | .controller w => { e with world := w }
  | .round v net x =>
    match (l.round net x).exec v (e.world, e.service) with
    | (.ok _, w, r) => { world := w, service := r, found := some e.world.store }
    | (.error _, w, r) => { e with world := w, service := r }
  | .use a => { e with service := l.use a e.service }

def run (e : Edge ρ) (events : List (EdgeEvent X A)) : Edge ρ := events.foldl l.step e

/-- What holds of the service and the store found, if every configuration is `Told` by the store. -/
structure Keeps (Told : Store → κ → Prop) (I : Option Store → ρ → Prop) : Prop where
  fetch : ∀ v s net, Ends v s (l.fetch net) (fun config _ => Told s config) fun _ _ => True
  refused : ∀ x config r e r', l.reconcile x config r = (.error e, r') → r' = r
  round : ∀ x config s found r r', I found r → Told s config → l.reconcile x config r = (.ok (), r') → I (some s) r'
  use : ∀ a found r, I found r → I found (l.use a r)

variable {l} {Told : Store → κ → Prop} {I : Option Store → ρ → Prop} {e : Edge ρ}

theorem Keeps.step (h : l.Keeps Told I) (he : I e.found e.service) (ev : EdgeEvent X A) :
    I (l.step e ev).found (l.step e ev).service := by
  cases ev with
  | controller w => exact he
  | use a => exact h.use a _ _ he
  | round v net x =>
    simp only [AgentLoop.step, AgentLoop.round, Prog.exec_bind, Prog.exec_onFst]
    rcases hf : (l.fetch net).exec v e.world with ⟨err | config, w⟩
    · exact he
    · have htold := (h.fetch v _ net).ok rfl hf
      simp only [Prog.exec_call]
      rcases hr : l.reconcile x config e.service with ⟨err | u, r⟩
      · exact h.refused _ _ _ _ _ hr ▸ he
      · exact h.round _ _ _ _ _ _ he htold hr

theorem Keeps.run (h : l.Keeps Told I) (he : I e.found e.service) (events : List (EdgeEvent X A)) :
    I (l.run e events).found (l.run e events).service := by
  induction events generalizing e with
  | nil => exact he
  | cons ev events ih => exact ih (h.step he ev)

theorem found_round {e' : Edge ρ} {v : Env} {net : Network} {x : X} (h : l.run e [.round v net x] = e')
    (hok : ((l.round net x).exec v (e.world, e.service)).1.isOk) : e'.found = some e.world.store := by
  rw [← h]
  simp only [AgentLoop.run, List.foldl, AgentLoop.step]
  split
  · rfl
  · next herr => cases herr ▸ hok

end AgentLoop

def Sample.agentToken : String :=
  server.tokenSvc.token Env.calm { userID := 7, tenantID := some 100, role := .superUser } 0

/-! ## DNS -/

section
open DnsServer

/-- `dnsReconcileLoop`; queries are counted. -/
def dnsLoop (lt : Letters) (srv : Server) (c : NodeClient) :
    AgentLoop (List DNSService.ZoneWithRecords) DnsServer.Server Unit Nat where
  fetch := c.fetchDNSConfig srv
  reconcile _ config d :=
    let (r, d) := (DnsServer.reconcile lt (some config)).exec () d
    (r.mapError .text, d)
  use n d := { d with queriesTotal := n }

/-- The server knows the zones that are for the node, with their records, and of those that match a name answers from
one with the longest name. -/
structure DnsServer.Server.Serves (lt : Letters) (s : Store) (id : ID) (d : DnsServer.Server) : Prop where
  unknown : ∀ qname, d.zoneAt qname = none ↔
    ∀ z, DNSService.zones.Wanted s id z → ¬ DnsServer.Server.matchesZone qname (lt.toLower z.name.toList)
  known : ∀ qname zd, d.zoneAt qname = some zd → ∃ zwr : DNSService.ZoneWithRecords,
    zd = buildZoneData lt zwr ∧ DNSService.zones.Wanted s id zwr.zone ∧ zwr.records.Perm (s.recordsOf zwr.zone.id) ∧
      DnsServer.Server.matchesZone qname (servedName lt zwr) ∧
      ∀ z, DNSService.zones.Wanted s id z → DnsServer.Server.matchesZone qname (lt.toLower z.name.toList) →
        byteLength (lt.toLower z.name.toList) ≤ byteLength (servedName lt zwr)

theorem DnsServer.Server.Sound.serves {lt : Letters} {s : Store} {id : ID} {d : DnsServer.Server}
    {cs : List DNSService.ZoneWithRecords} (h : d.Sound lt) (hcs : d.config = some cs)
    (hexact : DNSService.zones.Exact s id (·.zone) (fun c => c.records.Perm (s.recordsOf c.zone.id)) cs) :
    d.Serves lt s id := by
  have hzone : ∀ qname, d.zoneAt qname = (zoneFor lt cs qname).map (buildZoneData lt) := fun qname => by
    rw [h.zones, hcs, Option.getD_some]
  refine ⟨fun qname => ?_, fun qname zd hzd => ?_⟩
  · rw [hzone, Option.map_eq_none_iff, zoneFor_eq_none]
    constructor
    · intro hno z hz
      obtain ⟨zwr, hzwr, rfl⟩ := (hexact.precisely z).mpr hz
      exact hno zwr hzwr
    · intro hno zwr hzwr
      exact hno zwr.zone ((hexact.precisely _).mp ⟨zwr, hzwr, rfl⟩)
  · rw [hzone] at hzd
    obtain ⟨zwr, hfor, rfl⟩ := Option.map_eq_some_iff.mp hzd
    obtain ⟨hmem, hmatch, hlongest⟩ := zoneFor_longest hfor
    refine ⟨zwr, rfl, (hexact.precisely _).mp ⟨zwr, hmem, rfl⟩, hexact.whole zwr hmem, hmatch, fun z hz hz' => ?_⟩
    obtain ⟨zwr', hzwr', rfl⟩ := (hexact.precisely z).mpr hz
    exact hlongest zwr' hzwr' hz'

/-- After any run, a query is answered from the zones that the store of the last good round has for the node. -/
theorem dns_follows_store (lt : Letters) (axfrEnabled : Bool) (srv : Server) (id : ID) (apiToken : String) (w : World)
    (events : List (EdgeEvent Unit Nat)) :
    let e := (dnsLoop lt srv ⟨id.text, apiToken⟩).run ⟨w, .started, none⟩ events
    (∀ r, ((handleQuery lt axfrEnabled r).exec () e.service).1 = .ok (respond lt axfrEnabled r e.service.zoneAt)) ∧
      e.found.elim (∀ qname, e.service.zoneAt qname = none) fun s =>
        DNSService.Fits s id → e.service.Serves lt s id := by
  have hkeeps : (dnsLoop lt srv ⟨id.text, apiToken⟩).Keeps (DNSService.Tells · id) fun found d =>
      d.Sound lt ∧ found.elim (d.config = none) fun s => ∃ cs, d.config = some cs ∧ DNSService.Tells s id cs := by
    have hreconcile : ∀ cs d, (dnsLoop lt srv ⟨id.text, apiToken⟩).reconcile () cs d =
        if d.running then (.ok (), d.reconcile lt (some cs)) else (.error (.text "dns server not running"), d) :=
          fun cs d => by
      cases hrun : d.running <;> simp [dnsLoop, DnsServer.reconcile, Prog.exec_call, hrun, Except.mapError]
    refine ⟨fun v s net => NodeClient.fetchDNSConfig_ends id apiToken net, fun _ cs d e d' h => ?_,
      fun _ cs s found d d' hd htold h => ?_, fun n found d hd => ⟨DnsServer.Server.Step.sound (.count n) hd.1, hd.2⟩⟩
    · rw [hreconcile] at h
      split at h
      · cases h
      · exact (Prod.mk.inj h).2.symm
    · rw [hreconcile, if_pos hd.1.running] at h
      cases h
      exact ⟨.reconcile hd.1.running _, cs, rfl, htold⟩
  intro e
  obtain ⟨hsound, hfound⟩ := hkeeps.run (e := ⟨w, DnsServer.Server.started, none⟩)
    ⟨DnsServer.Server.sound_started lt, rfl⟩ events
  refine ⟨fun r => exec_handleQuery hsound, ?_⟩
  cases hs : e.found with
  | none =>
    rw [hs] at hfound
    intro qname
    rw [hsound.zones, hfound]
    rfl
  | some s =>
    rw [hs] at hfound
    obtain ⟨cs, hcs, hexact⟩ := hfound
    exact fun hfits => hsound.serves hcs (hexact hfits)

theorem dns_follows_store_round :
    ∃ e, (dnsLoop Sample.letters Sample.server ⟨ID.text 20, Sample.agentToken⟩).run ⟨⟨0, Sample.served⟩, .started, none⟩
        [.round Env.calm {} ()] = e ∧ e.found = some Sample.served ∧
      e.service.Serves Sample.letters Sample.served 20 := by
  have hrun := dns_follows_store Sample.letters false Sample.server 20 Sample.agentToken ⟨0, Sample.served⟩
    [.round Env.calm {} ()]
  dsimp only at hrun
  generalize he : AgentLoop.run _ _ _ = e at hrun
  have hfound := AgentLoop.found_round he (by decide +kernel)
  rw [hfound] at hrun
  exact ⟨e, rfl, hfound, hrun.2 ⟨fun _ _ _ => (List.length_filter_le _ _).trans (by decide), fun _ _ =>
    (List.length_filter_le _ _).trans (by decide)⟩⟩

end

/-! ## Sites -/

section
open CdnServer Text

/-- `cdnReconcileLoop`; in between, the proxy serves requests, probes origins and purges caches. -/
def cdnLoop (lib : ProxyLib) (srv : Server) (c : NodeClient) :
    AgentLoop (List CDNService.SiteWithOrigins) CdnServer.Node
    ReconcileChoice { m : NodeMove // ∀ config choice, m ≠ .reconcile config choice } where
  fetch := c.fetchCDNConfig srv
  reconcile choice config n :=
    match n.reconcile lib config choice with
    | .ok n' => (.ok (), n')
    | .error e => (.error (.text e), n)
  use m n := ((NodeRun.step lib m.1 ⟨n, []⟩).map (·.node)).getD n

/-- The site lists the host of the request. -/
def CDNSite.Lists (lib : ProxyLib) (r : CdnServer.Request) (site : CDNSite) : Prop :=
  ∃ d ∈ site.domains, lib.toLower (bytes d) = requestHost lib.toPlatform r

/-- The request goes to one of the sites, which lists its host, or is answered that there is none. -/
def CdnServer.Node.ServesOf (lib : ProxyLib) (r : CdnServer.Request) (Site : CDNSite → Prop)
    (n : CdnServer.Node) : Prop :=
  (∃ site, Site site ∧ site.Lists lib r ∧ n.Handles lib r site) ∨
    (∀ x, n.serveHTTP lib r x = some (none, .noSite, n)) ∧ ∀ site, Site site → ¬ site.Lists lib r

theorem CdnServer.ProxyService.Routes.serves {lib : ProxyLib} {cs : List CDNService.SiteWithOrigins}
    {n : CdnServer.Node}
    (h : n.proxy.Routes lib cs) (r : CdnServer.Request) : n.ServesOf lib r fun site => ∃ swo ∈ cs, swo.site = site := by
  cases hfind : n.proxy.sites.find (requestHost lib.toPlatform r) with
  | none =>
    refine .inr ⟨fun x => by rw [Node.serveHTTP, hfind], ?_⟩
    rintro _ ⟨swo, hswo, rfl⟩ ⟨d, hd, hhost⟩
    obtain ⟨row, hrow, hkey⟩ := h.found swo hswo d hd
    exact Table.find_eq_none.mp hfind row hrow (hkey.trans hhost)
  | some row =>
    obtain ⟨hrow, hkey⟩ := Table.find_eq_some.mp hfind
    obtain ⟨swo, hswo, d, hd, heq⟩ := h.row row hrow
    have hroute : n.route lib r = some swo.site := by
      rw [Node.route, hfind, Option.bind_some, ← List.getElem?_map, h.runtimes, List.getElem?_map, hswo,
        Option.map_some]
    exact .inl ⟨_, ⟨swo, List.mem_of_getElem? hswo, rfl⟩, ⟨d, hd, heq.symm.trans hkey⟩, Node.route_handles hroute⟩

/-- After any run, a request goes to a site that the store of the last good round has for the node and that lists
its host, if there is one. -/
theorem sites_follow_store (lib : ProxyLib) (srv : Server) (id : ID) (apiToken : String) (w : World)
    (n : CdnServer.Node)
    (events : List (EdgeEvent ReconcileChoice { m : NodeMove // ∀ config choice, m ≠ .reconcile config choice }))
    (r : CdnServer.Request) :
    let start := { n with proxy := { n.proxy with runtimes := [], sites := ∅, siteByID := ∅ } }
    let e := (cdnLoop lib srv ⟨id.text, apiToken⟩).run ⟨w, start, none⟩ events
    e.found.elim (e.service.ServesOf lib r fun _ => False) fun s =>
      CDNService.Fits s id → e.service.ServesOf lib r (CDNService.sites.Wanted s id) := by
  have hkeeps : (cdnLoop lib srv ⟨id.text, apiToken⟩).Keeps (CDNService.Tells · id) fun found n =>
      ∃ cs, n.proxy.Routes lib cs ∧ found.elim (cs = []) (CDNService.Tells · id cs) := by
    refine ⟨fun v s net => NodeClient.fetchCDNConfig_ends id apiToken net, fun choice cs n e n' h => ?_,
      fun choice cs s found n n' _ htold h => ?_, fun m found n hn => ?_⟩
    · simp only [cdnLoop] at h
      split at h
      · cases h
      · exact (Prod.mk.inj h).2.symm
    · simp only [cdnLoop] at h
      split at h
      · next hok =>
        obtain rfl := (Prod.mk.inj h).2
        exact ⟨cs, Node.reconcile_routes hok, htold⟩
      · cases h
    · obtain ⟨cs, hroutes, hcs⟩ := hn
      simp only [cdnLoop]
      cases hstep : NodeRun.step lib m.1 ⟨n, []⟩ with
      | none => exact ⟨cs, hroutes, hcs⟩
      | some s' => exact ⟨cs, (NodeRun.step_inv hstep).routes m.2 hroutes, hcs⟩
  intro start e
  obtain ⟨cs, hroutes, hfound⟩ := hkeeps.run (e := ⟨w, start, none⟩) ⟨[], ⟨rfl, fun _ h => absurd h Table.not_mem_empty,
    fun _ h => absurd h List.not_mem_nil, fun _ h => absurd h Table.not_mem_empty⟩, rfl⟩ events
  have hserves := hroutes.serves r
  cases hs : e.found with
  | none =>
    rw [hs] at hfound
    obtain rfl : cs = [] := hfound
    simpa using hserves
  | some s =>
    rw [hs] at hfound
    intro hfits
    rwa [funext fun site => propext ((hfound hfits).precisely site)] at hserves

theorem sites_follow_store_round :
    ∃ e, (cdnLoop .plain Sample.server ⟨ID.text 20, Sample.agentToken⟩).run
        ⟨⟨0, Sample.served⟩, CdnServer.Sample.node "" (fun _ => ∅), none⟩
        [.round Env.calm {} Sample.reconcileChoice] = e ∧ e.found = some Sample.served ∧
      e.service.ServesOf .plain (Sample.hosted "www.example.org") (CDNService.sites.Wanted Sample.served 20) := by
  -- the events stay a variable while the theorem is applied, so that the run is not computed
  generalize hevents : [EdgeEvent.round Env.calm {} Sample.reconcileChoice] = events
  have hrun := sites_follow_store .plain Sample.server 20 Sample.agentToken ⟨0, Sample.served⟩
    (CdnServer.Sample.node "" fun _ => ∅) events (Sample.hosted "www.example.org")
  dsimp only [CdnServer.Sample.node] at hrun ⊢
  generalize he : AgentLoop.run _ _ events = e at hrun ⊢
  subst hevents
  have hfound := AgentLoop.found_round he (by decide +kernel)
  rw [hfound] at hrun
  exact ⟨e, rfl, hfound, hrun ⟨fun _ _ _ => (List.length_filter_le _ _).trans (by decide), fun _ _ =>
    (List.length_filter_le _ _).trans (by decide)⟩⟩

end

/-! ## Routes -/

section
open Routing

/-- `routeReconcileLoop` and `gatewayRouteReconcileLoop`; besides, the forwarder is stopped. -/
def routeLoop (side : Side) (fetch : Network → M (List side.Item)) :
    AgentLoop (List side.Item) (Forwarder side) Os Os where
  fetch := fetch
  reconcile v config f := f.reconcile v (some config)
  use v f := (f.stop v).2

/-- The forwarder listens, and sends traffic, as routes that are `Told` by the store found want it. -/
def Routing.Forwarder.Follows {side : Side} (Told : Store → side.Item → Prop) (found : Option Store)
    (f : Forwarder side) : Prop :=
  (∀ l ∈ f.sockets, ∃ s d, found = some s ∧ Told s d ∧ side.Uses d l.transport ∧ l.addr = side.listen d) ∧
    ∀ t a, ∀ b ∈ f.targets t a, ∃ s d, found = some s ∧ Told s d ∧ side.Uses d t ∧ (side.listen d).Takes a ∧
      b = side.dial d

theorem routeLoop_follows {side : Side} {Told : Store → side.Item → Prop} {fetch : Network → M (List side.Item)}
    (hfetch : ∀ v s net, Ends v s (fetch net) (fun cs _ => ∀ d ∈ cs, Told s d) fun _ _ => True) (w : World)
    (events : List (EdgeEvent Os Os)) :
    ((routeLoop side fetch).run ⟨w, (Forwarder.new side).start.2, none⟩ events).service.Follows Told
      ((routeLoop side fetch).run ⟨w, (Forwarder.new side).start.2, none⟩ events).found := by
  have hkeeps : (routeLoop side fetch).Keeps (fun s cs => ∀ d ∈ cs, Told s d) fun found f =>
      f.WF ∧ ∀ rt ∈ f.routes, ∃ s d, found = some s ∧ Told s d ∧ side.fields rt.item = side.fields d := by
    refine ⟨hfetch, fun v cs f e f' h => ?_, fun v cs s found f f' hf htold h => ?_, fun v found f hf => ?_⟩
    · simp only [routeLoop, Forwarder.reconcile] at h
      split at h
      · exact (Prod.mk.inj h).2.symm
      · cases h
    · obtain rfl : (f.reconcile v (some cs)).2 = f' := congrArg Prod.snd h
      refine ⟨hf.1.reconcile _, fun rt hrt => ?_⟩
      obtain ⟨d, hd, -, hfields⟩ := Forwarder.reconcile_agrees hf.1 hrt
      exact ⟨s, d, rfl, htold d (Table.mem_of_mem_ofList hd), hfields⟩
    · exact ⟨hf.1.stop, fun rt hrt => hf.2 rt (mem_routes_of_run (c := .stop) hf.1 (by simp) hrt)⟩
  obtain ⟨hwf, hroutes⟩ := hkeeps.run (e := ⟨w, (Forwarder.new side).start.2, none⟩)
    ⟨Forwarder.WF.new.start, fun _ h => absurd h Table.not_mem_empty⟩ events
  refine ⟨fun l hl => ?_, fun t a b hb => ?_⟩
  · obtain ⟨rt, hrt, hown⟩ := hwf.owned l hl
    obtain ⟨s, d, hs, hd, hfields⟩ := hroutes rt hrt
    have hshaped := hwf.shaped rt hrt
    exact ⟨s, d, hs, hd, (Side.uses_of_fields hfields _).mp (hshaped.uses hown),
      (hshaped.addr hown).trans (side.traffic _ _ hfields).1⟩
  · obtain ⟨rt, hrt, hu, htakes, rfl⟩ := (Forwarder.mem_targets hwf).mp hb
    obtain ⟨s, d, hs, hd, hfields⟩ := hroutes rt hrt
    obtain ⟨hlisten, hdial, -⟩ := side.traffic _ _ hfields
    exact ⟨s, d, hs, hd, (Side.uses_of_fields hfields t).mp hu, hlisten ▸ htakes, hdial⟩

/-- After any run, a node listens at entry addresses of its routes in the store of the last good round only, and
sends what arrives there to their gateways only. -/
theorem node_routes_follow_store (srv : Server) (id : ID) (apiToken : String) (w : World)
    (events : List (EdgeEvent Os Os)) :
    let e := (routeLoop RouteServer.side (NodeClient.fetchRouteConfig srv ⟨id.text, apiToken⟩)).run
      ⟨w, (Forwarder.new RouteServer.side).start.2, none⟩ events
    e.service.Follows (RouteService.Configured · id) e.found :=
  routeLoop_follows (fun _ _ net => NodeClient.fetchRouteConfig_ends id apiToken net) w events

/-- And a gateway sends what arrives at its overlay address to destinations of the active routes through it only. -/
theorem gateway_routes_follow_store (srv : Server) (id : ID) (apiToken ip : String) (w : World)
    (events : List (EdgeEvent Os Os)) :
    let e := (routeLoop (GatewayRt.side ip) (GatewayClient.fetchRouteConfig srv id.text apiToken)).run
      ⟨w, (Forwarder.new (GatewayRt.side ip)).start.2, none⟩ events
    e.service.Follows (fun s (r : Route) => r ∈ s.routes ∧ r.gatewayID = id ∧ r.status = .active) e.found :=
  routeLoop_follows (fun _ _ net => GatewayClient.fetchRouteConfig_ends id apiToken net) w events

end

end EdgeFabric
