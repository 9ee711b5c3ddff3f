/-
What a node's agent can do with its token: read, and have the controller note that
it has fetched its own configuration. The role of the token refuses every action
that changes something; the handlers that ask for no permission act on the account
of the caller, and a node has none; the configurations are guarded by the identifier
in their path, which must be the node's.

Identifiers are compared without regard to what they are identifiers of, so that an
agent would also get the routes of a gateway with its node's identifier.
-/
import EdgeFabric.Security.NodeAccess

namespace EdgeFabric

/-! ## What may change -/

/-- The same node, but for the time of its last fetch of a configuration. -/
def Node.SyncedTo (n n' : Node) : Prop := n' = { n with lastConfigSync := n'.lastConfigSync, updatedAt := n'.updatedAt }

/-- Nothing differs but the times of node `id` and new entries of the audit log. -/
structure Store.Confined (id : ID) (s s' : Store) : Prop where
  rest : s' = { s with nodes := s'.nodes, auditEvents := s'.auditEvents }
  nodes : ∃ f : Node → Node, s'.nodes.rows = s.nodes.rows.map f ∧ ∀ m, f m = m ∨ m.id = id ∧ m.SyncedTo (f m)
  auditEvents : ∃ rows, s'.auditEvents.rows = s.auditEvents.rows ++ rows

namespace Store.Confined
variable {id : ID} {s s' s'' : Store}

theorem refl (s : Store) : s.Confined id s :=
  ⟨rfl, ⟨fun m => m, (List.map_id' _).symm, fun _ => .inl rfl⟩, [], (List.append_nil _).symm⟩

theorem trans (h : s.Confined id s') (h' : s'.Confined id s'') : s.Confined id s'' := by
  obtain ⟨f, hf, hfm⟩ := h.nodes
  obtain ⟨g, hg, hgm⟩ := h'.nodes
  obtain ⟨rows, hrows⟩ := h.auditEvents
  obtain ⟨rows', hrows'⟩ := h'.auditEvents
  refine ⟨?_, ⟨g ∘ f, by rw [hg, hf, List.map_map], fun m => ?_⟩, rows ++ rows', by
    rw [hrows', hrows, List.append_assoc]⟩
  · rw [h'.rest, h.rest]
  · rcases hfm m with hm | ⟨hid, hm⟩
    · rcases hgm m with hm' | ⟨hid', hm'⟩
      · exact .inl (by rw [Function.comp, hm, hm'])
      · exact .inr ⟨hid', by rwa [Function.comp, hm]⟩
    · refine .inr ⟨hid, ?_⟩
      rcases hgm (f m) with hm' | ⟨-, hm'⟩
      · rwa [Function.comp, hm']
      · rw [Node.SyncedTo] at hm hm' ⊢
        rw [Function.comp, hm', hm]

theorem users (h : s.Confined id s') : s'.users = s.users := by rw [h.rest]

theorem gateways (h : s.Confined id s') : s'.gateways = s.gateways := by rw [h.rest]

theorem log {auditEvents : Table AuditEvent.id} (h : ∃ rows, auditEvents.rows = s.auditEvents.rows ++ rows) :
    s.Confined id { s with auditEvents } :=
  ⟨rfl, ⟨fun m => m, (List.map_id' _).symm, fun _ => .inl rfl⟩, h⟩

theorem sync {now : Time} {u : Unit} (h : s.updateNodeConfigSync id now = .ok (u, s')) : s.Confined id s' := by
  obtain ⟨-, old, nodes, hold, hset, rfl⟩ := updateIn_ok h
  obtain ⟨hmem, hkey⟩ := Table.find_eq_some.mp hold
  have hrows : nodes.rows =
      s.nodes.rows.map fun m => if m.id = id then { m with lastConfigSync := some now, updatedAt := now } else m := by
    rw [(Table.set_eq_some hset).2]
    refine List.map_congr_left fun m hm => ?_
    dsimp only
    split
    · next hid =>
      have hsame : m = old := Table.key_inj hm hmem hid
      rw [hsame, if_pos hkey]
    · next hid => rw [if_neg (hkey ▸ hid)]
  refine ⟨rfl, ⟨_, hrows, fun m => ?_⟩, [], (List.append_nil _).symm⟩
  split
  · next hid => exact .inr ⟨hid, rfl⟩
  · exact .inl rfl

end Store.Confined

/-! ## Requests that only look -/

section
variable {v : Env} {s : Store} {α β γ : Type}

abbrev Unchanged {ε : Type} (v : Env) (s : Store) (p : Prog Call Env World ε α) : Prop :=
  Ends v s p (fun _ s' => s' = s) fun _ s' => s' = s

theorem Unchanged.viewer (q : Viewer α) : Unchanged v s q.1 := Ends.reads (fun _ => rfl) fun _ => rfl

theorem Crud.handle_reads (h : Crud α β γ) (c : Caller) {req : ResourceRequest String β γ}
    (hreads : req.action.reads = true) : Unchanged v s (h.handle c req).1 := by
  cases req with
  | list parent q => exact .viewer (h.handleList parent q)
  | get id => exact .viewer (h.handleGet id)
  | create parent body => cases hreads
  | update id body => cases hreads
  | delete id => cases hreads

theorem TenantHandler.handle_reads (c : Caller)
    {req : ResourceRequest Unit TenantService.CreateRequest TenantService.UpdateRequest}
    (hreads : req.action.reads = true) : Unchanged v s (handle c req).1 := by
  cases req with
  | list parent q => exact .viewer (list q)
  | get id => exact .viewer (get id)
  | create parent body => cases hreads
  | update id body => cases hreads
  | delete id => cases hreads

theorem ServiceRequest.handle_reads (srv : Server) (c : Caller) (req : ServiceRequest) (howner : req.owner = none)
    (hreads : req.permission.action.reads = true) : Unchanged v s (req.handle srv c).1 := by
  cases req with
  | tenant req => exact TenantHandler.handle_reads c hreads
  | tenantUsage id => exact .viewer (getUsage id)
  | auditEvents q => exact .viewer (listAuditEvents c q)
  | status => exact .viewer (StatusHandler.status c)
  | dnsZone req => exact DNSZoneHandler.handle_reads c hreads
  | dnsRecord req => exact DNSRecordHandler.handle_reads c hreads
  | cdnSite req => exact CDNSiteHandler.handle_reads c hreads
  | cdnOrigin req => exact (CDNOriginHandler srv.allowPrivateOrigins).handle_reads c hreads
  | route req => exact RouteHandler.handle_reads c hreads
  | bgpSession req => exact BGPSessionHandler.handle_reads c hreads
  | ipAllocation req => exact IPAllocationHandler.handle_reads c hreads
  | node req =>
    cases req with
    | list parent q => exact .viewer (NodeHandler.list c q)
    | get id => exact .viewer (NodeHandler.handleGet c id)
    | _ => cases hreads
  | gateway req =>
    cases req with
    | list parent q => exact .viewer (GatewayHandler.list c q)
    | get id => exact .viewer (GatewayHandler.handleGet c id)
    | _ => cases hreads
  | listNodeGroups tenantID q => exact .viewer (NodeGroupHandler.list c tenantID q)
  | getNodeGroup id => exact .viewer (NodeGroupHandler.get c id)
  | listSSHKeys q => exact .viewer (SSHKeyHandler.list q)
  | getSSHKey id => exact .viewer (SSHKeyHandler.get id)
  | nodeJobs id q => exact .viewer (ProvisioningHandler.listNodeJobs id q)
  | job id => exact .viewer (ProvisioningHandler.getJob id)
  | nodeNetworking id => exact .viewer (NodeNetworkingHandler.getState id)
  | wireGuardPeers q => exact .viewer (WireGuardHandler.listPeers q)
  | nodeConfig id part => cases howner
  | gatewayConfig id => cases howner
  | _ => cases hreads

end

/-! ## The middleware -/

section
variable {v : Env} {s : Store} {ts : TokenService}
variable {p : Presented} {n : Node} {t : Time}

theorem auth_session_ends {token : String} (hp : p.token = .ok token)
    (hsession : Text.strip "ef_".toList token.toList = none) (openPath : Bool) :
    Ends v s (auth ts p openPath) (fun _ s' => s' = s) fun reply s' => s' = s ∧ reply.status ≠ 200 := by
  refine .bind (.ofExcept (fun token' htoken => ?_) fun r hr => by rw [hp] at hr; cases hr)
  rw [hp] at htoken
  cases htoken
  refine .bind ?_
  rw [authenticate, hsession, if_neg (by decide)]
  refine .mapError (Ends.ask (fun t claims h => ?_) fun _ => ⟨rfl, by decide⟩)
  refine .bind (.ofExcept (fun _ _ => .pure rfl) fun r hr => ⟨rfl, ?_⟩)
  rw [require_error hr]
  decide

theorem Presented.Shows.agent {claims : Claims}
    (hp : p.token = .ok (ts.token v n.agentClaims t)) (h : p.Shows ts v s claims) : claims = n.agentClaims := by
  obtain ⟨token, htoken, hauth⟩ := h
  rw [hp] at htoken
  obtain rfl := Except.ok.inj htoken
  exact authenticated_token hauth

theorem requirePermission_agent_ok {p : Permission} {u : Unit}
    (h : requirePermission n.agentClaims p = .ok u) : p.action.reads = true ∧ n.tenantID ≠ none := by
  have hrole : Role.readOnly ≠ Role.superUser := by decide
  rcases authorize_ok (requirePermission_ok h) with hsuper | ⟨hreads, -, own, hown, -⟩
  · exact absurd hsuper hrole
  · refine ⟨hreads rfl, fun hnone => ?_⟩
    have hown : n.tenantID = some own := hown
    rw [hnone] at hown
    cases hown

theorem requireResourceOwnerOrAdmin_agent_ok (htenant : n.tenantID ≠ none) {name raw : String} {u : Unit}
    (h : requireResourceOwnerOrAdmin n.agentClaims name raw = .ok u) : parseID name raw = .ok n.id := by
  have hrole : Role.readOnly ≠ Role.admin ∧ Role.readOnly ≠ Role.superUser := by decide
  have hother : ¬ (n.agentClaims.tenantID = none ∨ n.agentClaims.role = .admin ∨ n.agentClaims.role = .superUser) :=
    not_or.mpr ⟨htenant, not_or.mpr hrole⟩
  rw [requireResourceOwnerOrAdmin, if_neg hother] at h
  obtain ⟨id, hid, h⟩ := bind_ok.mp h
  have hsame : n.id = id := require_ok.mp h
  rw [hid, hsame]

theorem ServiceRequest.middleware_agent
    (hp : p.token = .ok (ts.token v n.agentClaims t)) (req : ServiceRequest) :
    Ends v s (req.middleware ts p)
      (fun claims s' => s' = s ∧ claims = n.agentClaims ∧ req.permission.action.reads = true ∧
        ∀ raw, req.owner = some raw → parseID "id" raw = .ok n.id)
      fun reply s' => s' = s ∧ reply.status ≠ 200 := by
  refine .bind (((auth_ends p false).and (auth_session_ends hp (TokenService.strip_token ts v _ t) false)).mono
    (fun claims s' h => ?_) fun _ _ h => h.2)
  obtain ⟨⟨-, hshows, -⟩, rfl⟩ := h
  obtain rfl := hshows.agent hp
  refine .bind (.ofExcept (fun u hperm => ?_) fun r hr => ⟨rfl, (requirePermission_refuses hr).status⟩)
  obtain ⟨hreads, htenant⟩ := requirePermission_agent_ok hperm
  cases howner : req.owner with
  | none => exact .pure ⟨rfl, rfl, hreads, nofun⟩
  | some raw =>
    refine .bind (.ofExcept (fun u hu => ?_) fun r hr => ⟨rfl, (requireResourceOwnerOrAdmin_refuses hr).status⟩)
    refine .pure ⟨rfl, rfl, hreads, fun raw' h => ?_⟩
    cases h
    exact requireResourceOwnerOrAdmin_agent_ok htenant hu

theorem AccountRequest.middleware_agent
    (hp : p.token = .ok (ts.token v n.agentClaims t)) (req : AccountRequest) :
    Ends v s (req.middleware ts p)
      (fun claims s' => s' = s ∧ claims = n.agentClaims ∧
        ∀ permission, req.permission = some permission → permission.action.reads = true)
      fun _ s' => s' = s := by
  refine .bind (((auth_ends p req.openPath).and
    (auth_session_ends hp (TokenService.strip_token ts v _ t) req.openPath)).mono
      (fun claims s' h => ?_) fun _ _ h => h.2.1)
  obtain ⟨⟨-, hshows, -⟩, rfl⟩ := h
  obtain rfl := hshows.agent hp
  cases hperm : req.permission with
  | none => exact .pure ⟨rfl, rfl, nofun⟩
  | some permission =>
    refine .bind (.ofExcept (fun u hu => ?_) fun _ _ => rfl)
    refine .pure ⟨rfl, rfl, fun permission' h => ?_⟩
    cases h
    exact (requirePermission_agent_ok hu).1

end

/-! ## What the agent's requests do -/

/-- The request carries the token and no other credentials: no password, and no enrollment
token. -/
def Request.CarriesOnly (token : String) (r : Request) : Prop :=
  r.presented.token = .ok token ∧
    match r.endpoint with
    | .login (.ok _) | .enroll (.ok _) => False
    | _ => True

/-- A configuration that the request is answered with is the one of node `id`. -/
def Request.OwnConfig (id : ID) (r : Request) (resp : Response) : Prop :=
  match r.endpoint with
  | .service (.nodeConfig raw _) => resp.reply.status = 200 → parseID "id" raw = .ok id
  | .service (.gatewayConfig _) => resp.reply.status ≠ 200
  | _ => True

section
variable {v : Env} {s : Store} {n : Node}

theorem NodeConfigHandler.get_confined (hub : WireGuardHub) {raw : String} {id : ID} (hraw : parseID "id" raw = .ok id)
    (part : NodeConfig) :
    Ends v s (get hub raw part).1 (fun _ s' => s.Confined id s') fun _ s' => s.Confined id s' := by
  refine .bind (.ofExcept (fun id' hid => ?_) fun _ _ => .refl s)
  rw [hraw] at hid
  obtain rfl := Except.ok.inj hid
  refine .bind (Ends.reads (q := config hub id part) (fun conf => ?_) fun _ => .refl s)
  refine .bind (.mapError (.attempt (Ends.save (fun t u s' hs => ?_) fun e => ?_)))
  · exact .pure (.sync hs)
  · exact .pure (.refl s)

theorem GatewayConfigHandler.getRouteConfig_missing {raw : String} {id : ID} (hraw : parseID "id" raw = .ok id)
    (hgone : ∀ g ∈ s.gateways, g.id ≠ id) :
    Ends v s (getRouteConfig raw).1 (fun _ _ => False) fun reply s' => s' = s ∧ reply.status ≠ 200 := by
  refine .bind (.ofExcept (fun id' hid => ?_) fun r hr => ⟨rfl, (parseID_refuses hr).status⟩)
  rw [hraw] at hid
  obtain rfl := Except.ok.inj hid
  refine .bind (.mapError (.bind (.mapError (Ends.read (fun g hg => ?_) fun e =>
    ⟨rfl, (missing_refuses _ _ _).status⟩))))
  obtain ⟨hmem, hid⟩ := Table.find_eq_some.mp (selectRow_ok.mp hg)
  exact absurd hid (hgone g hmem)

theorem AccountRequest.handle_confined (ts : TokenService) (issuer : String) (c : Caller)
    (hclaims : c.claims.userID = n.id) (hgone : ∀ u ∈ s.users, u.id ≠ n.id) (req : AccountRequest)
    (hreads : ∀ permission, req.permission = some permission → permission.action.reads = true) :
    Ends v s (req.handle ts issuer c) (fun _ s' => s.Confined n.id s') fun _ s' => s.Confined n.id s' := by
  have hnone : ∀ u, s.users.find c.claims.userID ≠ some u := by
    intro u hu
    obtain ⟨hmem, hid⟩ := Table.find_eq_some.mp hu
    exact hgone u hmem (hid.trans hclaims)
  cases req with
  | me => exact .bind (Ends.reads (q := AuthHandler.me c) (fun _ => .pure (.refl s)) fun _ => .refl s)
  | listAPIKeys q =>
    exact .bind (Ends.reads (q := AuthHandler.listAPIKeys c q) (fun _ => .pure (.refl s)) fun _ => .refl s)
  | verifyTOTP body =>
    refine .bind (.ofExcept (fun req _ => ?_) fun _ _ => .refl s)
    refine .bind (.mapError (.attempt ((AuthService.authenticateTOTP_ends _ req.code).mono ?_ ?_)))
    · rintro _ s' ⟨-, u, hu, -⟩
      exact absurd hu (hnone u)
    · intro e s' h
      subst h
      exact .bind (auditLog_appends fun auditEvents hrows => .pure (.log hrows))
  | enrollTOTP =>
    refine .bind (.bind (.mapError ((AuthService.enrollTOTP_ends issuer _).mono ?_ ?_)))
    · rintro _ s' ⟨u, _, _, hu, -⟩
      exact absurd hu (hnone u)
    · intro e s' h
      subst h
      exact .refl s'
  | confirmTOTP body =>
    refine .bind (.bind (.ofExcept (fun req _ => ?_) fun _ _ => .refl s))
    refine .bind (.mapError ((AuthService.confirmTOTP_ends _ req.code).mono ?_ ?_))
    · rintro _ s' ⟨u, _, hu, -⟩
      exact absurd hu (hnone u)
    · intro e s' h
      subst h
      exact .refl s'
  | user req =>
    have hreads := hreads _ rfl
    cases req with
    | list parent q => exact .bind (Ends.reads (q := UserHandler.list c q) (fun _ => .pure (.refl s)) fun _ => .refl s)
    | get id => exact .bind (Ends.reads (q := UserHandler.get id) (fun _ => .pure (.refl s)) fun _ => .refl s)
    | _ => cases hreads
  | createAPIKey body => cases hreads _ rfl
  | deleteAPIKey id => cases hreads _ rfl

theorem Request.OwnConfig.of_status {id : ID} {r : Request} {reply : Reply} (h : reply.status ≠ 200) :
    r.OwnConfig id { reply } := by
  unfold OwnConfig
  split
  · exact fun hok => absurd hok h
  · exact h
  · trivial

theorem Server.serve_confined (srv : Server) {t : Time} {r : Request}
    (hr : r.CarriesOnly (srv.tokenSvc.token v n.agentClaims t)) (husers : ∀ u ∈ s.users, u.id ≠ n.id)
    (hgateways : ∀ g ∈ s.gateways, g.id ≠ n.id) :
    Ends v s (srv.serve r) (fun resp s' => s.Confined n.id s' ∧ r.OwnConfig n.id resp)
      fun reply s' => s.Confined n.id s' ∧ r.OwnConfig n.id { reply } := by
  obtain ⟨addr, presented, endpoint⟩ := r
  obtain ⟨hp, hother⟩ := hr
  cases endpoint with
  | login body =>
    cases body with
    | ok req => exact hother.elim
    | error msg => exact .bind (.ofExcept (fun _ h => by cases h) fun _ _ => ⟨.refl s, trivial⟩)
  | logout => exact .pure ⟨.refl s, trivial⟩
  | enroll body =>
    cases body with
    | ok req => exact hother.elim
    | error msg => exact .bind (.ofExcept (fun _ h => by cases h) fun _ _ => ⟨.refl s, trivial⟩)
  | account req =>
    refine .bind ((AccountRequest.middleware_agent hp req).mono ?_ ?_)
    · rintro claims s' ⟨rfl, rfl, hreads⟩
      exact (AccountRequest.handle_confined srv.tokenSvc srv.totpIssuer _ rfl husers req hreads).mono
        (fun _ _ h => ⟨h, trivial⟩) fun _ _ h => ⟨h, trivial⟩
    · rintro reply s' rfl
      exact ⟨.refl s', trivial⟩
  | service req =>
    refine .bind ((ServiceRequest.middleware_agent hp req).mono ?_ ?_)
    · rintro claims s' ⟨rfl, rfl, hreads, howner⟩
      cases req with
      | nodeConfig raw part =>
        have hraw := howner raw rfl
        refine .bind ((NodeConfigHandler.get_confined srv.hub hraw part).mono (fun _ _ h => ?_) fun _ _ h => ?_)
        · exact .pure ⟨h, fun _ => hraw⟩
        · exact ⟨h, fun _ => hraw⟩
      | gatewayConfig raw =>
        have hmissing := GatewayConfigHandler.getRouteConfig_missing (v := v) (howner raw rfl) hgateways
        refine .bind (hmissing.mono (fun _ _ h => h.elim) fun _ _ h => ?_)
        obtain ⟨rfl, hstatus⟩ := h
        exact ⟨.refl _, hstatus⟩
      | _ =>
        refine .bind ((ServiceRequest.handle_reads srv _ _ rfl hreads).mono (fun _ _ h => ?_) fun _ _ h => ?_)
        all_goals subst h
        · exact .pure ⟨.refl _, trivial⟩
        · exact ⟨.refl _, trivial⟩
    · rintro reply s' ⟨rfl, hstatus⟩
      exact ⟨.refl s', .of_status hstatus⟩

end

/-! ## Confinement -/

/-- Whatever a node's agent sends with its token, in any number of requests, it changes
nothing but the times of its node and the audit log, and gets no configuration but the
node's own, as long as no user and no gateway has the node's identifier. -/
theorem node_agent_confined {srv : Server} {v : Env} {w₀ w₁ : World} {addr : String}
    {body : Decoded EnrollmentHandler.EnrollRequest} {resp : Response} {token : String}
    (henroll : (srv.serve { remoteAddr := addr, endpoint := .enroll body }).exec v w₀ = (.ok resp, w₁))
    (htoken : resp.token = some token) :
    ∃ n ∈ w₀.store.nodes, (∃ ip, resp.reply = .ok (.enrolled n.id ip)) ∧
      ∀ (w : World) (rs : List Request), (∀ u ∈ w.store.users, u.id ≠ n.id) → (∀ g ∈ w.store.gateways, g.id ≠ n.id) →
        (∀ r ∈ rs, r.CarriesOnly token) →
        w.store.Confined n.id (Session.final srv.serve v rs w).store ∧
          ∀ x ∈ Session.run srv.serve v rs w, x.call.OwnConfig n.id (.of x.answer) := by
  obtain ⟨n, hn, t, ip, -, -, hreply, rfl⟩ :=
    (EnrollmentHandler.enroll_issues srv.provisioner addr body).ok rfl henroll token htoken
  refine ⟨n, hn, ⟨ip, hreply⟩, fun w rs husers hgateways hrs => ?_⟩
  -- the users and the gateways stay what they are, so that each request meets the same conditions
  have hstep : ∀ r w', w.store.Confined n.id w'.store → r.CarriesOnly (srv.tokenSvc.token v n.agentClaims (v.now t)) →
      w.store.Confined n.id ((srv.serve r).exec v w').2.store ∧
        r.OwnConfig n.id (.of ((srv.serve r).exec v w').1) := by
    intro r w' hw' hr
    have hone := Response.of_exec (P := fun resp s' => w'.store.Confined n.id s' ∧ r.OwnConfig n.id resp)
      (srv.serve_confined hr (hw'.users ▸ husers) (hw'.gateways ▸ hgateways))
    exact ⟨hw'.trans hone.1, hone.2⟩
  have halong : Session.Along srv.serve v
    (fun r _ => r.CarriesOnly (srv.tokenSvc.token v n.agentClaims (v.now t))) rs w :=
    .of_mem (fun r hr _ => hrs r hr) w
  exact ⟨Session.final_invariant (I := fun w' => w.store.Confined n.id w'.store)
      (fun r w' hw' hr => (hstep r w' hw' hr).1) (.refl _) halong,
    Session.run_forall (I := fun w' => w.store.Confined n.id w'.store) (fun r w' hw' hr => (hstep r w' hw' hr).1)
      (fun r w' hw' hr => (hstep r w' hw' hr).2) (.refl _) halong⟩

namespace Sample

def enrolling : Request := { endpoint := .enroll (.ok { token := "first" }) }

def enrolled (store : Store) : Except Reply Response × World := (server.serve enrolling).exec Env.calm ⟨0, store⟩

def twin : Gateway := onlineGateway 10 "gateway" ""

def twins : Store := { fleet with nodes := ⟨[node 10 100], by decide⟩, gateways := ⟨[twin], by decide⟩ }

def gatewayRequest (token : String) : Request :=
  { presented := { authorization := "Bearer " ++ token }, endpoint := .service (.gatewayConfig (ID.text 10)) }

theorem enrolled_token (store : Store) (h : ((enrolled store).1.toOption.bind Response.token).isSome = true) :
    ∃ resp n t, enrolled store = (.ok resp, (enrolled store).2) ∧ n ∈ store.nodes ∧ t < (enrolled store).2.tick ∧
      resp.token = some (server.tokenSvc.token Env.calm n.agentClaims (Env.calm.now t)) := by
  rcases hrun : enrolled store with ⟨reply | resp, w⟩
  · rw [hrun] at h
    cases h
  · rw [hrun] at h
    obtain ⟨token, htoken⟩ := Option.isSome_iff_exists.mp h
    obtain ⟨n, hn, t, -, -, hlt, -, rfl⟩ :=
      (EnrollmentHandler.enroll_issues server.provisioner "" _).ok rfl hrun token htoken
    exact ⟨resp, n, t, rfl, hn, hlt, htoken⟩

end Sample

theorem node_agent_confined_fetch :
    ∃ resp token, Sample.enrolled Sample.fleet = (.ok resp, (Sample.enrolled Sample.fleet).2) ∧
      resp.token = some token ∧ ∃ n ∈ Sample.fleet.nodes,
        let w := (Sample.enrolled Sample.fleet).2
        w.store.Confined n.id (Session.final Sample.server.serve Env.calm
          [({ nodeID := n.id.text, apiToken := token } : NodeClient).fetch .bgp] w).store := by
  obtain ⟨resp, n₀, t, hrun, -, -, htoken⟩ := Sample.enrolled_token Sample.fleet (by decide)
  have hnone : (Sample.enrolled Sample.fleet).2.store.users.rows = [] ∧
      (Sample.enrolled Sample.fleet).2.store.gateways.rows = [] := by decide
  obtain ⟨n, hn, -, hconfined⟩ := node_agent_confined hrun htoken
  refine ⟨resp, _, hrun, htoken, n, hn, (hconfined _ _ (fun u hu => ?_) (fun g hg => ?_) fun r hr => ?_).1⟩
  · rw [Table.mem_def, hnone.1] at hu
    cases hu
  · rw [Table.mem_def, hnone.2] at hg
    cases hg
  · rw [List.mem_singleton.mp hr]
    exact ⟨Presented.token_bearer (TokenService.token_ne_empty _ _ _ _), trivial⟩

/-- A node's agent gets the routes of a gateway with the same identifier, and the gateway
counts as having fetched them. -/
theorem node_agent_reads_gateway :
    let w := (Sample.enrolled Sample.twins).2
    ∃ resp token, Sample.enrolled Sample.twins = (.ok resp, w) ∧ resp.token = some token ∧
      (∀ u ∈ w.store.users, u.id ≠ 10) ∧
      (Response.of ((Sample.server.serve (Sample.gatewayRequest token)).exec Env.calm w).1).reply.status = 200 ∧
      ((Sample.server.serve (Sample.gatewayRequest token)).exec Env.calm w).2.store.gateways ≠ w.store.gateways := by
  intro w
  obtain ⟨resp, n, t, hrun, hn, hlt, htoken⟩ := Sample.enrolled_token Sample.twins (by decide)
  obtain rfl : n = Sample.node 10 100 := List.mem_singleton.mp hn
  refine ⟨resp, _, hrun, htoken, by decide, ?_⟩
  generalize htok : Sample.server.tokenSvc.token Env.calm (Sample.node 10 100).agentClaims (Env.calm.now t) = token
  have hp : (Sample.gatewayRequest token).presented.token =
      .ok (Sample.server.tokenSvc.token Env.calm (Sample.node 10 100).agentClaims (Env.calm.now t)) := by
    rw [htok]
    exact Presented.token_bearer (htok ▸ TokenService.token_ne_empty _ _ _ _)
  have hmiddleware : ((ServiceRequest.gatewayConfig (ID.text 10)).middleware Sample.server.tokenSvc
      (Sample.gatewayRequest token).presented).exec Env.calm w = (.ok (Sample.node 10 100).agentClaims, w.next) := by
    have howner : requireResourceOwnerOrAdmin (Sample.node 10 100).agentClaims "id" (ID.text 10) = .ok () :=
      requireResourceOwnerOrAdmin_agent _
    have htick : w.tick < 1000 := by decide
    rw [ServiceRequest.middleware_agent_exec rfl hp, if_neg, ServiceRequest.checks, ServiceRequest.owner,
      Option.elim, howner]
    · rfl
    · simp only [Env.calm, TokenService.expiry, Time.unix, Sample.server]
      omega
  have hhandle : ((GatewayConfigHandler.getRouteConfig (ID.text 10)).1.exec Env.calm
      w.next).1.toOption.map Reply.status =
      some 200 ∧ ((GatewayConfigHandler.getRouteConfig (ID.text 10)).1.exec Env.calm w.next).2.store.gateways ≠
        w.store.gateways := by decide
  have hserve : (Sample.server.serve (Sample.gatewayRequest token)).exec Env.calm w = _ :=
    Server.serve_service_exec hmiddleware
  rw [hserve]
  refine ⟨?_, hhandle.2⟩
  have hstatus := hhandle.1
  rcases hx : (GatewayConfigHandler.getRouteConfig (ID.text 10)).1.exec Env.calm w.next with ⟨r | reply, w'⟩
  · rw [hx] at hstatus
    cases hstatus
  · rw [hx] at hstatus
    rw [ServiceRequest.handle, hx]
    exact Option.some.inj hstatus

end EdgeFabric
