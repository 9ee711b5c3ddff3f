/-
The router (`internal/api/router.go`): every endpoint with the middleware in front
of it. Requests come routed, with their path parameters as text and their bodies
decoded. The endpoints that only serve files, metrics and health are left out.
-/
import EdgeFabric.Api.Accounts
import EdgeFabric.Api.Fleet
import EdgeFabric.Api.Services

namespace EdgeFabric

structure Server where
  tokenSvc : TokenService
  /-- the issuer that authenticator apps show -/
  totpIssuer : String
  provisioner : Provisioner
  /-- the hub, as the networking service knows it -/
  hub : WireGuardHub
  allowPrivateOrigins : Bool

/-- A request to an endpoint whose handler leaves the accounts alone. -/
inductive ServiceRequest where
  | tenant (req : ResourceRequest Unit TenantService.CreateRequest TenantService.UpdateRequest)
  | tenantUsage (id : String)
  | auditEvents (query : ListQuery)
  | status
  | dnsZone (req : ResourceRequest String DNSService.CreateZoneRequest DNSService.UpdateZoneRequest)
  | dnsRecord (req : ResourceRequest String DNSService.CreateRecordRequest DNSService.UpdateRecordRequest)
  | cdnSite (req : ResourceRequest String CDNService.CreateSiteRequest CDNService.UpdateSiteRequest)
  | purgeCache (id : String)
  | cdnOrigin (req : ResourceRequest String CDNService.CreateOriginRequest CDNService.UpdateOriginRequest)
  | route (req : ResourceRequest String RouteService.CreateRouteRequest RouteService.UpdateRouteRequest)
  | bgpSession (req : ResourceRequest String NetworkingService.CreateBGPSessionRequest
      NetworkingService.UpdateBGPSessionRequest)
  | ipAllocation (req : ResourceRequest String NetworkingService.CreateIPAllocationRequest
      NetworkingService.UpdateIPAllocationRequest)
  | node (req : ResourceRequest Unit FleetService.CreateNodeRequest FleetService.UpdateNodeRequest)
  | nodeHeartbeat (id : String)
  | gateway (req : ResourceRequest Unit FleetService.CreateGatewayRequest FleetService.UpdateGatewayRequest)
  | gatewayHeartbeat (id : String)
  | createNodeGroup (body : Decoded FleetService.CreateNodeGroupRequest)
  | listNodeGroups (tenantID : String) (query : ListQuery)
  | getNodeGroup (id : String)
  | deleteNodeGroup (id : String)
  | addNodeToGroup (id nodeID : String)
  | removeNodeFromGroup (id nodeID : String)
  | createSSHKey (body : Decoded SSHKeyHandler.CreateRequest)
  | listSSHKeys (query : ListQuery)
  | getSSHKey (id : String)
  | deleteSSHKey (id : String)
  | rotateSSHKey (id : String)
  | deploySSHKey (id : String)
  | nodeAction (id : String) (action : ProvisioningAction)
  | enrollmentToken (id : String)
  | nodeJobs (id : String) (query : ListQuery)
  | job (id : String)
  | nodeConfig (id : String) (part : NodeConfig)
  | gatewayConfig (id : String)
  | nodeNetworking (id : String)
  | wireGuardPeers (query : ListQuery)

namespace ServiceRequest

def permission : ServiceRequest → Permission
  | .tenant req => TenantHandler.permission req
  | .tenantUsage _ => { action := .read, resource := .tenant }
  | .auditEvents _ => { action := .list, resource := .auditEvent }
  | .status => { action := .read, resource := .node }
  | .dnsZone req => DNSZoneHandler.permission req
  | .dnsRecord req => DNSRecordHandler.permission req
  | .cdnSite req => CDNSiteHandler.permission req
  | .purgeCache _ => { action := .update, resource := .cdnSite }
  | .cdnOrigin req => (CDNOriginHandler false).permission req
  | .route req => RouteHandler.permission req
  | .bgpSession req => BGPSessionHandler.permission req
  | .ipAllocation req => IPAllocationHandler.permission req
  | .node req => { action := req.action, resource := NodeHandler.rbac }
  | .nodeHeartbeat _ => { action := .update, resource := NodeHandler.rbac }
  | .gateway req => { action := req.action, resource := GatewayHandler.rbac }
  | .gatewayHeartbeat _ => { action := .update, resource := GatewayHandler.rbac }
  | .createNodeGroup _ => { action := .create, resource := .nodeGroup }
  | .listNodeGroups _ _ => { action := .list, resource := .nodeGroup }
  | .getNodeGroup _ => { action := .read, resource := .nodeGroup }
  | .deleteNodeGroup _ => { action := .delete, resource := .nodeGroup }
  | .addNodeToGroup _ _ | .removeNodeFromGroup _ _ => { action := .update, resource := .nodeGroup }
  | .createSSHKey _ => { action := .create, resource := .sshKey, tenantFromClaims := false }
  | .listSSHKeys _ => { action := .list, resource := .sshKey, tenantFromClaims := false }
  | .getSSHKey _ => { action := .read, resource := .sshKey, tenantFromClaims := false }
  | .deleteSSHKey _ => { action := .delete, resource := .sshKey, tenantFromClaims := false }
  | .rotateSSHKey _ | .deploySSHKey _ => { action := .update, resource := .sshKey, tenantFromClaims := false }
  | .nodeAction _ _ | .enrollmentToken _ => { action := .create, resource := .provisioningJob }
  | .nodeJobs _ _ => { action := .list, resource := .provisioningJob }
  | .job _ => { action := .read, resource := .provisioningJob }
  | .nodeConfig _ _ => { action := .read, resource := .node }
  | .gatewayConfig _ => { action := .read, resource := .gateway }
  | .nodeNetworking _ => { action := .read, resource := .node }
  | .wireGuardPeers _ => { action := .list, resource := .node, tenantFromClaims := false }

/-- The endpoints for agents are open to the owner of the resource, and to administrators. -/
def owner : ServiceRequest → Option String
  | .nodeConfig id _ | .gatewayConfig id => some id
  | _ => none

def handle (srv : Server) (c : Caller) : ServiceRequest → Handler Reply
  | .tenant req => TenantHandler.handle c req
  | .tenantUsage id => getUsage id
  | .auditEvents q => listAuditEvents c q
  | .status => StatusHandler.status c
  | .dnsZone req => DNSZoneHandler.handle c req
  | .dnsRecord req => DNSRecordHandler.handle c req
  | .cdnSite req => CDNSiteHandler.handle c req
  | .purgeCache id => CDNSiteHandler.purgeCache c id
  | .cdnOrigin req => (CDNOriginHandler srv.allowPrivateOrigins).handle c req
  | .route req => RouteHandler.handle c req
  | .bgpSession req => BGPSessionHandler.handle c req
  | .ipAllocation req => IPAllocationHandler.handle c req
  | .node (.create _ body) => NodeHandler.handleCreate c body
  | .node (.list _ q) => NodeHandler.list c q
  | .node (.get id) => NodeHandler.handleGet c id
  | .node (.update id body) => NodeHandler.handleUpdate c id body
  | .node (.delete id) => NodeHandler.handleDelete c id
  | .nodeHeartbeat id => NodeHandler.handleHeartbeat c id
  | .gateway (.create _ body) => GatewayHandler.handleCreate c body
  | .gateway (.list _ q) => GatewayHandler.list c q
  | .gateway (.get id) => GatewayHandler.handleGet c id
  | .gateway (.update id body) => GatewayHandler.handleUpdate c id body
  | .gateway (.delete id) => GatewayHandler.handleDelete c id
  | .gatewayHeartbeat id => GatewayHandler.handleHeartbeat c id
  | .createNodeGroup body => NodeGroupHandler.create c body
  | .listNodeGroups tenantID q => NodeGroupHandler.list c tenantID q
  | .getNodeGroup id => NodeGroupHandler.get c id
  | .deleteNodeGroup id => NodeGroupHandler.delete c id
  | .addNodeToGroup id nodeID => NodeGroupHandler.addNode c id nodeID
  | .removeNodeFromGroup id nodeID => NodeGroupHandler.removeNode c id nodeID
  | .createSSHKey body => SSHKeyHandler.create c body
  | .listSSHKeys q => SSHKeyHandler.list q
  | .getSSHKey id => SSHKeyHandler.get id
  | .deleteSSHKey id => SSHKeyHandler.delete c id
  | .rotateSSHKey id => SSHKeyHandler.rotate c id
  | .deploySSHKey id => SSHKeyHandler.deploy c id
  | .nodeAction id action => ProvisioningHandler.action srv.provisioner c id action
  | .enrollmentToken id => ProvisioningHandler.generateToken c id
  | .nodeJobs id q => ProvisioningHandler.listNodeJobs id q
  | .job id => ProvisioningHandler.getJob id
  | .nodeConfig id part => NodeConfigHandler.get srv.hub id part
  | .gatewayConfig id => GatewayConfigHandler.getRouteConfig id
  | .nodeNetworking id => NodeNetworkingHandler.getState id
  | .wireGuardPeers q => WireGuardHandler.listPeers q

end ServiceRequest

inductive Endpoint where
  | login (body : Decoded AuthHandler.LoginRequest)
  | logout
  | enroll (body : Decoded EnrollmentHandler.EnrollRequest)
  | account (req : AccountRequest)
  | service (req : ServiceRequest)

/-- A request: who it comes from, what it shows to be let in, and what it asks for. -/
structure Request where
  remoteAddr : String := ""
  presented : Presented := {}
  endpoint : Endpoint

def AccountRequest.middleware (ts : TokenService) (p : Presented) (req : AccountRequest) : Web Claims := do
  let claims ← auth ts p req.openPath
  match req.permission with
  | some permission =>
    requirePermission claims permission
    return claims
  | none => return claims

def ServiceRequest.middleware (ts : TokenService) (p : Presented) (req : ServiceRequest) : Web Claims := do
  let claims ← auth ts p false
  requirePermission claims req.permission
  match req.owner with
  | some raw =>
    requireResourceOwnerOrAdmin claims "id" raw
    return claims
  | none => return claims

section
variable {ts : TokenService} {v : Env} {s : Store}

theorem AccountRequest.middleware_ends (p : Presented) (req : AccountRequest) :
    Ends v s (req.middleware ts p)
      (fun claims s' => s.OnlyAPIKeys s' ∧ p.Shows ts v s claims ∧ (claims.mfaPending = true → req.openPath = true) ∧
        ∀ permission, req.permission = some permission → requirePermission claims permission = .ok ())
      fun _ s' => s.OnlyAPIKeys s' := by
  refine .andThen (auth_ends p req.openPath) ?_
  intro claims s' h
  obtain ⟨honly, hshows, hopen⟩ := h
  cases hperm : req.permission with
  | none => exact .pure ⟨honly, hshows, hopen, nofun⟩
  | some permission =>
    refine .bind (.ofExcept (fun u hu => ?_) fun _ _ => honly)
    refine .pure ⟨honly, hshows, hopen, fun permission' h => ?_⟩
    cases h
    exact hu

theorem ServiceRequest.middleware_ends (p : Presented) (req : ServiceRequest) :
    Ends v s (req.middleware ts p)
      (fun claims s' => s.OnlyAPIKeys s' ∧ p.Shows ts v s claims ∧ claims.mfaPending = false ∧
        requirePermission claims req.permission = .ok () ∧
        ∀ raw, req.owner = some raw → requireResourceOwnerOrAdmin claims "id" raw = .ok ())
      fun _ s' => s.OnlyAPIKeys s' := by
  refine .andThen (auth_ends p false) ?_
  intro claims s' h
  obtain ⟨honly, hshows, hopen⟩ := h
  have hfull : claims.mfaPending = false := by
    cases hp : claims.mfaPending with
    | false => rfl
    | true => exact absurd (hopen hp) (by decide)
  refine .bind (.ofExcept (fun u hperm => ?_) fun _ _ => honly)
  cases howner : req.owner with
  | none => exact .pure ⟨honly, hshows, hfull, hperm, nofun⟩
  | some raw =>
    refine .bind (.ofExcept (fun u hu => ?_) fun _ _ => honly)
    refine .pure ⟨honly, hshows, hfull, hperm, fun raw' h => ?_⟩
    cases h
    exact hu

end

def Server.serve (srv : Server) (r : Request) : Web Response :=
  match r.endpoint with
  | .login body => AuthHandler.login srv.tokenSvc r.remoteAddr body
  | .logout => return AuthHandler.logout
  | .enroll body => EnrollmentHandler.enroll srv.tokenSvc srv.provisioner r.remoteAddr body
  | .account req => do
    let claims ← req.middleware srv.tokenSvc r.presented
    req.handle srv.tokenSvc srv.totpIssuer ⟨claims, r.remoteAddr⟩
  | .service req => do
    let claims ← req.middleware srv.tokenSvc r.presented
    return { reply := ← req.handle srv ⟨claims, r.remoteAddr⟩ }

/-! ## With the token of a session -/

def AccountRequest.checks (req : AccountRequest) (claims : Claims) : Except Reply Claims := do
  req.permission.elim (.ok ()) (requirePermission claims)
  return claims

theorem AccountRequest.middleware_eq (ts : TokenService) (p : Presented) (req : AccountRequest) :
    req.middleware ts p = auth ts p req.openPath >>= fun claims => Prog.ofExcept (req.checks claims) := by
  refine congrArg _ (funext fun claims => ?_)
  unfold checks
  cases req.permission with
  | none => rfl
  | some permission =>
    dsimp only [Option.elim]
    cases requirePermission claims permission with
    | error r => rfl
    | ok _ => rfl

theorem AccountRequest.checks_refuses {req : AccountRequest} {claims : Claims} {r : Reply}
    (h : req.checks claims = .error r) : r.Refuses := by
  unfold checks at h
  cases hperm : req.permission with
  | none =>
    rw [hperm] at h
    cases h
  | some permission =>
    rw [hperm, Option.elim] at h
    cases hp : requirePermission claims permission with
    | error r' =>
      rw [hp] at h
      cases h
      exact requirePermission_refuses hp
    | ok _ =>
      rw [hp] at h
      cases h

def ServiceRequest.checks (req : ServiceRequest) (claims : Claims) : Except Reply Claims := do
  requirePermission claims req.permission
  req.owner.elim (.ok ()) (requireResourceOwnerOrAdmin claims "id")
  return claims

theorem ServiceRequest.middleware_eq (ts : TokenService) (p : Presented) (req : ServiceRequest) :
    req.middleware ts p = auth ts p false >>= fun claims => Prog.ofExcept (req.checks claims) := by
  refine congrArg _ (funext fun claims => ?_)
  unfold checks
  cases requirePermission claims req.permission with
  | error r => rfl
  | ok _ =>
    cases req.owner with
    | none => rfl
    | some raw =>
      dsimp only [Option.elim]
      cases requireResourceOwnerOrAdmin claims "id" raw with
      | error r => rfl
      | ok _ => rfl

theorem ServiceRequest.checks_refuses {req : ServiceRequest} {claims : Claims} {r : Reply}
    (h : req.checks claims = .error r) : r.Refuses := by
  unfold checks at h
  cases hp : requirePermission claims req.permission with
  | error r' =>
    rw [hp] at h
    cases h
    exact requirePermission_refuses hp
  | ok _ =>
    rw [hp] at h
    cases howner : req.owner with
    | none =>
      rw [howner] at h
      cases h
    | some raw =>
      rw [howner, Option.elim] at h
      cases ho : requireResourceOwnerOrAdmin claims "id" raw with
      | error r' =>
        rw [ho] at h
        cases h
        exact requireResourceOwnerOrAdmin_refuses ho
      | ok _ =>
        rw [ho] at h
        cases h

section
variable {v : Env} {w w' : World} {ts ts' : TokenService} {p : Presented} {claims : Claims} {t : Time}

theorem AccountRequest.middleware_token_exec (hkey : ts'.signingKey = ts.signingKey)
    (hp : p.token = .ok (ts.token v claims t)) (hrole : '|' ∉ claims.role.toList) {req : AccountRequest}
    (hopen : claims.mfaPending = false ∨ req.openPath = true) :
    (req.middleware ts' p).exec v w =
      (if ts.expiry t < Time.unix (v.now w.tick) then .error (.unauthorized "invalid or expired token")
        else req.checks { claims with apiKeyID := none }, w.next) := by
  rw [middleware_eq, Prog.exec_bind, auth_token_exec hkey hp hrole hopen]
  split_ifs <;> rfl

theorem ServiceRequest.middleware_token_exec (hkey : ts'.signingKey = ts.signingKey)
    (hp : p.token = .ok (ts.token v claims t)) (hrole : '|' ∉ claims.role.toList) (hfull : claims.mfaPending = false)
    (req : ServiceRequest) :
    (req.middleware ts' p).exec v w =
      (if ts.expiry t < Time.unix (v.now w.tick) then .error (.unauthorized "invalid or expired token")
        else req.checks { claims with apiKeyID := none }, w.next) := by
  rw [middleware_eq, Prog.exec_bind, auth_token_exec hkey hp hrole (.inl hfull)]
  split_ifs <;> rfl

theorem Server.serve_account_exec {srv : Server} {addr : String} {req : AccountRequest}
    (h : (req.middleware srv.tokenSvc p).exec v w = (.ok claims, w')) :
    (srv.serve { remoteAddr := addr, presented := p, endpoint := .account req }).exec v w =
      (req.handle srv.tokenSvc srv.totpIssuer ⟨claims, addr⟩).exec v w' := by
  refine (Prog.exec_bind v w _ _).trans ?_
  rw [h]

theorem Server.serve_service_exec {srv : Server} {addr : String} {req : ServiceRequest}
    (h : (req.middleware srv.tokenSvc p).exec v w = (.ok claims, w')) :
    (srv.serve { remoteAddr := addr, presented := p, endpoint := .service req }).exec v w =
      (((req.handle srv ⟨claims, addr⟩).1.exec v w').1.map fun reply => { reply },
        ((req.handle srv ⟨claims, addr⟩).1.exec v w').2) := by
  have hhandle : Prog.exec v (liftM (req.handle srv ⟨claims, addr⟩) : Web Reply) w' =
      (req.handle srv ⟨claims, addr⟩).1.exec v w' := rfl
  refine (Prog.exec_bind v w _ _).trans ?_
  rw [h]
  refine (Prog.exec_bind v w' _ _).trans ?_
  dsimp only
  rw [hhandle]
  rcases (req.handle srv ⟨claims, addr⟩).1.exec v w' with ⟨r | reply, w''⟩
  · rfl
  · rfl

end

def Response.of : Except Reply Response → Response
  | .ok r => r
  | .error r => { reply := r }

def Response.tokens (r : Response) : List String := r.token.toList ++ r.session.toList

theorem Response.of_exec_whole {v : Env} {w : World} {p : Web Response} {P : Response → Store → Prop}
    (h : p.Ensures id v w (fun resp w' => P resp w'.store) fun reply w' => P { reply } w'.store) :
    P (.of (p.exec v w).1) (p.exec v w).2.store := by
  rcases hx : p.exec v w with ⟨reply | resp, w'⟩
  · exact h.error rfl hx
  · exact h.ok rfl hx

theorem Response.of_exec {v : Env} {w : World} {p : Web Response} {P : Response → Store → Prop}
    (h : Ends v w.store p P fun reply s' => P { reply } s') : P (.of (p.exec v w).1) (p.exec v w).2.store :=
  of_exec_whole (Ends.whole h)

/-- The claims that the handler of a request runs with, if it runs and looks at any. -/
def Server.claims (srv : Server) (v : Env) (r : Request) (w : World) : Option Claims :=
  match r.endpoint with
  | .account req => ((req.middleware srv.tokenSvc r.presented).exec v w).1.toOption
  | .service req => ((req.middleware srv.tokenSvc r.presented).exec v w).1.toOption
  | _ => none

abbrev Server.Exchange := Session.Exchange Request World Reply Response

namespace Sample

def server : Server :=
  { tokenSvc := { signingKey := [1], ttl := 3600000000000 }
    totpIssuer := "EdgeFabric"
    provisioner := provisioner
    hub := provisioner.wgConfig
    allowPrivateOrigins := false }

def inSession (v : Env) (claims : Claims) (endpoint : Endpoint) : Request :=
  { presented := { authorization := "Bearer " ++ server.tokenSvc.token v claims 0 }, endpoint }

theorem inSession_token (v : Env) (claims : Claims) (endpoint : Endpoint) :
    (inSession v claims endpoint).presented.token = .ok (server.tokenSvc.token v claims 0) :=
  Presented.token_bearer (TokenService.token_ne_empty _ _ _ _)

section
variable {v : Env} {w : World} {claims : Claims} (hrole : '|' ∉ claims.role.toList) (hfull : claims.mfaPending = false)
  (hin : Time.unix (v.now w.tick) ≤ 3600)

include hrole hfull hin

theorem middleware_inSession {req : AccountRequest}
    (hchecks : req.checks { claims with apiKeyID := none } = .ok claims) :
    (req.middleware server.tokenSvc (inSession v claims (.account req)).presented).exec v w = (.ok claims, w.next) := by
  have hlate : ¬ server.tokenSvc.expiry 0 < Time.unix (v.now w.tick) := not_lt.mpr (Int.ofNat_le.mpr hin)
  rw [AccountRequest.middleware_token_exec rfl (inSession_token v claims (.account req)) hrole (.inl hfull),
    if_neg hlate, hchecks]

theorem serve_account_inSession {req : AccountRequest}
    (hchecks : req.checks { claims with apiKeyID := none } = .ok claims) :
    (server.serve (inSession v claims (.account req))).exec v w =
      (req.handle server.tokenSvc server.totpIssuer ⟨claims, ""⟩).exec v w.next :=
  Server.serve_account_exec (middleware_inSession hrole hfull hin hchecks)

theorem serve_service_inSession {req : ServiceRequest}
    (hchecks : req.checks { claims with apiKeyID := none } = .ok claims) :
    (server.serve (inSession v claims (.service req))).exec v w =
      (((req.handle server ⟨claims, ""⟩).1.exec v w.next).1.map fun reply => { reply },
        ((req.handle server ⟨claims, ""⟩).1.exec v w.next).2) := by
  have hlate : ¬ server.tokenSvc.expiry 0 < Time.unix (v.now w.tick) := not_lt.mpr (Int.ofNat_le.mpr hin)
  refine Server.serve_service_exec
    ((ServiceRequest.middleware_token_exec rfl (inSession_token v claims (.service req)) hrole hfull req).trans ?_)
  rw [if_neg hlate, hchecks]

end

/-- A user with a second factor; in an environment that is calm, the secret is its own code. -/
def guarded : User := { user with totpSecret := "123456", totpEnabled := true }

def login : Request := { endpoint := .login (.ok { email := "a@b.c", password := "password" }) }

/-- What `login` leaves if it comes first. -/
def passed : World := ⟨5, account { guarded with lastLoginAt := some 2, updatedAt := 3 }⟩

/-- A request with the token that `login` is answered with if it comes first. -/
def withPassword (v : Env) (endpoint : Endpoint) : Request :=
  { presented :=
      { authorization := "Bearer " ++ server.tokenSvc.token v { guarded.claims with mfaPending := true } 4 }
    endpoint }

theorem withPassword_token (v : Env) (endpoint : Endpoint) :
    (withPassword v endpoint).presented.token =
      .ok (server.tokenSvc.token v { guarded.claims with mfaPending := true } 4) :=
  Presented.token_bearer (TokenService.token_ne_empty _ _ _ _)

theorem middleware_withPassword {v : Env} {w : World} (hin : Time.unix (v.now w.tick) ≤ 3600) {req : AccountRequest}
    (hopen : req.openPath = true) (hfree : req.permission = none) :
    (req.middleware server.tokenSvc (withPassword v (.account req)).presented).exec v w =
      (.ok { guarded.claims with mfaPending := true }, w.next) := by
  have hlate : ¬ server.tokenSvc.expiry 4 < Time.unix (v.now w.tick) := not_lt.mpr (Int.ofNat_le.mpr hin)
  rw [AccountRequest.middleware_token_exec rfl (withPassword_token v (.account req)) (by decide) (.inr hopen),
    if_neg hlate, AccountRequest.checks, hfree]
  rfl

theorem serve_withPassword {v : Env} {w : World} (hin : Time.unix (v.now w.tick) ≤ 3600) {req : AccountRequest}
    (hopen : req.openPath = true) (hfree : req.permission = none) :
    (server.serve (withPassword v (.account req))).exec v w =
      (req.handle server.tokenSvc server.totpIssuer ⟨{ guarded.claims with mfaPending := true }, ""⟩).exec v w.next :=
  Server.serve_account_exec (middleware_withPassword hin hopen hfree)

end Sample

end EdgeFabric
